/-!
# Sets of names

A set of names is kept as a strictly ascending list. Names are compared character by character by
code point, which is also the order of their UTF-8 bytes.

## Main definitions

- `insertName` — adds a name to a strictly ascending list
- `nameSet` — the strictly ascending list of the names in a list
-/

namespace Karel

/-- Adds a name to a strictly ascending list, unless it is there. -/
def insertName (name : String) : List String → List String
  | [] => [name]
  | head :: tail =>
    if name < head then name :: head :: tail
    else if name = head then head :: tail
    else head :: insertName name tail

/-- The distinct names of a list in ascending order. -/
def nameSet (names : List String) : List String :=
  names.foldr insertName []

/-- An inserted name and the old names make up the new ones. -/
@[simp] theorem mem_insertName {name other : String} {names : List String} :
    other ∈ insertName name names ↔ other = name ∨ other ∈ names := by
  induction names with
  | nil => simp [insertName]
  | cons head tail ih =>
    unfold insertName
    split
    · simp
    · split
      · simp_all
      · simp only [List.mem_cons, ih]
        grind

/-- A name set holds the names it was made of. -/
@[simp] theorem mem_nameSet {name : String} {names : List String} :
    name ∈ nameSet names ↔ name ∈ names := by
  induction names with
  | nil => simp [nameSet]
  | cons head tail ih => simp [nameSet, ← ih]

/-- Inserting a name keeps a list strictly ascending. -/
theorem pairwise_insertName (name : String) {names : List String}
    (h : names.Pairwise (· < ·)) : (insertName name names).Pairwise (· < ·) := by
  induction names with
  | nil => simp [insertName]
  | cons head tail ih =>
    obtain ⟨hhead, htail⟩ := List.pairwise_cons.mp h
    unfold insertName
    split
    · next hlt =>
      refine List.pairwise_cons.mpr ⟨fun other hother => ?_, h⟩
      rcases List.mem_cons.mp hother with rfl | hmem
      · exact hlt
      · exact String.lt_trans hlt (hhead other hmem)
    · next hlt =>
      split
      · exact h
      · next hne =>
        refine List.pairwise_cons.mpr ⟨fun other hother => ?_, ih htail⟩
        rcases mem_insertName.mp hother with rfl | hmem
        · exact String.not_le.mp fun hle =>
            hne (String.le_antisymm hle (String.not_lt.mp hlt))
        · exact hhead other hmem

/-- A name set is strictly ascending. -/
theorem pairwise_nameSet (names : List String) : (nameSet names).Pairwise (· < ·) := by
  induction names with
  | nil => exact List.Pairwise.nil
  | cons head tail ih => exact pairwise_insertName head ih

end Karel
