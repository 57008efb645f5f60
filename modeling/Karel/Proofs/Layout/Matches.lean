import Mathlib.Data.List.Infix
import Mathlib.Data.List.TakeWhile
import Karel.Proofs.Layout.Words

/-!
# Words, numbers and colons in a line

What a line says is in its words, its numbers and its colons. Each of these is a shape that a text
may have, and a line is searched from left to right: where a text of some shape begins, the longest
one there is taken, and the search goes on behind it.

## Main definitions

- `Shape`, `Shape.Matches` — a shape, and the texts that have it
- `LeftmostLongest` — the texts that are found in a line

## Main results

- `LeftmostLongest.of_starts`, `LeftmostLongest.of_not_isShown` — a step of the search
- `LeftmostLongest.unique` — a search has one outcome
- `LeftmostLongest.exists_gaps`, `LeftmostLongest.flatten_eq_filter` — nothing of a shape is missed

## Design notes

All shapes are alike: one character that begins a text, and any number of characters that go on
with it.
-/

namespace Karel

/-- A letter of ASCII, an underscore, a digit or a colon. -/
def isShown (char : Char) : Bool :=
  char.isAlphanum || char = '_' || char = ':'

/-- The shapes of the texts that a line is searched for. -/
inductive Shape where
  /-- A letter, and any number of letters and digits behind it. -/
  | word
  /-- One digit or more. -/
  | number
  | colon

namespace Shape

/-- The characters that a text of a shape begins with. -/
def starts : Shape → Char → Bool
  | word, char => char.isAlpha || char = '_'
  | number, char => char.isDigit
  | colon, char => char = ':'

/-- The characters that a text of a shape goes on with. -/
def continues : Shape → Char → Bool
  | word, char => char.isAlphanum || char = '_'
  | number, char => char.isDigit
  | colon, _ => false

/-- The texts of a shape. -/
def Matches (shape : Shape) : List Char → Prop
  | [] => False
  | first :: rest => shape.starts first = true ∧ ∀ char ∈ rest, shape.continues char = true

variable {shape other : Shape} {char first : Char} {rest text : List Char}

theorem isShown_of_starts (h : shape.starts char = true) : isShown char = true := by
  cases shape <;> grind [starts, isShown, Char.isAlphanum]

theorem isShown_of_continues (h : shape.continues char = true) : isShown char = true := by
  cases shape <;> grind [continues, isShown, Char.isAlphanum]

theorem exists_starts_of_isShown (h : isShown char = true) :
    ∃ shape : Shape, shape.starts char = true := by
  simp only [isShown, Char.isAlphanum, Bool.or_eq_true] at h
  rcases h with ((h | h) | h) | h
  · exact ⟨word, by rw [starts, h, Bool.true_or]⟩
  · exact ⟨number, h⟩
  · exact ⟨word, by rw [starts, h, Bool.or_true]⟩
  · exact ⟨colon, h⟩

/-- The first character of a text tells its shape. -/
theorem eq_of_starts (h : shape.starts char = true) (hother : other.starts char = true) :
    shape = other := by
  have hletter : word.starts char = true → char.isDigit = false := by
    rw [starts, Bool.or_eq_true, decide_eq_true_eq, Glyph.isAlpha_iff_toNat, ← Bool.not_eq_true,
      Char.isDigit_iff_toNat]
    have hzero : '0'.toNat = 48 := rfl
    have hnine : '9'.toNat = 57 := rfl
    rintro (hletter | rfl)
    · omega
    · decide
  have hcolon : char = ':' → word.starts char = false ∧ char.isDigit = false := by
    rintro rfl
    exact ⟨rfl, rfl⟩
  cases shape <;> cases other <;> grind [starts]

/-- All that goes on with the first character of a text belongs to the text. -/
theorem matches_takeWhile (hstarts : shape.starts first = true) (rest : List Char) :
    shape.Matches (first :: rest.takeWhile shape.continues) :=
  ⟨hstarts, fun _ => List.mem_takeWhile_imp⟩

theorem Matches.unique (h : shape.Matches text) (hother : other.Matches text) :
    shape = other := by
  cases text with
  | nil => cases h
  | cons first rest => exact eq_of_starts h.1 hother.1

theorem Matches.isShown (h : shape.Matches text) : ∀ char ∈ text, isShown char = true := by
  cases text with
  | nil => cases h
  | cons first rest =>
    rw [List.forall_mem_cons]
    exact ⟨isShown_of_starts h.1, fun char hmem => isShown_of_continues (h.2 char hmem)⟩

/-- A text from the front of a line is not longer than the longest one of its shape there. -/
theorem Matches.length_le (hstarts : shape.starts first = true) (h : other.Matches text)
    (hfront : text <+: first :: rest) :
    text.length ≤ (first :: rest.takeWhile shape.continues).length := by
  cases text with
  | nil => exact Nat.zero_le _
  | cons head tail =>
    obtain ⟨rfl, behind, rfl⟩ := List.cons_prefix_cons.mp hfront
    obtain rfl := eq_of_starts hstarts h.1
    rw [List.takeWhile_append_of_pos h.2, List.length_cons, List.length_cons, List.length_append]
    omega

end Shape

/-- The texts that are found in a line from left to right. A character with which no text of a shape
    begins is passed over, and else the longest text of a shape is taken. -/
inductive LeftmostLongest : List Char → List (List Char) → Prop where
  | nil : LeftmostLongest [] []
  | skip {char : Char} {rest : List Char} {found : List (List Char)}
      (unmatched : ∀ (shape : Shape) text, text <+: char :: rest → ¬ shape.Matches text)
      (others : LeftmostLongest rest found) : LeftmostLongest (char :: rest) found
  | take {line text rest : List Char} {found : List (List Char)} (cut : line = text ++ rest)
      (shape : Shape) (matched : shape.Matches text)
      (longest : ∀ (other : Shape) longer, longer <+: line → other.Matches longer →
        longer.length ≤ text.length)
      (others : LeftmostLongest rest found) : LeftmostLongest line (text :: found)

namespace LeftmostLongest

variable {line rest : List Char} {found others : List (List Char)} {shape : Shape}
  {char first : Char}

/-- Where a text of some shape begins, all that goes on with it is taken. -/
theorem of_starts (hstarts : shape.starts first = true)
    (h : LeftmostLongest (rest.dropWhile shape.continues) found) :
    LeftmostLongest (first :: rest) ((first :: rest.takeWhile shape.continues) :: found) := by
  refine .take ?_ shape (Shape.matches_takeWhile hstarts rest) ?_ h
  · rw [List.cons_append, List.takeWhile_append_dropWhile]
  · intro other longer hfront hmatches
    exact hmatches.length_le hstarts hfront

theorem of_not_isShown (hchar : isShown char = false) (h : LeftmostLongest rest found) :
    LeftmostLongest (char :: rest) found := by
  refine .skip (fun shape text hfront hmatches => ?_) h
  cases text with
  | nil => exact hmatches
  | cons head tail =>
    obtain ⟨rfl, -⟩ := List.cons_prefix_cons.mp hfront
    rw [Shape.isShown_of_starts hmatches.1] at hchar
    cases hchar

/-- A search has one outcome. -/
theorem unique (h : LeftmostLongest line found) (h' : LeftmostLongest line others) :
    found = others := by
  induction h generalizing others with
  | nil =>
    cases h' with
    | nil => rfl
    | take cut _ matched =>
      rw [(List.append_eq_nil_iff.mp cut.symm).1] at matched
      cases matched
  | skip unmatched _ ih =>
    cases h' with
    | skip _ others => exact ih others
    | take cut shape matched => exact absurd matched (unmatched shape _ ⟨_, cut.symm⟩)
  | @take line text rest found cut shape matched longest _ ih =>
    cases h' with
    | nil =>
      rw [(List.append_eq_nil_iff.mp cut.symm).1] at matched
      cases matched
    | skip unmatched _ => exact absurd matched (unmatched shape _ ⟨_, cut.symm⟩)
    | @take _ text' rest' found' cut' shape' matched' longest' others =>
      -- each of the two texts is at most as long as the other
      have hlength : text.length = text'.length :=
        Nat.le_antisymm (longest' shape text ⟨rest, cut.symm⟩ matched)
          (longest shape' text' ⟨rest', cut'.symm⟩ matched')
      obtain ⟨rfl, rfl⟩ := List.append_inj (cut.symm.trans cut') hlength
      rw [ih others]

theorem isShown_of_unmatched
    (unmatched : ∀ (shape : Shape) text, text <+: char :: rest → ¬ shape.Matches text) :
    isShown char = false := by
  rw [← Bool.not_eq_true]
  intro hshown
  obtain ⟨shape, hstarts⟩ := Shape.exists_starts_of_isShown hshown
  exact unmatched shape [char] ⟨rest, rfl⟩ ⟨hstarts, by simp⟩

/-- A line is made of the texts that are found in it and of gaps, in which there is no letter, digit
    or colon. -/
theorem exists_gaps (h : LeftmostLongest line found) :
    ∃ gaps last, gaps.length = found.length ∧
      line = (List.zipWith (· ++ ·) gaps found).flatten ++ last ∧
      ∀ gap ∈ last :: gaps, ∀ char ∈ gap, isShown char = false := by
  induction h with
  | nil => exact ⟨[], [], rfl, rfl, by simp⟩
  | @skip char rest found unmatched _ ih =>
    obtain ⟨gaps, last, hlength, rfl, hgaps⟩ := ih
    have hchar := isShown_of_unmatched unmatched
    obtain ⟨hlast, hgaps⟩ := List.forall_mem_cons.mp hgaps
    cases gaps with
    | nil =>
      refine ⟨[], char :: last, hlength, rfl, ?_⟩
      exact List.forall_mem_cons.mpr ⟨List.forall_mem_cons.mpr ⟨hchar, hlast⟩, hgaps⟩
    | cons gap gaps =>
      obtain ⟨hgap, hgaps⟩ := List.forall_mem_cons.mp hgaps
      obtain ⟨text, found, rfl⟩ := List.exists_cons_of_length_eq_add_one hlength.symm
      refine ⟨(char :: gap) :: gaps, last, hlength, rfl, ?_⟩
      exact List.forall_mem_cons.mpr
        ⟨hlast, List.forall_mem_cons.mpr ⟨List.forall_mem_cons.mpr ⟨hchar, hgap⟩, hgaps⟩⟩
  | @take line text rest found cut _ _ _ _ ih =>
    obtain ⟨gaps, last, hlength, hrest, hgaps⟩ := ih
    obtain ⟨hlast, hgaps⟩ := List.forall_mem_cons.mp hgaps
    refine ⟨[] :: gaps, last, by rw [List.length_cons, List.length_cons, hlength], ?_, ?_⟩
    · rw [cut, hrest, List.zipWith_cons_cons, List.flatten_cons, List.nil_append,
        List.append_assoc]
    · exact List.forall_mem_cons.mpr ⟨hlast, List.forall_mem_cons.mpr ⟨by simp, hgaps⟩⟩

/-- The texts that are found are all that there is of letters, digits and colons. -/
theorem flatten_eq_filter (h : LeftmostLongest line found) :
    found.flatten = line.filter isShown := by
  induction h with
  | nil => rfl
  | skip unmatched _ ih =>
    rw [ih, List.filter_cons_of_neg (by simp [isShown_of_unmatched unmatched])]
  | take cut _ matched _ _ ih =>
    rw [cut, List.flatten_cons, ih, List.filter_append,
      List.filter_eq_self.mpr matched.isShown]

end LeftmostLongest

end Karel
