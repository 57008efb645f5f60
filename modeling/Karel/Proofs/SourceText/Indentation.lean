import Karel.Proofs.Layout.Kinds

/-!
# Indentation of a program text

The lines of the program text of a tree stand at the open level, open a level, or close some. In
each of these cases the tokens ahead are one step away from tokens ahead at another level.

## Main definitions

- `Leaves` — lines ahead that leave the blocks wider than a given width

## Main results

- `scanLines_level`, `scanLines_open`, `scanLines_close` — the three steps
-/

namespace Karel

/-- The lines ahead begin with a line of code that is no wider than the bound, or there is only an
    empty line. -/
inductive Leaves (bound : Nat) : List Line → Prop where
  | last : Leaves bound [.blank]
  | code {width : Nat} (narrow : width ≤ bound) (pieces : List Lexeme) (below : List Line) :
    Leaves bound (.code width pieces :: below)

theorem Leaves.ne_nil {bound : Nat} {lines : List Line} (h : Leaves bound lines) : lines ≠ [] := by
  cases h <;> exact List.cons_ne_nil _ _

variable {levels : List Nat} {width index : Nat} {pieces : List Lexeme} {lines : List Line}

theorem scanLines_cons (margin : Margin) (index : Nat) (line : Line) (hlines : lines ≠ []) :
    scanLines margin index (line :: lines) =
      margin.tokens index true line ++ scanLines (margin.after line) (index + 1) lines := by
  obtain ⟨next, more, rfl⟩ := List.exists_cons_of_ne_nil hlines
  rfl

/-- Where the open level is no wider than a line, the line closes none. -/
theorem Margin.closed_eq_nil (h : levels.headD 0 ≤ width) : closed levels width = [] := by
  cases levels with
  | nil => rfl
  | cons level levels => exact List.takeWhile_cons_of_neg (by simpa using h)

theorem Margin.kept_eq_self (h : levels.headD 0 ≤ width) : kept levels width = levels := by
  cases levels with
  | nil => rfl
  | cons level levels => exact List.dropWhile_cons_of_neg (by simpa using h)

/-- A line at the open level becomes its text and a `newline`. -/
theorem scanLines_level (h : levels.headD 0 = width) (hlines : lines ≠ []) :
    scanLines ⟨levels, .packed⟩ index (.code width pieces :: lines) =
      textTokens index pieces ++
        ⟨.newline, index⟩ :: scanLines ⟨levels, .packed⟩ (index + 1) lines := by
  have hclosed : Margin.closed levels width = [] := Margin.closed_eq_nil (Nat.le_of_eq h)
  have hkept : Margin.kept levels width = levels := Margin.kept_eq_self (Nat.le_of_eq h)
  have hopens : Margin.opens levels width = false := by
    rw [Margin.opens, hkept, h]
    exact decide_eq_false (Nat.lt_irrefl width)
  have hafter : Margin.levelsAfter levels width = levels := by
    simp [Margin.levelsAfter, hopens, hkept]
  rw [scanLines_cons _ _ _ hlines, Margin.tokens_code, Margin.after]
  simp [hclosed, hopens, hafter]

/-- A line that is wider than the open level opens a level, and stands at that level then. -/
theorem scanLines_open (h : levels.headD 0 < width) (hlines : lines ≠ []) :
    scanLines ⟨levels, .packed⟩ index (.code width pieces :: lines) =
      ⟨.indent, index⟩ ::
        scanLines ⟨width :: levels, .packed⟩ index (.code width pieces :: lines) := by
  have hclosed : Margin.closed levels width = [] := Margin.closed_eq_nil (Nat.le_of_lt h)
  have hkept : Margin.kept levels width = levels := Margin.kept_eq_self (Nat.le_of_lt h)
  have hopens : Margin.opens levels width = true := by
    rw [Margin.opens, hkept]
    exact decide_eq_true h
  have hafter : Margin.levelsAfter levels width = width :: levels := by
    simp [Margin.levelsAfter, hopens, hkept]
  have hlevel : (width :: levels).headD 0 = width := rfl
  rw [scanLines_level hlevel hlines, scanLines_cons _ _ _ hlines, Margin.tokens_code, Margin.after]
  simp [hclosed, hopens, hafter]

/-- Lines that leave the innermost level close it. -/
theorem scanLines_close {bound level : Nat} (h : Leaves bound lines) (hlevel : bound < level) :
    scanLines ⟨level :: levels, .packed⟩ index lines =
      ⟨.dedent, index⟩ :: scanLines ⟨levels, .packed⟩ index lines := by
  cases h with
  | last => rfl
  | @code width narrow pieces below =>
    have hwide : width < level := Nat.lt_of_le_of_lt narrow hlevel
    have hclosed : Margin.closed (level :: levels) width = level :: Margin.closed levels width :=
      List.takeWhile_cons_of_pos (by simpa using hwide)
    have hkept : Margin.kept (level :: levels) width = Margin.kept levels width :=
      List.dropWhile_cons_of_pos (by simpa using hwide)
    have hopens : Margin.opens (level :: levels) width = Margin.opens levels width := by
      rw [Margin.opens, Margin.opens, hkept]
    have hafter : Margin.levelsAfter (level :: levels) width = Margin.levelsAfter levels width := by
      rw [Margin.levelsAfter, Margin.levelsAfter, hopens, hkept]
    have htokens (terminated : Bool) :
        Margin.tokens ⟨level :: levels, .packed⟩ index terminated (.code width pieces) =
          ⟨.dedent, index⟩ ::
            Margin.tokens ⟨levels, .packed⟩ index terminated (.code width pieces) := by
      rw [Margin.tokens_code, Margin.tokens_code, hclosed, hopens]
      rfl
    cases below with
    | nil =>
      rw [scanLines, scanLines, htokens, Margin.after, Margin.after, hafter]
      rfl
    | cons next below =>
      rw [scanLines, scanLines, htokens, Margin.after, Margin.after, hafter]
      rfl

/-- At the start of a text no blank lines are pending. -/
theorem scanLines_leading {bound : Nat} (h : Leaves bound lines) :
    scanLines ⟨levels, .leading⟩ index lines = scanLines ⟨levels, .packed⟩ index lines := by
  cases h with
  | last => rfl
  | @code width narrow pieces below => cases below <;> rfl

end Karel
