import Mathlib.Data.List.TakeWhile
import Karel.Proofs.Layout.Cuts

/-!
# Starting again in the middle of a text

Lines that begin a text without indentation are scanned in the middle of a text as they are at its
start, but for what their first line of code says about the lines above: it closes the levels that
are open there, and it tells of blank lines.

## Main results

- `scanLines_add` — lines that are counted from another line
- `scanLines_restart` — lines in the middle of a text
-/

namespace Karel

namespace Margin

/-- Only positive widths are listed as open. -/
theorem pos_of_mem_levelsAfter {levels : List Nat} {width level : Nat}
    (h : ∀ level ∈ levels, 0 < level) (hmem : level ∈ levelsAfter levels width) : 0 < level := by
  have hkept (hmem : level ∈ kept levels width) : 0 < level :=
    h level ((List.dropWhile_suffix _).subset hmem)
  rw [levelsAfter] at hmem
  split at hmem
  · next hopens =>
    rw [opens, decide_eq_true_eq] at hopens
    rcases List.mem_cons.mp hmem with rfl | hmem
    · exact Nat.zero_lt_of_lt hopens
    · exact hkept hmem
  · exact hkept hmem

theorem pos_of_mem_levels_below {margin : Margin} {lines : List Line} {level : Nat}
    (h : ∀ level ∈ margin.levels, 0 < level) (hmem : level ∈ (margin.below lines).levels) :
    0 < level := by
  induction lines generalizing margin with
  | nil => exact h level hmem
  | cons line lines ih =>
    refine ih (fun level hlevel => ?_) hmem
    cases line with
    | blank | comment => exact h level hlevel
    | code width pieces => exact pos_of_mem_levelsAfter h hlevel

theorem closing_eq_replicate (margin : Margin) (index : Nat) :
    margin.closing index = List.replicate margin.levels.length ⟨.dedent, index⟩ :=
  List.map_const'

end Margin

variable {margin : Margin} {index : Nat} {lines : List Line}

/-- Lines that are counted from another line have their tokens on other lines. -/
theorem scanLines_add (count : Nat) :
    scanLines margin (index + count) lines =
      (scanLines margin index lines).map (Token.mapLine (· + count)) := by
  have htokens (margin : Margin) (index : Nat) (terminated : Bool) (line : Line) :
      margin.tokens (index + count) terminated line =
        (margin.tokens index terminated line).map (Token.mapLine (· + count)) := by
    rw [Margin.tokens, Margin.tokens, List.map_map]
    rfl
  have hclosing (margin : Margin) (index : Nat) :
      margin.closing (index + count) =
        (margin.closing index).map (Token.mapLine (· + count)) := by
    rw [Margin.closing, Margin.closing, List.map_map]
    rfl
  fun_induction scanLines margin index lines with
  | case1 => rfl
  | case2 margin index line => rw [scanLines, htokens, hclosing, List.map_append]
  | case3 margin index line next more ih =>
    rw [scanLines, htokens, Nat.add_right_comm, ih, List.map_append]

/-- A line without indentation closes all levels. Otherwise it is like the first line of a text,
    unless there are blank lines above it. -/
theorem Margin.tokens_restart (h : ∀ level ∈ margin.levels, 0 < level) (index : Nat)
    (terminated : Bool) (pieces : List Lexeme) :
    margin.tokens index terminated (.code 0 pieces) =
      List.replicate margin.levels.length ⟨.dedent, index⟩ ++
        ((if margin.spacing = .spaced then [⟨.newline, index⟩] else []) ++
          initial.tokens index terminated (.code 0 pieces)) := by
  have hclosed : closed margin.levels 0 = margin.levels :=
    List.takeWhile_eq_self_iff.mpr (by simpa using h)
  have hopens (levels : List Nat) : opens levels 0 = false := by simp [opens]
  rw [tokens_code, tokens_code, hclosed, hopens, hopens]
  simp [initial, closed]

theorem Margin.after_restart (h : ∀ level ∈ margin.levels, 0 < level) (pieces : List Lexeme) :
    margin.after (.code 0 pieces) = initial.after (.code 0 pieces) := by
  have hkept : kept margin.levels 0 = [] := List.dropWhile_eq_nil_iff.mpr (by simpa using h)
  rw [after, after, levelsAfter, levelsAfter, opens, opens, hkept]
  rfl

/-- What is behind a line depends on the margin below it only. -/
theorem exists_scanLines_eq (index : Nat) (line : Line) (lines : List Line) :
    ∃ terminated, ∃ behind : Margin → List Token, ∀ margin,
      scanLines margin index (line :: lines) =
        margin.tokens index terminated line ++ behind (margin.after line) := by
  cases lines with
  | nil => exact ⟨false, fun margin => margin.closing index, fun _ => rfl⟩
  | cons next more =>
    exact ⟨true, fun margin => scanLines margin (index + 1) (next :: more), fun _ => rfl⟩

/-- A first line of code that is indented opens a level at once. -/
theorem width_eq_zero_of_head? {width : Nat} {pieces : List Lexeme}
    (hstart : ∀ token ∈ (scanLines Margin.initial index (.code width pieces :: lines)).head?,
      token.kind ≠ .indent) : width = 0 := by
  by_contra hne
  obtain ⟨terminated, behind, hscan⟩ := exists_scanLines_eq index (.code width pieces) lines
  have hopens : Margin.opens Margin.initial.levels width = true :=
    decide_eq_true (Nat.pos_of_ne_zero hne)
  rw [hscan, Margin.tokens_code, hopens] at hstart
  exact hstart ⟨.indent, index⟩ rfl rfl

/-- Lines that do not begin with an `indent` at the start of a text close all levels in the middle
    of a text, and go on as at the start, with or without a gap. -/
theorem scanLines_restart (hpos : ∀ level ∈ margin.levels, 0 < level) (hlines : lines ≠ [])
    (hstart : ∀ token ∈ (scanLines Margin.initial index lines).head?, token.kind ≠ .indent) :
    ∃ line gap, (gap = [] ∨ gap = [⟨.newline, line⟩]) ∧
      scanLines margin index lines =
        List.replicate margin.levels.length ⟨.dedent, line⟩ ++
          (gap ++ scanLines Margin.initial index lines) := by
  -- lines without code change nothing but the spacing, up to the first line of code or the end
  induction lines generalizing margin index with
  | nil => exact absurd rfl hlines
  | cons first lines ih =>
    cases first with
    | code width pieces =>
      obtain rfl := width_eq_zero_of_head? hstart
      obtain ⟨terminated, behind, hscan⟩ := exists_scanLines_eq index (.code 0 pieces) lines
      refine ⟨index, if margin.spacing = .spaced then [⟨.newline, index⟩] else [], ?_, ?_⟩
      · split
        · exact .inr rfl
        · exact .inl rfl
      · rw [hscan, hscan, Margin.tokens_restart hpos, Margin.after_restart hpos]
        simp only [List.append_assoc]
    | blank | comment =>
      cases lines with
      | nil =>
        have hclosing := margin.closing_eq_replicate index
        exact ⟨index, [], .inl rfl, hclosing.trans (List.append_nil _).symm⟩
      | cons next more => exact ih hpos (List.cons_ne_nil next more) hstart

end Karel
