import Mathlib.Data.List.TakeWhile
import Karel.Proofs.Layout.Kinds
import Karel.TokenStream

/-!
# Levels of indentation

Reading scanned tokens from left to right, each `indent` opens a level and each `dedent` closes
the last one. The scanner keeps this in step with the widths of the lines: an `indent` stands on a
line that is wider than the level around it, and a visible token stands on a line as wide as the
level that is open.

## Main definitions

- `lineWidth` — the width of the indentation of a line of a source text
- `Levelled` — tokens whose `indent` and `dedent` tokens follow the widths of their lines

## Main results

- `Margin.levelled_tokens` — what one line contributes
- `levelled_toList` — the tokens of a source text
- `Levelled.count_dedent_le`, `Levelled.count_dedent` — levels are closed after they are opened
-/

namespace Karel

/-- The width of the indentation of a line of a source text: its spaces and tabs in front. -/
def lineWidth (source : String) (index : Nat) : Nat :=
  (((splitLines (glyphs source)).getD index []).takeWhile (· = .blank)).length

/-- Tokens that are ahead where the given levels are open, innermost first, with the widths of
    the lines known. All levels are closed in the end. -/
def Levelled (width : Nat → Nat) : List Nat → List Token → Prop
  | levels, [] => levels = []
  | levels, token :: tokens =>
    match token.kind with
    | .indent =>
      levels.headD 0 < width token.line ∧ Levelled width (width token.line :: levels) tokens
    | .dedent => levels ≠ [] ∧ Levelled width levels.tail tokens
    | .newline => Levelled width levels tokens
    | .eof => levels = [] ∧ Levelled width levels tokens
    | .identifier _ | .number _ | .colon | .keyword _ =>
      width token.line = levels.headD 0 ∧ Levelled width levels tokens

variable {width : Nat → Nat} {levels : List Nat} {tokens more : List Token} {index : Nat}

@[simp]
theorem levelled_newline {line : Nat} :
    Levelled width levels (⟨.newline, line⟩ :: tokens) ↔ Levelled width levels tokens :=
  Iff.rfl

/-- A visible token stands on a line as wide as the level that is open. -/
theorem levelled_visible {token : Token} (hvisible : token.kind.isVisible = true) :
    Levelled width levels (token :: tokens) ↔
      width token.line = levels.headD 0 ∧ Levelled width levels tokens := by
  obtain ⟨kind, line⟩ := token
  cases kind with
  | newline | indent | dedent | eof => cases hvisible
  | _ => rfl

-- ════════════════════════════════════════════════════════════════════════
-- One line
-- ════════════════════════════════════════════════════════════════════════

namespace Margin

/-- The `dedent` tokens of a line close the levels that it does not keep. -/
theorem levelled_closed {bound : Nat} (h : Levelled width (kept levels bound) more) :
    Levelled width levels
      (List.replicate (closed levels bound).length ⟨.dedent, index⟩ ++ more) := by
  induction levels with
  | nil => exact h
  | cons level levels ih =>
    by_cases hwide : bound < level
    · rw [closed, List.takeWhile_cons_of_pos (by simpa using hwide)]
      rw [kept, List.dropWhile_cons_of_pos (by simpa using hwide)] at h
      exact ⟨List.cons_ne_nil level levels, ih h⟩
    · rw [closed, List.takeWhile_cons_of_neg (by simpa using hwide)]
      rwa [kept, List.dropWhile_cons_of_neg (by simpa using hwide)] at h

theorem headD_kept_le (levels : List Nat) (bound : Nat) : (kept levels bound).headD 0 ≤ bound := by
  rw [kept]
  cases hkept : levels.dropWhile (bound < ·) with
  | nil => exact Nat.zero_le _
  | cons level rest =>
    have hne : levels.dropWhile (bound < ·) ≠ [] := by simp [hkept]
    have hnot := List.head_dropWhile_not (bound < ·) hne
    simpa [hkept] using hnot

/-- Below a line the innermost level is just as wide as the line. -/
theorem headD_levelsAfter (levels : List Nat) (bound : Nat) :
    (levelsAfter levels bound).headD 0 = bound := by
  rw [levelsAfter]
  split
  · rfl
  · next hopens =>
    have hle := headD_kept_le levels bound
    have hge : bound ≤ (kept levels bound).headD 0 := by simpa [opens] using hopens
    exact Nat.le_antisymm hle hge

/-- Visible tokens on lines as wide as the open level leave the levels as they are. -/
theorem levelled_of_visible {visible : List Token}
    (hvisible : ∀ token ∈ visible, token.kind.isVisible = true ∧ width token.line = levels.headD 0)
    (h : Levelled width levels more) : Levelled width levels (visible ++ more) := by
  induction visible with
  | nil => exact h
  | cons token visible ih =>
    obtain ⟨hkind, hwidth⟩ := hvisible token List.mem_cons_self
    have htail := ih fun other hmem => hvisible other (List.mem_cons_of_mem token hmem)
    exact (levelled_visible hkind).mpr ⟨hwidth, htail⟩

/-- A line takes the levels above it to those below it. -/
theorem levelled_tokens {margin : Margin} {terminated : Bool} {line : Line}
    (hwidth : ∀ bound pieces, line = .code bound pieces → width index = bound)
    (h : Levelled width (margin.after line).levels more) :
    Levelled width margin.levels (margin.tokens index terminated line ++ more) := by
  cases line with
  | blank | comment => exact h
  | code bound pieces =>
    have hbound := hwidth bound pieces rfl
    have hended : Levelled width (levelsAfter margin.levels bound)
        ((if terminated then [⟨.newline, index⟩] else []) ++ more) := by
      cases terminated <;> exact h
    have htext : Levelled width (levelsAfter margin.levels bound) (textTokens index pieces ++
        ((if terminated then [⟨.newline, index⟩] else []) ++ more)) := by
      refine levelled_of_visible (fun token hmem => ?_) hended
      obtain ⟨hvisible, rfl⟩ := isVisible_of_mem_textTokens hmem
      exact ⟨hvisible, hbound.trans (headD_levelsAfter margin.levels bound).symm⟩
    have hgap : Levelled width (levelsAfter margin.levels bound)
        ((if margin.spacing = .spaced then [⟨.newline, index⟩] else []) ++
          (textTokens index pieces ++
            ((if terminated then [⟨.newline, index⟩] else []) ++ more))) := by
      split <;> exact htext
    rw [tokens_code]
    simp only [List.append_assoc]
    refine levelled_closed ?_
    rw [levelsAfter] at hgap
    split
    · next hopens =>
      rw [if_pos hopens] at hgap
      rw [opens, decide_eq_true_eq] at hopens
      exact ⟨by rwa [hbound], by rwa [hbound]⟩
    · next hopens =>
      rwa [if_neg hopens] at hgap

end Margin

-- ════════════════════════════════════════════════════════════════════════
-- A source text
-- ════════════════════════════════════════════════════════════════════════

theorem Margin.levelled_closing (margin : Margin) (line : Nat) :
    Levelled width margin.levels (margin.closing index ++ [Token.endOfInput line]) := by
  obtain ⟨levels, spacing⟩ := margin
  induction levels with
  | nil => exact ⟨rfl, rfl⟩
  | cons level levels ih => exact ⟨List.cons_ne_nil level levels, ih⟩

/-- Lines take the levels above them to none, if the widths are known. -/
theorem levelled_scanLines {margin : Margin} {lines : List Line} (line : Nat) (hne : lines ≠ [])
    (hwidth : ∀ offset bound pieces,
      lines[offset]? = some (.code bound pieces) → width (index + offset) = bound) :
    Levelled width margin.levels (scanLines margin index lines ++ [Token.endOfInput line]) := by
  fun_induction scanLines margin index lines with
  | case1 => exact absurd rfl hne
  | case2 margin index last =>
    rw [List.append_assoc]
    refine Margin.levelled_tokens (fun bound pieces hlast => ?_) (Margin.levelled_closing _ line)
    exact hwidth 0 bound pieces (congrArg some hlast)
  | case3 margin index first next more ih =>
    rw [List.append_assoc]
    refine Margin.levelled_tokens (fun bound pieces hfirst => ?_) (ih (by simp) ?_)
    · exact hwidth 0 bound pieces (congrArg some hfirst)
    · intro offset bound pieces hoffset
      rw [Nat.add_assoc, Nat.add_comm 1 offset]
      exact hwidth (offset + 1) bound pieces hoffset

/-- The width of a line with code is that of the blanks in front, with or without its comment. -/
theorem Line.width_ofGlyphs {gs : List Glyph} {bound : Nat} {pieces : List Lexeme}
    (h : Line.ofGlyphs gs = .code bound pieces) : (gs.takeWhile (· = .blank)).length = bound := by
  rw [Line.ofGlyphs] at h
  split at h
  · split at h <;> cases h
  · obtain ⟨rfl, -⟩ := Line.code.inj h
    rw [List.takeWhile_takeWhile]
    congr 2
    funext glyph
    by_cases hglyph : glyph = .blank <;> simp [hglyph]

/-- The width of a line with code is the one that the scanner works with. -/
theorem lineWidth_of_getElem? {source : String} {bound : Nat} {pieces : List Lexeme}
    (h : (sourceLines source)[index]? = some (.code bound pieces)) :
    lineWidth source index = bound := by
  rw [sourceLines, List.getElem?_map, Option.map_eq_some_iff] at h
  obtain ⟨gs, hgs, hcode⟩ := h
  rw [lineWidth, List.getD_eq_getElem?_getD, hgs]
  exact Line.width_ofGlyphs hcode

/-- The tokens of a source text follow the widths of its lines. -/
theorem levelled_toList (source : String) :
    Levelled (lineWidth source) [] (TokenStream.ofSource source).toList := by
  have hstart : Margin.initial.levels = [] := rfl
  rw [← hstart]
  refine levelled_scanLines (endLine source) (sourceLines_ne_nil source) ?_
  intro offset bound pieces hline
  rw [Nat.zero_add]
  exact lineWidth_of_getElem? hline

-- ════════════════════════════════════════════════════════════════════════
-- Balance
-- ════════════════════════════════════════════════════════════════════════

namespace Levelled

/-- Behind some of the tokens those levels are open that were open at first or opened on the way,
    and have not been closed. -/
theorem exists_levels {front : List Token} (h : Levelled width levels (front ++ more)) :
    ∃ left, Levelled width left more ∧ front.countP (·.kind = .dedent) + left.length =
      levels.length + front.countP (·.kind = .indent) := by
  induction front generalizing levels with
  | nil => exact ⟨levels, h, Nat.add_comm ..⟩
  | cons token front ih =>
    obtain ⟨kind, line⟩ := token
    cases kind with
    | indent =>
      obtain ⟨left, hleft, hcount⟩ := ih h.2
      refine ⟨left, hleft, ?_⟩
      rw [List.length_cons] at hcount
      simp only [List.countP_cons, reduceCtorEq, decide_false, decide_true, Bool.false_eq_true,
        if_false, if_true]
      omega
    | dedent =>
      obtain ⟨left, hleft, hcount⟩ := ih h.2
      have hopen := List.length_pos_iff.mpr h.1
      refine ⟨left, hleft, ?_⟩
      rw [List.length_tail] at hcount
      simp only [List.countP_cons, reduceCtorEq, decide_false, decide_true, Bool.false_eq_true,
        if_false, if_true]
      omega
    | newline => simpa using ih h
    | _ => simpa using ih h.2

/-- No more levels are closed than are open at first or opened on the way. -/
theorem count_dedent_le {front : List Token} (h : Levelled width levels (front ++ more)) :
    front.countP (·.kind = .dedent) ≤ levels.length + front.countP (·.kind = .indent) := by
  obtain ⟨left, -, hcount⟩ := h.exists_levels
  omega

/-- In the end all levels are closed, those that were open at first and those that were opened. -/
theorem count_dedent (h : Levelled width levels tokens) :
    tokens.countP (·.kind = .dedent) = levels.length + tokens.countP (·.kind = .indent) := by
  rw [← List.append_nil tokens] at h
  obtain ⟨left, hleft, hcount⟩ := h.exists_levels
  obtain rfl : left = [] := hleft
  exact hcount

end Levelled

end Karel
