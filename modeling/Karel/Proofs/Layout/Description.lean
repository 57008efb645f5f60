import Karel.Proofs.Layout.Cuts
import Karel.Proofs.Layout.OpenWidths
import Karel.Proofs.Layout.RawLine

/-!
# Tokens without a scanner state

The tokens of a source text can be told line by line, from a line and the lines above it, with no
state that is carried along. The scanner, which carries its margin from line to line, yields just
these tokens, because its margin is a function of the lines above.

## Main definitions

- `RawLine.tokens` — the tokens of one of some lines
- `describedTokens` — the tokens of a source text
- `Margin.Tracks` — a margin that is the one below given lines

## Main results

- `Margin.Tracks.after`, `Margin.Tracks.below` — lines take the margin above them to the one below
- `toList_eq_describedTokens` — the scanner yields the tokens that are described
-/

namespace Karel

namespace RawLine

/-- The widths of the lines with code. -/
def widths (lines : List (List UInt8)) : List Nat :=
  (lines.filter isLogical).map width

/-- There is a line with code above, and a blank line below the last one of those. -/
def hasGap (above : List (List UInt8)) : Bool :=
  above.any isLogical && (above.reverse.takeWhile fun line => !isLogical line).any isBlank

/-- The tokens of one of some lines, the first of which has the index zero. -/
def tokens (lines : List (List UInt8)) (index : Nat) : List Token :=
  let line := lines.getD index []
  let above := lines.take index
  let isOpen := openWidths (widths above)
  if isLogical line then
    List.replicate (isOpen.filter (width line < ·)).card ⟨.dedent, index⟩
      ++ (if width line ∈ isOpen then [] else [⟨.indent, index⟩])
      ++ (if hasGap above then [⟨.newline, index⟩] else [])
      ++ textTokens index (lexemes ((code line).map Glyph.ofByte))
      ++ (if index + 1 < lines.length then [⟨.newline, index⟩] else [])
  else []

end RawLine

/-- The tokens of a source text: those of its lines, then one `dedent` for each width that is open
    behind the last line, zero apart, and the end of the input. -/
def describedTokens (source : String) : List Token :=
  let lines := byteLines source
  let last := lines.length - 1
  (List.range lines.length).flatMap (RawLine.tokens lines)
    ++ List.replicate ((openWidths (RawLine.widths lines)).card - 1) ⟨.dedent, last⟩
    ++ [Token.endOfInput last]

namespace Margin

open RawLine

/-- A margin that is the one below the given lines: its levels are the open widths, and its spacing
    tells whether there is a gap. -/
structure Tracks (margin : Margin) (above : List (List UInt8)) : Prop where
  stack : IsStackOf margin.levels (widths above)
  leading : margin.spacing = .leading ↔ above.any isLogical = false
  spaced : margin.spacing = .spaced ↔ hasGap above = true

namespace Tracks

variable {margin : Margin} {above : List (List UInt8)} {line : List UInt8}

theorem initial : Tracks Margin.initial [] where
  stack := isStackOf_nil
  leading := by simp [Margin.initial]
  spaced := by simp [Margin.initial, hasGap]

theorem widths_concat_of_not (h : isLogical line = false) :
    widths (above ++ [line]) = widths above := by
  simp [widths, h]

theorem widths_concat (h : isLogical line = true) :
    widths (above ++ [line]) = widths above ++ [width line] := by
  simp [widths, h]

theorem hasGap_concat (h : isLogical line = true) : hasGap (above ++ [line]) = false := by
  simp [hasGap, h]

/-- A line without code opens a gap if it is blank and there is code above, or keeps the gap. -/
theorem hasGap_concat_of_not (h : isLogical line = false) :
    hasGap (above ++ [line]) = (above.any isLogical && RawLine.isBlank line || hasGap above) := by
  simp [hasGap, h, Bool.and_or_distrib_left]

/-- A line takes the margin above it to the margin below it. -/
theorem after (h : Tracks margin above) (line : List UInt8) :
    Tracks (margin.after (toLine line)) (above ++ [line]) := by
  cases hlogical : isLogical line with
  | true =>
    obtain ⟨pieces, hline, -⟩ := toLine_of_isLogical hlogical
    rw [hline]
    refine ⟨?_, ?_, ?_⟩
    · rw [widths_concat hlogical]
      exact h.stack.levelsAfter (width line)
    · simp [Margin.after, hlogical]
    · simp [Margin.after, hasGap_concat hlogical]
  | false =>
    cases hblank : RawLine.isBlank line with
    | true =>
      rw [toLine_of_isBlank hblank]
      refine ⟨?_, ?_, ?_⟩
      · rw [widths_concat_of_not hlogical]
        exact h.stack
      · by_cases hleading : margin.spacing = .leading
        · simpa [Margin.after, hleading, hlogical] using h.leading
        · simpa [Margin.after, hleading, hlogical] using h.leading
      · -- a blank line opens a gap only below a line with code
        rw [hasGap_concat_of_not hlogical, hblank, Bool.and_true]
        by_cases hleading : margin.spacing = .leading
        · have hnone := h.leading.mp hleading
          simp [Margin.after, hleading, hnone, hasGap]
        · have hsome : above.any isLogical = true := by
            rw [← Bool.not_eq_false]
            exact mt h.leading.mpr hleading
          simp [Margin.after, hleading, hsome]
    | false =>
      rw [toLine_of_not hlogical hblank]
      refine ⟨?_, ?_, ?_⟩
      · rw [widths_concat_of_not hlogical]
        exact h.stack
      · simpa [Margin.after, hlogical] using h.leading
      · simpa [Margin.after, hasGap_concat_of_not hlogical, hblank] using h.spaced

/-- Lines take the margin above them to the margin below them. -/
theorem below (h : Tracks margin above) (lines : List (List UInt8)) :
    Tracks (margin.below (lines.map toLine)) (above ++ lines) := by
  induction lines generalizing margin above with
  | nil => rwa [List.append_nil]
  | cons line lines ih =>
    have hlines := ih (h.after line)
    rwa [List.append_assoc] at hlines

theorem tokens_eq (h : Tracks margin above) (line : List UInt8) (below : List (List UInt8)) :
    margin.tokens above.length (!below.isEmpty) (toLine line) =
      RawLine.tokens (above ++ line :: below) above.length := by
  have hline : (above ++ line :: below).getD above.length [] = line := by simp
  have habove : (above ++ line :: below).take above.length = above := by simp
  have hended : above.length + 1 < (above ++ line :: below).length ↔ (!below.isEmpty) = true := by
    cases below <;> simp
  simp only [RawLine.tokens, hline, habove, hended]
  cases hlogical : isLogical line with
  | true =>
    obtain ⟨pieces, hcode, htext⟩ := toLine_of_isLogical hlogical
    -- each of the five parts of the line is the part that is described
    rw [hcode, tokens_code, htext, h.stack.length_closed, if_pos rfl]
    simp only [h.stack.opens_iff, h.spaced, ite_not]
  | false =>
    cases hblank : RawLine.isBlank line with
    | true => rw [toLine_of_isBlank hblank]; rfl
    | false => rw [toLine_of_not hlogical hblank]; rfl

end Tracks

end Margin

open RawLine Margin in
/-- From a margin that tracks the lines above, the lines below yield the tokens described. -/
theorem scanLines_eq (below : List (List UInt8)) (line : List UInt8) {margin : Margin}
    {above : List (List UInt8)} (h : Tracks margin above) :
    scanLines margin above.length ((line :: below).map toLine) =
      (List.range' above.length (below.length + 1)).flatMap
        (RawLine.tokens (above ++ line :: below)) ++
      List.replicate ((openWidths (widths (above ++ line :: below))).card - 1)
        ⟨.dedent, above.length + below.length⟩ := by
  induction below generalizing line margin above with
  | nil =>
    have htokens := h.tokens_eq line []
    rw [← (h.after line).stack.length_eq]
    simp only [List.map_cons, List.map_nil, scanLines, closing, List.length_nil, Nat.zero_add,
      List.range'_one, List.flatMap_cons, List.flatMap_nil, List.append_nil, Nat.add_zero]
    rw [← htokens, List.map_const']
    rfl
  | cons next below ih =>
    have htokens : margin.tokens above.length true (toLine line) =
        RawLine.tokens (above ++ line :: next :: below) above.length :=
      h.tokens_eq line (next :: below)
    have hrest := ih next (h.after line)
    rw [List.length_append, List.length_singleton, List.append_assoc, List.singleton_append,
      List.map_cons] at hrest
    have hrange : List.range' above.length ((next :: below).length + 1) =
        above.length :: List.range' (above.length + 1) (below.length + 1) :=
      List.range'_succ
    have hlast : above.length + (next :: below).length = above.length + 1 + below.length := by
      rw [List.length_cons]
      omega
    rw [List.map_cons, List.map_cons, scanLines, htokens, hrest, hrange, List.flatMap_cons, hlast,
      List.append_assoc]

theorem toList_ofSource (source : String) :
    (TokenStream.ofSource source).toList = describedTokens source := by
  have hlines := sourceLines_eq_map source
  have hlast : endLine source = (byteLines source).length - 1 := by
    rw [endLine, hlines, List.length_map]
  have hscan : (TokenStream.ofSource source).toList =
      scanLines Margin.initial 0 ((byteLines source).map RawLine.toLine) ++
        [Token.endOfInput ((byteLines source).length - 1)] := by
    rw [← hlast, ← hlines]
    rfl
  have hne : byteLines source ≠ [] := List.splitOn_ne_nil _ _
  rw [hscan, describedTokens]
  generalize byteLines source = lines at hne ⊢
  cases lines with
  | nil => exact absurd rfl hne
  | cons line below =>
    have hbelow := scanLines_eq below line Margin.Tracks.initial
    rw [List.length_nil, List.nil_append, Nat.zero_add] at hbelow
    rw [hbelow, List.range_eq_range', List.length_cons, Nat.add_sub_cancel]

/-- The scanner yields the tokens that are described. In each prefix of them there are at least as
    many `indent` as `dedent` tokens, in the end there are as many, and the end of the input is the
    last token and no other. -/
theorem toList_eq_describedTokens (source : String) :
    (TokenStream.ofSource source).toList = describedTokens source ∧
    (∀ front, front <+: describedTokens source →
      front.countP (·.kind = .dedent) ≤ front.countP (·.kind = .indent)) ∧
    (describedTokens source).countP (·.kind = .indent) =
      (describedTokens source).countP (·.kind = .dedent) ∧
    ∃ front last, describedTokens source = front ++ [last] ∧ last.kind = .eof ∧
      ∀ token ∈ front, token.kind ≠ .eof := by
  have hlevelled := levelled_toList source
  rw [toList_ofSource] at hlevelled
  refine ⟨toList_ofSource source, ?_, ?_, ?_⟩
  · rintro front ⟨more, hfront⟩
    rw [← hfront] at hlevelled
    simpa using hlevelled.count_dedent_le
  · simpa using hlevelled.count_dedent.symm
  · rw [← toList_ofSource]
    exact ⟨scan source, _, rfl, rfl, fun _ hmem => kind_ne_eof_of_mem_scan hmem⟩

end Karel
