import Karel.Layout

/-!
# Tokens of a line

A scanned token either shows on its line or stands for a part of the layout. The end of the input
is no token of a line.

## Main definitions

- `TokenKind.isVisible` — a token with a text of its own
- `textTokens` — the visible tokens of a line
- `Line.indent` — a line with further blanks in front
- `Token.mapLine` — a token on another line

## Main results

- `Line.ofGlyphs_replicate_append` — the line of some glyphs with blanks in front
- `Margin.tokens_code` — the five parts of what a line with code contributes
- `isVisible_of_mem_textTokens` — the text of a line becomes visible tokens
- `kind_ne_eof_of_mem_scan` — scanning never yields the end of the input
-/

namespace Karel

/-- A token that shows on its line: a word, a number or a colon. -/
def TokenKind.isVisible : TokenKind → Bool
  | identifier _ | number _ | colon | keyword _ => true
  | newline | indent | dedent | eof => false

theorem TokenKind.isVisible_ofWord (word : String) : (ofWord word).isVisible = true := by
  rw [ofWord]
  split <;> rfl

theorem Lexeme.isVisible_of_kind? {piece : Lexeme} {kind : TokenKind}
    (h : piece.kind? = some kind) : kind.isVisible = true := by
  cases piece with
  | word text =>
    obtain rfl := Option.some.inj h
    exact TokenKind.isVisible_ofWord _
  | number digits | colon =>
    obtain rfl := Option.some.inj h
    rfl
  | skipped glyph => cases h

/-- A token with a function applied to its line. -/
def Token.mapLine (moved : Nat → Nat) (token : Token) : Token :=
  { token with line := moved token.line }

/-- The tokens that the pieces of a line become. -/
def textTokens (index : Nat) (pieces : List Lexeme) : List Token :=
  (pieces.filterMap Lexeme.kind?).map fun kind => { kind, line := index }

/-- The text of a line becomes visible tokens on that line. -/
theorem isVisible_of_mem_textTokens {index : Nat} {pieces : List Lexeme} {token : Token}
    (h : token ∈ textTokens index pieces) : token.kind.isVisible = true ∧ token.line = index := by
  obtain ⟨kind, hkind, rfl⟩ := List.mem_map.mp h
  obtain ⟨piece, -, hpiece⟩ := List.mem_filterMap.mp hkind
  exact ⟨Lexeme.isVisible_of_kind? hpiece, rfl⟩

/-- A line with further blanks in front. -/
def Line.indent (width : Nat) : Line → Line
  | blank => blank
  | comment => comment
  | code inner pieces => code (width + inner) (List.replicate width (.skipped .blank) ++ pieces)

theorem Line.ofGlyphs_blank_cons (gs : List Glyph) :
    ofGlyphs (.blank :: gs) = (ofGlyphs gs).indent 1 := by
  have htext : (Glyph.blank :: gs).takeWhile (· ≠ .hash) = .blank :: gs.takeWhile (· ≠ .hash) :=
    List.takeWhile_cons_of_pos (by simp)
  have hhash : .hash ∈ Glyph.blank :: gs ↔ .hash ∈ gs := by simp
  simp only [ofGlyphs, htext, hhash, List.all_cons, Glyph.isWhite, Bool.true_and]
  split
  · split <;> rfl
  · rw [List.takeWhile_cons_of_pos (by simp), indent, Nat.add_comm]
    rfl

/-- Blanks in front of some glyphs put their line in by as many columns. -/
theorem Line.ofGlyphs_replicate_append (width : Nat) (gs : List Glyph) :
    ofGlyphs (List.replicate width .blank ++ gs) = (ofGlyphs gs).indent width := by
  induction width with
  | zero =>
    rw [List.replicate_zero, List.nil_append]
    cases ofGlyphs gs with
    | blank | comment => rfl
    | code inner pieces => rw [indent, Nat.zero_add, List.replicate_zero, List.nil_append]
  | succ width ih =>
    rw [List.replicate_succ, List.cons_append, ofGlyphs_blank_cons, ih]
    cases ofGlyphs gs with
    | blank | comment => rfl
    | code inner pieces =>
      rw [indent, indent, indent, Nat.add_right_comm, Nat.add_comm, Nat.add_assoc]
      rfl

/-- Blanks in front of the pieces of a line become no tokens. -/
theorem filterMap_kind?_indent (width : Nat) (pieces : List Lexeme) :
    (List.replicate width (Lexeme.skipped .blank) ++ pieces).filterMap Lexeme.kind? =
      pieces.filterMap Lexeme.kind? := by
  induction width with
  | zero => rfl
  | succ width ih => exact ih

namespace Margin

/-- A line with code closes levels, may open one, may tell of a gap above it, has its text, and is
    ended if a further line follows. -/
theorem tokens_code (margin : Margin) (index : Nat) (terminated : Bool) (width : Nat)
    (pieces : List Lexeme) :
    margin.tokens index terminated (.code width pieces) =
      List.replicate (closed margin.levels width).length ⟨.dedent, index⟩
        ++ (if opens margin.levels width then [⟨.indent, index⟩] else [])
        ++ (if margin.spacing = .spaced then [⟨.newline, index⟩] else [])
        ++ textTokens index pieces
        ++ (if terminated then [⟨.newline, index⟩] else []) := by
  simp only [tokens, kinds, List.map_append, apply_ite (List.map _), List.map_map, List.map_cons,
    List.map_nil, textTokens]
  rw [← List.map_const']
  rfl

/-- The tokens in front of the text of a line with code. -/
def layoutTokens (margin : Margin) (index width : Nat) : List Token :=
  List.replicate (closed margin.levels width).length ⟨.dedent, index⟩
    ++ (if opens margin.levels width then [⟨.indent, index⟩] else [])
    ++ (if margin.spacing = .spaced then [⟨.newline, index⟩] else [])

theorem tokens_code_eq_layoutTokens_append (margin : Margin) (index : Nat) (terminated : Bool)
    (width : Nat) (pieces : List Lexeme) :
    margin.tokens index terminated (.code width pieces) =
      margin.layoutTokens index width ++
        (textTokens index pieces ++ if terminated then [⟨.newline, index⟩] else []) := by
  rw [tokens_code, layoutTokens, List.append_assoc]

theorem isVisible_of_mem_layoutTokens {margin : Margin} {index width : Nat} {token : Token}
    (h : token ∈ margin.layoutTokens index width) : token.kind.isVisible = false := by
  simp only [layoutTokens, List.mem_append, List.mem_replicate, List.mem_ite_nil_right,
    List.mem_singleton] at h
  rcases h with (⟨-, rfl⟩ | ⟨-, rfl⟩) | ⟨-, rfl⟩
  all_goals rfl

variable {margin : Margin} {line : Line} {terminated : Bool} {index : Nat}

theorem kind_ne_eof_of_mem_tokens {token : Token}
    (h : token ∈ margin.tokens index terminated line) : token.kind ≠ .eof := by
  cases line with
  | blank | comment => cases h
  | code width pieces =>
    simp only [tokens_code, List.mem_append, List.mem_replicate, List.mem_ite_nil_right,
      List.mem_singleton] at h
    rcases h with (((⟨-, rfl⟩ | ⟨-, rfl⟩) | ⟨-, rfl⟩) | htext) | ⟨-, rfl⟩
    · simp
    · simp
    · simp
    · intro heof
      have hvisible := (isVisible_of_mem_textTokens htext).1
      rw [heof] at hvisible
      cases hvisible
    · simp

end Margin

theorem kind_ne_eof_of_mem_scanLines {margin : Margin} {index : Nat} {lines : List Line}
    {token : Token} (h : token ∈ scanLines margin index lines) : token.kind ≠ .eof := by
  fun_induction scanLines margin index lines with
  | case1 => cases h
  | case2 margin index line =>
    rcases List.mem_append.mp h with h | h
    · exact Margin.kind_ne_eof_of_mem_tokens h
    · obtain ⟨_, _, rfl⟩ := List.mem_map.mp h
      simp
  | case3 margin index line next more ih =>
    rcases List.mem_append.mp h with h | h
    · exact Margin.kind_ne_eof_of_mem_tokens h
    · exact ih h

/-- Scanning a source text never yields the end of the input. -/
theorem kind_ne_eof_of_mem_scan {source : String} {token : Token} (h : token ∈ scan source) :
    token.kind ≠ .eof :=
  kind_ne_eof_of_mem_scanLines h

end Karel
