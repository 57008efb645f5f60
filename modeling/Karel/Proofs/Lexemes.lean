import Karel.Lexeme

/-!
# Cutting a line in two

A glyph that is part of no word and no number keeps what stands before it apart from what stands
behind it. So a line may be cut before such a glyph, and its lexemes are those of the two parts.

## Main definitions

- `Lexeme.IsApart` — a piece that joins with nothing before it

## Main results

- `lexemes_append` — the lexemes of a line that is cut before a separating glyph
- `filterMap_kind?_lexemes_append` — glyphs that are part of no token
-/

namespace Karel

/-- A piece that joins with no letter or digit before it. -/
def Lexeme.IsApart : Lexeme → Prop
  | colon | skipped _ => True
  | word _ | number _ => False

variable {piece : Lexeme} {first rest : List Lexeme}

/-- A letter in front does not reach beyond a piece that stands apart. -/
theorem Lexeme.consLetter_append (h : piece.IsApart) (char : Char) :
    consLetter char (first ++ piece :: rest) = consLetter char first ++ piece :: rest := by
  rcases first with _ | ⟨_ | _ | _ | _, _ | ⟨_ | _ | _ | _, _⟩⟩
  all_goals cases piece <;> first | rfl | cases h

theorem Lexeme.consDigit_append (h : piece.IsApart) (char : Char) :
    consDigit char (first ++ piece :: rest) = consDigit char first ++ piece :: rest := by
  rcases first with _ | ⟨_ | _ | _ | _, _⟩
  all_goals cases piece <;> first | rfl | cases h

theorem lexemes_letter (char : Char) (gs : List Glyph) :
    lexemes (.letter char :: gs) = Lexeme.consLetter char (lexemes gs) :=
  rfl

theorem lexemes_digit (char : Char) (gs : List Glyph) :
    lexemes (.digit char :: gs) = Lexeme.consDigit char (lexemes gs) :=
  rfl

/-- A glyph that is part of no word is a piece of its own, which stands apart. -/
theorem exists_lexemes_cons {glyph : Glyph} (h : glyph.isWordGlyph = false) :
    ∃ piece : Lexeme, piece.IsApart ∧ ∀ gs, lexemes (glyph :: gs) = piece :: lexemes gs := by
  cases glyph with
  | letter | digit => cases h
  | colon => exact ⟨.colon, trivial, fun _ => rfl⟩
  | _ => exact ⟨.skipped _, trivial, fun _ => rfl⟩

/-- A line that is cut before a glyph that is part of no word has the lexemes of both parts. -/
theorem lexemes_append {glyph : Glyph} (h : glyph.isWordGlyph = false) (gs more : List Glyph) :
    lexemes (gs ++ glyph :: more) = lexemes gs ++ lexemes (glyph :: more) := by
  obtain ⟨piece, hpiece, hcons⟩ := exists_lexemes_cons h
  induction gs with
  | nil => rfl
  | cons head gs ih =>
    rw [hcons] at ih ⊢
    cases hhead : head.isWordGlyph with
    | false =>
      obtain ⟨first, -, hfirst⟩ := exists_lexemes_cons hhead
      rw [List.cons_append, hfirst, hfirst, ih, List.cons_append]
    | true =>
      cases head with
      | letter char =>
        rw [List.cons_append, lexemes_letter, lexemes_letter, ih, Lexeme.consLetter_append hpiece]
      | digit char =>
        rw [List.cons_append, lexemes_digit, lexemes_digit, ih, Lexeme.consDigit_append hpiece]
      | _ => cases hhead

theorem Glyph.isWordGlyph_of_isWhite {glyph : Glyph} (h : glyph.isWhite = true) :
    glyph.isWordGlyph = false := by
  cases glyph with
  | blank | padding => rfl
  | _ => cases h

/-- Glyphs that are part of no token may be taken away in front of a line. -/
theorem filterMap_kind?_lexemes_append {gs : List Glyph}
    (h : ∀ glyph ∈ gs, glyph.isWordGlyph = false ∧ glyph ≠ .colon) (more : List Glyph) :
    (lexemes (gs ++ more)).filterMap Lexeme.kind? = (lexemes more).filterMap Lexeme.kind? := by
  induction gs with
  | nil => rfl
  | cons glyph gs ih =>
    obtain ⟨⟨hword, hcolon⟩, hgs⟩ := List.forall_mem_cons.mp h
    cases glyph with
    | letter | digit => cases hword
    | colon => exact absurd rfl hcolon
    | _ => exact ih hgs

/-- White becomes no tokens. -/
theorem filterMap_kind?_lexemes_white {white : List Glyph}
    (h : white.all Glyph.isWhite = true) : (lexemes white).filterMap Lexeme.kind? = [] := by
  have hskipped : ∀ glyph ∈ white, glyph.isWordGlyph = false ∧ glyph ≠ .colon := by
    intro glyph hmem
    have hwhite := List.all_eq_true.mp h glyph hmem
    refine ⟨Glyph.isWordGlyph_of_isWhite hwhite, ?_⟩
    rintro rfl
    cases hwhite
  have hlexemes := filterMap_kind?_lexemes_append hskipped []
  rwa [List.append_nil] at hlexemes

end Karel
