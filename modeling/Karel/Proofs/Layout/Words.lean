import Mathlib.Tactic.SplitIfs
import Karel.Proofs.Layout.RawLine
import Karel.Proofs.SourceText.Headers

/-!
# Words

Whatever bytes a source text has, an identifier in it is a name: it begins with a letter, goes on
with letters and digits, and is not reserved.

## Main definitions

- `IsIdentifier` — names by their characters
- `Lexeme.IsSpelled` — a piece with characters that its kind may have

## Main results

- `isName_iff_isIdentifier` — the check of a name by its glyphs
- `isSpelled_of_mem_lexemes` — the pieces of a line
- `isName_of_mem_scan` — the identifiers of a source text
-/

namespace Karel

/-- A letter or an underscore, then letters, digits and underscores, and no reserved word. The
    letters and digits are those of ASCII. -/
def IsIdentifier (name : String) : Prop :=
  (∃ first rest, name.toList = first :: rest ∧ (first.isAlpha = true ∨ first = '_') ∧
    ∀ char ∈ rest, char.isAlphanum = true ∨ char = '_') ∧
  ∀ reserved : Keyword, name ≠ reserved.text

-- ════════════════════════════════════════════════════════════════════════
-- Glyphs of characters
-- ════════════════════════════════════════════════════════════════════════

namespace Glyph

variable {char : Char}

theorem isAlpha_iff_toNat : char.isAlpha = true ↔
    (65 ≤ char.toNat ∧ char.toNat ≤ 90) ∨ (97 ≤ char.toNat ∧ char.toNat ≤ 122) := by
  have hupper : char.isUpper = true ↔ 65 ≤ char.toNat ∧ char.toNat ≤ 90 := decide_eq_true_iff
  have hlower : char.isLower = true ↔ 97 ≤ char.toNat ∧ char.toNat ≤ 122 := by
    show (decide (97 ≤ char.toNat) && decide (char.toNat ≤ 122)) = true ↔ _
    rw [Bool.and_eq_true, decide_eq_true_eq, decide_eq_true_eq]
  show (char.isUpper || char.isLower) = true ↔ _
  rw [Bool.or_eq_true, hupper, hlower]

theorem ofChar_eq_letter_iff :
    ofChar char = .letter char ↔ char.isAlpha = true ∨ char = '_' := by
  rw [isAlpha_iff_toNat, ← Char.toNat_inj, ofChar, ofCode, Char.ofNat_toNat]
  grind

theorem isWordGlyph_ofChar_iff :
    (ofChar char).isWordGlyph = true ↔ char.isAlphanum = true ∨ char = '_' := by
  rw [Char.isAlphanum, Bool.or_eq_true, isAlpha_iff_toNat, Char.isDigit_iff_toNat,
    ← Char.toNat_inj, ofChar, ofCode, Char.ofNat_toNat]
  grind [isWordGlyph]

/-- A letter or a digit that is the glyph of its own character. -/
def IsSelf (glyph : Glyph) : Prop :=
  ∀ char, glyph = .letter char ∨ glyph = .digit char → ofChar char = glyph

theorem isSelf_ofByte (byte : UInt8) : (ofByte byte).IsSelf := by
  have hbyte := byte.toNat_lt
  have hvalid : Nat.isValidChar byte.toNat := .inl (by omega)
  have hcode : (Char.ofNat byte.toNat).toNat = byte.toNat := by
    rw [Char.ofNat, dif_pos hvalid]
    rfl
  intro char h
  have hchar : char = Char.ofNat byte.toNat := by
    rw [ofByte, ofCode] at h
    split_ifs at h <;> simp_all
  rw [hchar, ofChar, hcode]
  rfl

end Glyph

theorem ofText?_eq_none_iff {name : String} :
    Keyword.ofText? name = none ↔ ∀ reserved : Keyword, name ≠ reserved.text := by
  have hall (reserved : Keyword) : reserved ∈ Keyword.all := by
    cases reserved <;> decide
  simp only [Keyword.ofText?, List.find?_eq_none, beq_iff_eq]
  constructor
  · intro h reserved heq
    exact h reserved (hall reserved) heq.symm
  · intro h reserved _ heq
    exact h reserved heq.symm

/-- The check of a name by its glyphs is one of its characters. -/
theorem isName_iff_isIdentifier {name : String} : isName name = true ↔ IsIdentifier name := by
  rw [IsIdentifier, ← ofText?_eq_none_iff]
  constructor
  · intro h
    obtain ⟨first, rest, hname, hfirst, hrest, hreserved⟩ := exists_of_isName h
    refine ⟨⟨first, rest, hname, Glyph.ofChar_eq_letter_iff.mp hfirst, ?_⟩, hreserved⟩
    exact fun char hmem => Glyph.isWordGlyph_ofChar_iff.mp (hrest char hmem)
  · rintro ⟨⟨first, rest, hname, hfirst, hrest⟩, hreserved⟩
    have hglyphs : (rest.map Glyph.ofChar).all Glyph.isWordGlyph = true := by
      rw [List.all_eq_true, List.forall_mem_map]
      exact fun char hmem => Glyph.isWordGlyph_ofChar_iff.mpr (hrest char hmem)
    rw [isName, hname, List.map_cons, Glyph.ofChar_eq_letter_iff.mpr hfirst]
    show ((rest.map Glyph.ofChar).all Glyph.isWordGlyph && (Keyword.ofText? name).isNone) = true
    rw [hglyphs, hreserved]
    rfl

-- ════════════════════════════════════════════════════════════════════════
-- Pieces of a line
-- ════════════════════════════════════════════════════════════════════════

/-- A piece with characters that its kind may have. -/
def Lexeme.IsSpelled : Lexeme → Prop
  | word text => ∃ first rest, text = first :: rest ∧ Glyph.ofChar first = .letter first ∧
      ∀ char ∈ rest, (Glyph.ofChar char).isWordGlyph = true
  | number digits => ∀ char ∈ digits, Glyph.ofChar char = .digit char
  | colon | skipped _ => True

variable {pieces : List Lexeme} {piece : Lexeme} {gs : List Glyph} {char : Char}

theorem Lexeme.IsSpelled.isWordGlyph_of_word {text : List Char} (h : (word text).IsSpelled) :
    ∀ char ∈ text, (Glyph.ofChar char).isWordGlyph = true := by
  obtain ⟨first, rest, rfl, hfirst, hrest⟩ := h
  rw [List.forall_mem_cons, hfirst]
  exact ⟨rfl, hrest⟩

theorem Lexeme.IsSpelled.isWordGlyph_of_number {digits : List Char}
    (h : (number digits).IsSpelled) :
    ∀ char ∈ digits, (Glyph.ofChar char).isWordGlyph = true := by
  intro char hmem
  rw [h char hmem]
  rfl

/-- A letter keeps the pieces spelled, whatever it takes in. -/
theorem Lexeme.isSpelled_consLetter (hchar : Glyph.ofChar char = .letter char)
    (h : ∀ piece ∈ pieces, piece.IsSpelled) :
    ∀ piece ∈ consLetter char pieces, piece.IsSpelled := by
  fun_cases consLetter char pieces with
  | case1 digits text rest =>
    simp only [List.forall_mem_cons] at h ⊢
    refine ⟨⟨char, digits ++ text, rfl, hchar, fun other hmem => ?_⟩, h.2.2⟩
    rcases List.mem_append.mp hmem with hmem | hmem
    · exact h.1.isWordGlyph_of_number other hmem
    · exact h.2.1.isWordGlyph_of_word other hmem
  | case2 digits rest =>
    rw [List.forall_mem_cons] at h ⊢
    exact ⟨⟨char, digits, rfl, hchar, h.1.isWordGlyph_of_number⟩, h.2⟩
  | case3 text rest =>
    rw [List.forall_mem_cons] at h ⊢
    exact ⟨⟨char, text, rfl, hchar, h.1.isWordGlyph_of_word⟩, h.2⟩
  | case4 =>
    rw [List.forall_mem_cons]
    exact ⟨⟨char, [], rfl, hchar, by simp⟩, h⟩

theorem Lexeme.isSpelled_consDigit (hchar : Glyph.ofChar char = .digit char)
    (h : ∀ piece ∈ pieces, piece.IsSpelled) :
    ∀ piece ∈ consDigit char pieces, piece.IsSpelled := by
  fun_cases consDigit char pieces with
  | case1 digits rest =>
    rw [List.forall_mem_cons] at h ⊢
    exact ⟨List.forall_mem_cons.mpr ⟨hchar, h.1⟩, h.2⟩
  | case2 =>
    rw [List.forall_mem_cons]
    exact ⟨List.forall_mem_singleton.mpr hchar, h⟩

/-- The pieces of a line are spelled as their kinds demand. -/
theorem isSpelled_of_mem_lexemes (h : ∀ glyph ∈ gs, glyph.IsSelf) :
    ∀ piece ∈ lexemes gs, piece.IsSpelled := by
  induction gs with
  | nil =>
    intro piece hmem
    cases hmem
  | cons glyph gs ih =>
    obtain ⟨hglyph, hgs⟩ := List.forall_mem_cons.mp h
    cases glyph with
    | letter char => exact Lexeme.isSpelled_consLetter (hglyph char (.inl rfl)) (ih hgs)
    | digit char => exact Lexeme.isSpelled_consDigit (hglyph char (.inr rfl)) (ih hgs)
    | _ => exact List.forall_mem_cons.mpr ⟨trivial, ih hgs⟩

/-- A word that is spelled as a word is a name, unless it is reserved. -/
theorem Lexeme.IsSpelled.isName_of_kind? {name : String} (h : piece.IsSpelled)
    (hkind : piece.kind? = some (.identifier name)) : isName name = true := by
  cases piece with
  | number digits | colon | skipped glyph => cases hkind
  | word text =>
    obtain ⟨first, rest, rfl, hfirst, hrest⟩ := h
    have hword : TokenKind.ofWord (String.ofList (first :: rest)) = .identifier name :=
      Option.some.inj hkind
    rw [TokenKind.ofWord] at hword
    split at hword
    · cases hword
    · next hreserved =>
      obtain rfl := TokenKind.identifier.inj hword
      rw [isName_iff_isIdentifier, IsIdentifier, ← ofText?_eq_none_iff, String.toList_ofList]
      refine ⟨⟨first, rest, rfl, Glyph.ofChar_eq_letter_iff.mp hfirst, ?_⟩, hreserved⟩
      exact fun char hmem => Glyph.isWordGlyph_ofChar_iff.mp (hrest char hmem)

-- ════════════════════════════════════════════════════════════════════════
-- Identifiers of a source text
-- ════════════════════════════════════════════════════════════════════════

variable {lines : List Line} {margin : Margin} {index : Nat} {token : Token}

/-- A token that shows comes from a piece of its line. -/
theorem Margin.exists_piece_of_mem_tokens {terminated : Bool} {line : Line}
    (h : token ∈ margin.tokens index terminated line) (hvisible : token.kind.isVisible = true) :
    ∃ width pieces, line = .code width pieces ∧
      ∃ piece ∈ pieces, piece.kind? = some token.kind := by
  cases line with
  | blank | comment => cases h
  | code width pieces =>
    refine ⟨width, pieces, rfl, ?_⟩
    rw [Margin.tokens_code_eq_layoutTokens_append] at h
    rcases List.mem_append.mp h with h | h
    · rw [Margin.isVisible_of_mem_layoutTokens h] at hvisible
      cases hvisible
    · rcases List.mem_append.mp h with h | h
      · obtain ⟨kind, hkind, rfl⟩ := List.mem_map.mp h
        exact List.mem_filterMap.mp hkind
      · rw [List.mem_ite_nil_right, List.mem_singleton] at h
        rw [h.2] at hvisible
        cases hvisible

theorem exists_piece_of_mem_scanLines (h : token ∈ scanLines margin index lines)
    (hvisible : token.kind.isVisible = true) :
    ∃ width pieces, .code width pieces ∈ lines ∧
      ∃ piece ∈ pieces, piece.kind? = some token.kind := by
  fun_induction scanLines margin index lines with
  | case1 => cases h
  | case2 margin index line =>
    rcases List.mem_append.mp h with h | h
    · obtain ⟨width, pieces, rfl, hpiece⟩ := Margin.exists_piece_of_mem_tokens h hvisible
      exact ⟨width, pieces, List.mem_singleton_self _, hpiece⟩
    · obtain ⟨_, _, rfl⟩ := List.mem_map.mp h
      cases hvisible
  | case3 margin index line next more ih =>
    rcases List.mem_append.mp h with h | h
    · obtain ⟨width, pieces, rfl, hpiece⟩ := Margin.exists_piece_of_mem_tokens h hvisible
      exact ⟨width, pieces, List.mem_cons_self, hpiece⟩
    · obtain ⟨width, pieces, hmem, hpiece⟩ := ih h
      exact ⟨width, pieces, List.mem_cons_of_mem line hmem, hpiece⟩

/-- The pieces of a line of a source text are spelled as their kinds demand. -/
theorem isSpelled_of_mem_sourceLines {source : String} {width : Nat}
    (h : .code width pieces ∈ sourceLines source) : ∀ piece ∈ pieces, piece.IsSpelled := by
  rw [sourceLines_eq_map] at h
  obtain ⟨line, -, hline⟩ := List.mem_map.mp h
  rw [RawLine.toLine, Line.ofGlyphs] at hline
  split at hline
  · split at hline <;> cases hline
  · obtain ⟨-, rfl⟩ := Line.code.inj hline
    refine isSpelled_of_mem_lexemes fun glyph hmem => ?_
    obtain ⟨byte, -, rfl⟩ := List.mem_map.mp ((List.takeWhile_sublist _).subset hmem)
    exact Glyph.isSelf_ofByte byte

/-- The identifiers of a source text are names. -/
theorem isName_of_mem_scan {source name : String} {line : Nat}
    (h : ⟨.identifier name, line⟩ ∈ scan source) : isName name = true := by
  obtain ⟨width, pieces, hmem, piece, hpiece, hkind⟩ := exists_piece_of_mem_scanLines h rfl
  exact (isSpelled_of_mem_sourceLines hmem piece hpiece).isName_of_kind? hkind

end Karel
