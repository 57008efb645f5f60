/-!
# Glyphs

A Karel program is a sequence of bytes, and a byte matters only through its part in the
language: it ends a line, indents, pads, opens a comment, is punctuation, or belongs to a word
or a number. `Glyph` names these parts.

## Main definitions

- `Glyph` — what one byte of a program means to the scanner
- `glyphs` — the glyphs of a source text
- `splitLines` — the lines of a glyph sequence

## Design notes

All bytes of a character outside ASCII are at least 128, and those mean nothing to the language.
So no word, number or comment mark ever begins or ends inside a character.
-/

namespace Karel

/-- The part that one byte of a program plays in the language. -/
inductive Glyph where
  /-- The end of a line. -/
  | newline
  /-- A space or a tab: at the start of a line it counts as indentation. -/
  | blank
  /-- A carriage return or a form feed: white, but never indentation. -/
  | padding
  /-- The mark that opens a comment. -/
  | hash
  /-- The mark that closes the header of a compound statement. -/
  | colon
  /-- A decimal digit. -/
  | digit (char : Char)
  /-- An ASCII letter or an underscore. -/
  | letter (char : Char)
  /-- Anything the language has no use for. -/
  | other
  deriving DecidableEq, Repr

namespace Glyph

/-- The glyph of a character code. -/
def ofCode (code : Nat) : Glyph :=
  if code = 10 then .newline
  else if code = 32 ∨ code = 9 then .blank
  else if code = 13 ∨ code = 12 then .padding
  else if code = 35 then .hash
  else if code = 58 then .colon
  else if 48 ≤ code ∧ code ≤ 57 then .digit (Char.ofNat code)
  else if (65 ≤ code ∧ code ≤ 90) ∨ (97 ≤ code ∧ code ≤ 122) ∨ code = 95 then
    .letter (Char.ofNat code)
  else .other

/-- The glyph of a character, which is `other` for every character outside ASCII. -/
def ofChar (char : Char) : Glyph :=
  ofCode char.toNat

/-- The glyph of one byte of a UTF-8 text. -/
def ofByte (byte : UInt8) : Glyph :=
  ofCode byte.toNat

/-- A glyph that leaves a line empty to the eye. -/
def isWhite : Glyph → Bool
  | blank | padding => true
  | _ => false

end Glyph

/-- The glyphs of a source text, one for each byte of its UTF-8 form. -/
def glyphs (source : String) : List Glyph :=
  (source.toList.flatMap String.utf8EncodeChar).map Glyph.ofByte

/-- The lines of a glyph sequence, without the glyphs that end them. There is always one: the
    empty sequence is a single empty line, and so is what follows a final `newline`. -/
def splitLines : List Glyph → List (List Glyph)
  | [] => [[]]
  | .newline :: rest => [] :: splitLines rest
  | glyph :: rest => (splitLines rest).modifyHead (glyph :: ·)

/-- A line split yields at least one line. -/
theorem splitLines_ne_nil (gs : List Glyph) : splitLines gs ≠ [] := by
  fun_induction splitLines gs <;> simp_all [List.modifyHead_eq_nil_iff]

end Karel
