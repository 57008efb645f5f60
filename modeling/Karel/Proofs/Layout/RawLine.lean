import Mathlib.Data.List.TakeWhile
import Karel.Layout
import Karel.Proofs.Lexemes
import Karel.Proofs.Layout.Kinds

/-!
# Lines as bytes

What a line of a source text is can be told from its bytes, without glyphs: it has code if
something is left when its comment and all white is taken away. A carriage return at the end of a
line belongs to the way in which lines are ended, so it is taken away first.

## Main definitions

- `byteLines` — the lines of a source text as bytes
- `RawLine.isLogical`, `RawLine.isBlank`, `RawLine.width`, `RawLine.code` — what a line is

## Main results

- `sourceLines_eq_map` — the lines of a source text are those of its bytes
- `RawLine.toLine_of_isLogical` and its companions — the line that some bytes make
-/

namespace Karel

/-- The lines of a source text as bytes, without the line feeds that end them. -/
def byteLines (source : String) : List (List UInt8) :=
  (source.toList.flatMap String.utf8EncodeChar).splitOn 10

namespace RawLine

/-- A line without the carriage return at its end, if there is one. -/
def withoutReturn (line : List UInt8) : List UInt8 :=
  if line.getLast? = some 13 then line.dropLast else line

/-- The part of a line before its first `#`. -/
def code (line : List UInt8) : List UInt8 :=
  (withoutReturn line).takeWhile (· ≠ 35)

/-- A space, a tab, a carriage return or a form feed. -/
def isWhite (byte : UInt8) : Bool :=
  byte = 32 ∨ byte = 9 ∨ byte = 13 ∨ byte = 12

/-- A line has code if there is more than white before its first `#`. -/
def isLogical (line : List UInt8) : Bool :=
  (code line).any fun byte => !isWhite byte

/-- A blank line is white and has no comment. -/
def isBlank (line : List UInt8) : Bool :=
  (withoutReturn line).all isWhite

/-- The number of spaces and tabs in front of a line. -/
def width (line : List UInt8) : Nat :=
  ((code line).takeWhile fun byte => byte = 32 ∨ byte = 9).length

/-- The line that some bytes make. -/
def toLine (line : List UInt8) : Line :=
  Line.ofGlyphs (line.map Glyph.ofByte)

end RawLine

-- ════════════════════════════════════════════════════════════════════════
-- Bytes and glyphs
-- ════════════════════════════════════════════════════════════════════════

namespace Glyph

theorem ofByte_eq_newline_iff {byte : UInt8} : ofByte byte = .newline ↔ byte = 10 := by
  rw [← UInt8.toNat_inj]
  simp only [ofByte, ofCode]
  grind

theorem ofByte_eq_hash_iff {byte : UInt8} : ofByte byte = .hash ↔ byte = 35 := by
  rw [← UInt8.toNat_inj]
  simp only [ofByte, ofCode]
  grind

theorem ofByte_eq_blank_iff {byte : UInt8} : ofByte byte = .blank ↔ byte = 32 ∨ byte = 9 := by
  rw [← UInt8.toNat_inj, ← UInt8.toNat_inj]
  simp only [ofByte, ofCode]
  grind

theorem isWhite_ofByte (byte : UInt8) : (ofByte byte).isWhite = RawLine.isWhite byte := by
  rw [Bool.eq_iff_iff, RawLine.isWhite, decide_eq_true_eq]
  simp only [← UInt8.toNat_inj, ofByte, ofCode]
  grind [isWhite]

end Glyph

-- ════════════════════════════════════════════════════════════════════════
-- Lines
-- ════════════════════════════════════════════════════════════════════════

theorem splitLines_cons (glyph : Glyph) (gs : List Glyph) :
    splitLines (glyph :: gs) =
      if glyph = .newline then [] :: splitLines gs
      else (splitLines gs).modifyHead (glyph :: ·) := by
  cases glyph <;> rfl

theorem splitLines_map_ofByte (bytes : List UInt8) :
    splitLines (bytes.map Glyph.ofByte) = (bytes.splitOn 10).map (List.map Glyph.ofByte) := by
  induction bytes with
  | nil => rfl
  | cons byte bytes ih =>
    rw [List.map_cons, splitLines_cons, List.splitOn_cons_eq_if_modifyHead, ih]
    by_cases hbyte : byte = 10
    · rw [if_pos (Glyph.ofByte_eq_newline_iff.mpr hbyte), if_pos (by simpa using hbyte)]
      rfl
    · rw [if_neg (mt Glyph.ofByte_eq_newline_iff.mp hbyte), if_neg (by simpa using hbyte)]
      cases bytes.splitOn 10 <;> rfl

theorem sourceLines_eq_map (source : String) :
    sourceLines source = (byteLines source).map RawLine.toLine := by
  rw [sourceLines, glyphs, splitLines_map_ofByte, List.map_map]
  rfl

namespace RawLine

variable {line : List UInt8}

/-- A line is what is left of it without a carriage return, with or without one behind it. -/
theorem eq_withoutReturn (line : List UInt8) :
    line = withoutReturn line ∨ line = withoutReturn line ++ [13] := by
  rw [withoutReturn]
  split
  · next hlast =>
    obtain ⟨front, rfl⟩ := List.getLast?_eq_some_iff.mp hlast
    exact .inr (by simp)
  · exact .inl rfl

/-- The part of a line before its comment is its code, with or without the carriage return. -/
theorem takeWhile_eq_code (line : List UInt8) :
    line.takeWhile (· ≠ 35) = code line ∨ line.takeWhile (· ≠ 35) = code line ++ [13] := by
  have hline := eq_withoutReturn line
  rw [code]
  generalize withoutReturn line = front at hline ⊢
  rcases hline with rfl | rfl
  · exact .inl rfl
  · rw [List.takeWhile_append]
    split
    · next hlength =>
      have hfront : front.takeWhile (· ≠ 35) = front :=
        (List.takeWhile_prefix _).eq_of_length hlength
      exact .inr (by rw [hfront]; rfl)
    · exact .inl rfl

theorem mem_withoutReturn_iff (line : List UInt8) : 35 ∈ withoutReturn line ↔ 35 ∈ line := by
  have hline := eq_withoutReturn line
  generalize withoutReturn line = front at hline ⊢
  rcases hline with rfl | rfl <;> simp

theorem takeWhile_map_ofByte (line : List UInt8) :
    (line.map Glyph.ofByte).takeWhile (· ≠ .hash) =
      (line.takeWhile (· ≠ 35)).map Glyph.ofByte := by
  rw [List.takeWhile_map]
  congr 2
  funext byte
  simp [Glyph.ofByte_eq_hash_iff]

theorem isLogical_eq_false_iff :
    isLogical line = false ↔
      ((line.map Glyph.ofByte).takeWhile (· ≠ .hash)).all Glyph.isWhite = true := by
  rw [takeWhile_map_ofByte, isLogical, List.any_eq_not_all_not, Bool.not_eq_false']
  rcases takeWhile_eq_code line with hcode | hcode <;> rw [hcode] <;>
    simp [Glyph.isWhite_ofByte, isWhite]

theorem isBlank_iff : isBlank line = true ↔ isLogical line = false ∧ 35 ∉ line := by
  rw [← mem_withoutReturn_iff, isBlank, isLogical, List.any_eq_not_all_not, Bool.not_eq_false',
    code]
  generalize withoutReturn line = front
  simp only [Bool.not_not]
  constructor
  · intro hwhite
    have hhash : 35 ∉ front := fun hmem => by
      have h35 := List.all_eq_true.mp hwhite 35 hmem
      revert h35
      decide
    refine ⟨?_, hhash⟩
    exact List.all_eq_true.mpr fun byte hmem =>
      List.all_eq_true.mp hwhite byte ((List.takeWhile_sublist _).subset hmem)
  · rintro ⟨hwhite, hhash⟩
    rwa [List.takeWhile_eq_self_iff.mpr] at hwhite
    intro byte hmem
    simp only [ne_eq, decide_not, Bool.not_eq_eq_eq_not, Bool.not_true, decide_eq_false_iff_not]
    rintro rfl
    exact hhash hmem

theorem takeWhile_append_cons_of_not {α : Type} {p : α → Bool} {stop : α} (h : p stop = false)
    (front more : List α) : (front ++ stop :: more).takeWhile p = front.takeWhile p := by
  induction front with
  | nil => simp [h]
  | cons head front ih =>
    rw [List.cons_append, List.takeWhile_cons, List.takeWhile_cons, ih]

/-- The blanks in front of a line are those in front of its code. -/
theorem length_takeWhile_blank (line : List UInt8) :
    (((line.takeWhile (· ≠ 35)).map Glyph.ofByte).takeWhile (· = .blank)).length =
      width line := by
  have hblank : (fun byte => decide (byte = 32 ∨ byte = 9)) =
      (fun glyph => decide (glyph = Glyph.blank)) ∘ Glyph.ofByte := by
    funext byte
    simp [Glyph.ofByte_eq_blank_iff]
  rw [List.takeWhile_map, List.length_map, ← hblank, width]
  rcases takeWhile_eq_code line with hcode | hcode
  · rw [hcode]
  · rw [hcode, takeWhile_append_cons_of_not (by decide)]

/-- A carriage return becomes no token. -/
theorem textTokens_concat_return (index : Nat) (gs : List Glyph) :
    textTokens index (lexemes (gs ++ [.padding])) = textTokens index (lexemes gs) := by
  rw [lexemes_append rfl, textTokens, List.filterMap_append, List.map_append]
  exact List.append_nil _

/-- A line with code is as wide as its code, and its text becomes the tokens of its code. -/
theorem toLine_of_isLogical (h : isLogical line = true) :
    ∃ pieces, toLine line = .code (width line) pieces ∧ ∀ index,
      textTokens index pieces = textTokens index (lexemes ((code line).map Glyph.ofByte)) := by
  have hnot : ¬ ((line.map Glyph.ofByte).takeWhile (· ≠ .hash)).all Glyph.isWhite = true :=
    fun hwhite => Bool.false_ne_true ((isLogical_eq_false_iff.mpr hwhite).symm.trans h)
  refine ⟨lexemes ((line.takeWhile (· ≠ 35)).map Glyph.ofByte), ?_, fun index => ?_⟩
  · rw [toLine, Line.ofGlyphs, if_neg hnot, takeWhile_map_ofByte, length_takeWhile_blank]
  · rcases takeWhile_eq_code line with hcode | hcode
    · rw [hcode]
    · rw [hcode, List.map_append]
      exact textTokens_concat_return index _

theorem toLine_of_isBlank (h : isBlank line = true) : toLine line = .blank := by
  obtain ⟨hwhite, hhash⟩ := isBlank_iff.mp h
  rw [toLine, Line.ofGlyphs, if_pos (isLogical_eq_false_iff.mp hwhite), if_neg]
  rw [List.mem_map]
  rintro ⟨byte, hmem, hbyte⟩
  exact hhash (Glyph.ofByte_eq_hash_iff.mp hbyte ▸ hmem)

/-- A line without code that is not blank is a lone comment. -/
theorem toLine_of_not (h : isLogical line = false) (hblank : isBlank line = false) :
    toLine line = .comment := by
  have hhash : 35 ∈ line := by
    by_contra hnot
    exact Bool.false_ne_true (hblank.symm.trans (isBlank_iff.mpr ⟨h, hnot⟩))
  rw [toLine, Line.ofGlyphs, if_pos (isLogical_eq_false_iff.mp h), if_pos]
  exact List.mem_map.mpr ⟨35, hhash, rfl⟩

end RawLine

end Karel
