import Karel.Proofs.Layout.Words

/-!
# Lines as characters

The scanner reads bytes, but its lines can be told from characters as well. Each byte of a character
outside ASCII is at least 128, so it ends no line, opens no comment and belongs to no word.

## Main definitions

- `charLines` — the lines of a source text as characters
- `charGlyphs` — the glyphs of some characters

## Main results

- `eq_ofChar_of_mem_charGlyphs` — the glyphs of a character
- `sourceLines_eq_map_charGlyphs` — the lines of a source text are those of its characters
-/

namespace Karel

/-- The lines of a source text as characters, without the line feeds that end them. -/
def charLines (source : String) : List (List Char) :=
  source.toList.splitOn '\n'

/-- The glyphs of some characters, one for each byte of their UTF-8 form. -/
def charGlyphs (chars : List Char) : List Glyph :=
  (chars.flatMap String.utf8EncodeChar).map Glyph.ofByte

variable {char : Char} {chars : List Char} {glyph : Glyph} {gs : List Glyph}

-- ════════════════════════════════════════════════════════════════════════
-- Characters
-- ════════════════════════════════════════════════════════════════════════

theorem Glyph.ofChar_eq_newline_iff : ofChar char = .newline ↔ char = '\n' := by
  rw [← Char.toNat_inj, ofChar, ofCode]
  grind

theorem Glyph.ofChar_eq_hash_iff : ofChar char = .hash ↔ char = '#' := by
  rw [← Char.toNat_inj, ofChar, ofCode]
  grind

theorem charGlyphs_cons (char : Char) (chars : List Char) :
    charGlyphs (char :: chars) = charGlyphs [char] ++ charGlyphs chars := by
  simp [charGlyphs]

theorem charGlyphs_append (chars more : List Char) :
    charGlyphs (chars ++ more) = charGlyphs chars ++ charGlyphs more := by
  simp [charGlyphs]

/-- The bytes of a character outside ASCII are large. -/
theorem le_toNat_of_mem_utf8EncodeChar (hchar : 128 ≤ char.toNat) :
    ∀ byte ∈ String.utf8EncodeChar char, 128 ≤ byte.toNat := by
  intro byte hmem
  simp only [String.utf8EncodeChar] at hmem
  split_ifs at hmem with hone
  all_goals simp only [List.mem_cons, List.not_mem_nil, or_false] at hmem
  · have hcode : char.toNat ≤ 127 := hone
    omega
  · rcases hmem with rfl | rfl <;> rw [UInt8.toNat_ofNat'] <;> omega
  · rcases hmem with rfl | rfl | rfl <;> rw [UInt8.toNat_ofNat'] <;> omega
  · rcases hmem with rfl | rfl | rfl | rfl <;> rw [UInt8.toNat_ofNat'] <;> omega

theorem Glyph.ofCode_of_le {code : Nat} (h : 128 ≤ code) : ofCode code = .other := by
  rw [ofCode]
  grind

/-- All glyphs of a character are the one that its code has. -/
theorem eq_ofChar_of_mem_charGlyphs (h : glyph ∈ charGlyphs [char]) :
    glyph = Glyph.ofChar char := by
  by_cases hascii : char.toNat < 128
  · rw [charGlyphs, map_ofByte_utf8EncodeChar (by simpa using hascii)] at h
    exact List.mem_singleton.mp h
  · rw [not_lt] at hascii
    rw [charGlyphs, List.flatMap_singleton] at h
    obtain ⟨byte, hbyte, rfl⟩ := List.mem_map.mp h
    rw [Glyph.ofChar, Glyph.ofCode_of_le hascii]
    exact Glyph.ofCode_of_le (le_toNat_of_mem_utf8EncodeChar hascii byte hbyte)

theorem charGlyphs_singleton_ne_nil (char : Char) : charGlyphs [char] ≠ [] := by
  simp [charGlyphs]

/-- The first of the glyphs of some characters is that of the first character. -/
theorem eq_ofChar_of_mem_head?_charGlyphs (h : glyph ∈ (charGlyphs (char :: chars)).head?) :
    glyph = Glyph.ofChar char := by
  obtain ⟨first, rest, hchar⟩ := List.exists_cons_of_ne_nil (charGlyphs_singleton_ne_nil char)
  rw [charGlyphs_cons, hchar] at h
  obtain rfl := Option.some.inj h
  exact eq_ofChar_of_mem_charGlyphs (hchar ▸ List.mem_cons_self)

-- ════════════════════════════════════════════════════════════════════════
-- Lines
-- ════════════════════════════════════════════════════════════════════════

theorem splitLines_append_of_not_mem (h : .newline ∉ gs) (more : List Glyph) :
    splitLines (gs ++ more) = (splitLines more).modifyHead (gs ++ ·) := by
  induction gs with
  | nil => exact (congrFun List.modifyHead_id _).symm
  | cons glyph gs ih =>
    rw [List.mem_cons, not_or] at h
    rw [List.cons_append, splitLines_cons, if_neg (Ne.symm h.1), ih h.2, List.modifyHead_modifyHead]
    rfl

/-- A text has the same lines if it is split into characters first. -/
theorem splitLines_charGlyphs (chars : List Char) :
    splitLines (charGlyphs chars) = (chars.splitOn '\n').map charGlyphs := by
  induction chars with
  | nil => rfl
  | cons char chars ih =>
    rw [List.splitOn_cons_eq_if_modifyHead, charGlyphs_cons]
    by_cases hchar : char = '\n'
    · rw [if_pos (by simpa using hchar), hchar, List.map_cons, ← ih]
      rfl
    · have hnot : .newline ∉ charGlyphs [char] := fun hmem =>
        hchar (Glyph.ofChar_eq_newline_iff.mp (eq_ofChar_of_mem_charGlyphs hmem).symm)
      rw [if_neg (by simpa using hchar), splitLines_append_of_not_mem hnot, ih]
      cases chars.splitOn '\n' with
      | nil => rfl
      | cons line lines =>
        rw [List.map_cons, List.modifyHead_cons, List.modifyHead_cons, List.map_cons,
          charGlyphs_cons char line]

theorem sourceLines_eq_map_charGlyphs (source : String) :
    sourceLines source = (charLines source).map fun line => Line.ofGlyphs (charGlyphs line) := by
  have hlines : splitLines (glyphs source) = (charLines source).map charGlyphs :=
    splitLines_charGlyphs source.toList
  rw [sourceLines, hlines, List.map_map]
  rfl

/-- A comment begins with the first `#` among the characters. -/
theorem takeWhile_charGlyphs (line : List Char) :
    (charGlyphs line).takeWhile (· ≠ .hash) = charGlyphs (line.takeWhile (· ≠ '#')) := by
  induction line with
  | nil => rfl
  | cons char line ih =>
    rw [charGlyphs_cons]
    by_cases hchar : char = '#'
    · rw [hchar]
      rfl
    · have hnot : ∀ glyph ∈ charGlyphs [char], decide (glyph ≠ .hash) = true := by
        intro glyph hmem
        rw [eq_ofChar_of_mem_charGlyphs hmem, decide_eq_true_eq]
        exact mt Glyph.ofChar_eq_hash_iff.mp hchar
      rw [List.takeWhile_append_of_pos hnot, ih, List.takeWhile_cons_of_pos (by simpa using hchar),
        ← charGlyphs_cons]

end Karel
