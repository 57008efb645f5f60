import Karel.Proofs.Layout.Reindentation
import Karel.Proofs.Layout.Slices

/-!
# Scanning by bytes

The scanner takes a source text as bytes. Wherever it cuts a line, it cuts between two characters,
all that it keeps is ASCII, and it finds the same tokens as a scanner that takes whole characters
and has no use for those outside ASCII.

## Main definitions

- `dropReturn` — a line without the carriage return at its end
- `Slice.Shows` — a slice that is cut out properly and becomes a token
- `characterLines` — the lines of a source text with one glyph for each character

## Main results

- `code_charBytes`, `width_charBytes` — the code of a line and its width
- `forall₂_shows_slicesFrom` — the slices of a line
- `toNat_lt_of_mem_text` — the texts of the tokens
- `toList_eq_of_characterLines` — the tokens of the characters
- `scanning_cuts_between_characters` — all of this for a source text
-/

namespace Karel

/-- A line without the carriage return at its end, if there is one. -/
def dropReturn (line : List Char) : List Char :=
  if line.getLast? = some '\r' then line.dropLast else line

/-- A slice is cut out of a line between characters, and what it holds becomes a token. -/
structure Slice.Shows (code : List Char) (slice : Slice) (token : Token) : Prop where
  lt : slice.start < slice.stop
  le : slice.stop ≤ (charBytes code).length
  isBoundary_start : IsBoundary code slice.start
  isBoundary_stop : IsBoundary code slice.stop
  exists_text : ∃ text,
    charBytes text = ((charBytes code).take slice.stop).drop slice.start ∧
      token.kind = slice.shape.kind text

/-- The lines of a source text if each character is one glyph. -/
def characterLines (source : String) : List Line :=
  (splitLines (source.toList.map Glyph.ofChar)).map Line.ofGlyphs

variable {source : String} {line chars front rest code : List Char} {char : Char} {byte : UInt8}
  {index : Nat} {slice : Slice} {token : Token} {shape : Shape} {first : Char}

-- ════════════════════════════════════════════════════════════════════════
-- The code of a line
-- ════════════════════════════════════════════════════════════════════════

/-- A byte of ASCII is a character of its own. -/
theorem toNat_eq_of_mem_charBytes (hbyte : byte.toNat < 128) (h : byte ∈ charBytes [char]) :
    char.toNat = byte.toNat := by
  rw [charBytes, List.flatMap_singleton] at h
  rcases Nat.lt_or_ge char.toNat 128 with hchar | hchar
  · have hbytes : String.utf8EncodeChar char = [UInt8.ofNat char.toNat] :=
      if_pos (Nat.lt_succ_iff.mp hchar)
    rw [hbytes, List.mem_singleton] at h
    rw [h, UInt8.toNat_ofNat', Nat.mod_eq_of_lt (by omega)]
  · have hlarge := le_toNat_of_mem_utf8EncodeChar hchar byte h
    omega

theorem eq_iff_of_mem_charBytes {ascii : Char} {code : UInt8} (hascii : ascii.toNat < 128)
    (hcode : code.toNat = ascii.toNat) (h : byte ∈ charBytes [char]) :
    byte = code ↔ char = ascii := by
  rw [← Char.toNat_inj, ← hcode]
  constructor
  · rintro rfl
    exact toNat_eq_of_mem_charBytes (hcode ▸ hascii) h
  · intro hchar
    have hbytes : charBytes [char] = [UInt8.ofNat char.toNat] := by
      rw [charBytes, List.flatMap_singleton]
      exact if_pos (Nat.lt_succ_iff.mp (hchar.trans_lt (hcode ▸ hascii)))
    rw [hbytes, List.mem_singleton] at h
    rw [h, hchar, UInt8.ofNat_toNat]

/-- The bytes of a line without its carriage return are those of its characters without it. -/
theorem withoutReturn_charBytes (line : List Char) :
    RawLine.withoutReturn (charBytes line) = charBytes (dropReturn line) := by
  rcases List.eq_nil_or_concat' line with rfl | ⟨front, last, rfl⟩
  · rfl
  · have hne := charBytes_singleton_ne_nil last
    have hlast : (charBytes [last]).getLast hne = 13 ↔ last = '\r' :=
      eq_iff_of_mem_charBytes (by decide) (by decide) (List.getLast_mem hne)
    have hsome : (charBytes (front ++ [last])).getLast? = some 13 ↔
        (front ++ [last]).getLast? = some '\r' := by
      rw [charBytes_append, List.getLast?_append_of_ne_nil _ hne, List.getLast?_eq_some_getLast hne,
        List.getLast?_concat, Option.some_inj, Option.some_inj, hlast]
    rw [RawLine.withoutReturn, dropReturn]
    by_cases hreturn : (front ++ [last]).getLast? = some '\r'
    · rw [if_pos hreturn, if_pos (hsome.mpr hreturn), charBytes_append, List.dropLast_concat]
      rw [List.getLast?_concat, Option.some_inj] at hreturn
      rw [hreturn]
      exact List.dropLast_concat
    · rw [if_neg hreturn, if_neg (mt hsome.mp hreturn)]

/-- A line is cut at its first `#`. -/
theorem takeWhile_hash_charBytes (line : List Char) :
    (charBytes line).takeWhile (· ≠ 35) = charBytes (line.takeWhile (· ≠ '#')) := by
  apply takeWhile_charBytes
  intro char byte hmem
  rw [decide_eq_decide]
  exact not_congr (eq_iff_of_mem_charBytes (by decide) (by decide) hmem)

theorem code_charBytes (line : List Char) :
    RawLine.code (charBytes line) = charBytes ((dropReturn line).takeWhile (· ≠ '#')) := by
  rw [RawLine.code, withoutReturn_charBytes, takeWhile_hash_charBytes]

/-- A space or a tab. -/
def isBlankChar (char : Char) : Bool :=
  char = ' ' ∨ char = '\t'

theorem isBlankChar_eq (h : byte ∈ charBytes [char]) :
    decide (byte = 32 ∨ byte = 9) = isBlankChar char := by
  rw [isBlankChar, decide_eq_decide]
  exact or_congr (eq_iff_of_mem_charBytes (by decide) (by decide) h)
    (eq_iff_of_mem_charBytes (by decide) (by decide) h)

theorem isShown_of_isBlankChar (h : isBlankChar char = true) : isShown char = false := by
  rcases of_decide_eq_true h with rfl | rfl <;> rfl

/-- A line is as wide as the blank characters in front of its code are long. -/
theorem width_charBytes (line : List Char) :
    RawLine.width (charBytes line) =
      (charBytes (((dropReturn line).takeWhile (· ≠ '#')).takeWhile isBlankChar)).length := by
  rw [RawLine.width, code_charBytes, takeWhile_charBytes fun char byte => isBlankChar_eq]

theorem filterMap_kind?_lexemes_append_of_not_isShown
    (h : ∀ char ∈ front, isShown char = false) (rest : List Char) :
    (lexemes (charGlyphs (front ++ rest))).filterMap Lexeme.kind? =
      (lexemes (charGlyphs rest)).filterMap Lexeme.kind? := by
  induction front with
  | nil => rfl
  | cons char front ih =>
    obtain ⟨hchar, hfront⟩ := List.forall_mem_cons.mp h
    rw [List.cons_append, filterMap_kind?_lexemes_of_not_isShown hchar, ih hfront]

/-- The tokens that show on a line are those of its code, without a carriage return. -/
theorem shownTokens_eq_of_dropReturn (hline : (charLines source)[index]? = some line) :
    shownTokens source index =
      textTokens index (lexemes (charGlyphs ((dropReturn line).takeWhile (· ≠ '#')))) := by
  have hglyphs (chars : List Char) : charGlyphs chars = (charBytes chars).map Glyph.ofByte := rfl
  rw [shownTokens_eq hline, hglyphs, hglyphs, ← takeWhile_hash_charBytes, ← code_charBytes]
  rcases RawLine.takeWhile_eq_code (charBytes line) with hcode | hcode
  · rw [hcode]
  · rw [hcode, List.map_append]
    exact RawLine.textTokens_concat_return index _

theorem Slice.IsText.shows {kind : TokenKind} (h : slice.IsText code kind) (line : Nat) :
    slice.Shows code ⟨kind, line⟩ := by
  obtain ⟨front, text, behind, rfl, hmatches, hstart, hstop, rfl⟩ := h
  constructor
  · obtain ⟨first, rest, rfl⟩ := hmatches.exists_cons
    have hpos := List.length_pos_of_ne_nil (charBytes_singleton_ne_nil first)
    rw [hstart, hstop, charBytes_append, charBytes_cons, List.length_append, List.length_append]
    omega
  · rw [hstop, charBytes_append (front ++ text), List.length_append]
    exact Nat.le_add_right _ _
  · exact isBoundary_iff.mpr ⟨front, text ++ behind, List.append_assoc .., hstart⟩
  · exact isBoundary_iff.mpr ⟨front ++ text, behind, rfl, hstop⟩
  · refine ⟨text, ?_, rfl⟩
    rw [hstart, hstop, charBytes_append (front ++ text), List.take_left, charBytes_append front,
      List.drop_left]

/-- The slices of a line of a source text are the texts of the tokens that show on it. -/
theorem forall₂_shows_slicesFrom (hline : (charLines source)[index]? = some line) :
    List.Forall₂ (Slice.Shows ((dropReturn line).takeWhile (· ≠ '#')))
      (slicesFrom (RawLine.code (charBytes line)) (RawLine.width (charBytes line)))
      (shownTokens source index) := by
  rw [shownTokens_eq_of_dropReturn hline, code_charBytes, width_charBytes, textTokens,
    List.forall₂_map_right_iff]
  generalize (dropReturn line).takeWhile (· ≠ '#') = code
  have hblank : ∀ char ∈ code.takeWhile isBlankChar, isShown char = false :=
    fun char hmem => isShown_of_isBlankChar (List.mem_takeWhile_imp hmem)
  have hslices := forall₂_isText_slicesFrom (code.takeWhile isBlankChar)
    (code.dropWhile isBlankChar)
  rw [← filterMap_kind?_lexemes_append_of_not_isShown hblank, List.takeWhile_append_dropWhile]
    at hslices
  exact hslices.imp fun slice kind h => h.shows index

-- ════════════════════════════════════════════════════════════════════════
-- Texts of tokens
-- ════════════════════════════════════════════════════════════════════════

/-- The text of a token is ASCII. -/
theorem toNat_lt_of_mem_text {text : String} (h : token ∈ (TokenStream.ofSource source).toList)
    (htext : token.kind.text? = some text) : ∀ char ∈ text.toList, char.toNat < 128 := by
  rcases List.mem_append.mp h with h | h
  · have hvisible : token.kind.isVisible = true := by
      cases hkind : token.kind with
      | newline | indent | dedent | eof =>
        rw [hkind] at htext
        cases htext
      | _ => rfl
    obtain ⟨width, pieces, hline, piece, hpiece, hkind⟩ :=
      exists_piece_of_mem_scanLines h hvisible
    have hspelled := isSpelled_of_mem_sourceLines hline piece hpiece
    have hascii {chars : List Char}
        (hchars : ∀ char ∈ chars, (Glyph.ofChar char).isWordGlyph = true)
        (hsome : some (String.ofList chars) = some text) :
        ∀ char ∈ text.toList, char.toNat < 128 := by
      rw [← Option.some.inj hsome, String.toList_ofList]
      exact fun char hmem => Glyph.toNat_lt_of_isWordGlyph (hchars char hmem)
    cases piece with
    | word chars =>
      rw [← Option.some.inj hkind, TokenKind.text?_ofWord] at htext
      exact hascii hspelled.isWordGlyph_of_word htext
    | number digits =>
      rw [← Option.some.inj hkind] at htext
      exact hascii hspelled.isWordGlyph_of_number htext
    | colon =>
      rw [← Option.some.inj hkind] at htext
      have hcolon : text.toList = [':'] := by rw [← Option.some.inj htext]; rfl
      rw [hcolon, List.forall_mem_singleton]
      decide
    | skipped glyph => cases hkind
  · obtain rfl := List.mem_singleton.mp h
    cases htext

-- ════════════════════════════════════════════════════════════════════════
-- Scanning by characters
-- ════════════════════════════════════════════════════════════════════════

theorem filterMap_kind?_lexemes_map_of_not_isShown (hchar : isShown char = false) :
    (lexemes ((char :: rest).map Glyph.ofChar)).filterMap Lexeme.kind? =
      (lexemes (rest.map Glyph.ofChar)).filterMap Lexeme.kind? := by
  have hnot := mt isShown_iff.mpr (Bool.not_eq_true _ ▸ hchar)
  rw [not_or, Bool.not_eq_true] at hnot
  have hskipped : ∀ glyph ∈ [Glyph.ofChar char],
      glyph.isWordGlyph = false ∧ glyph ≠ .colon := List.forall_mem_singleton.mpr hnot
  exact filterMap_kind?_lexemes_append hskipped _

theorem filterMap_kind?_lexemes_map_of_starts (hstarts : shape.starts first = true) :
    (lexemes ((first :: rest).map Glyph.ofChar)).filterMap Lexeme.kind? =
      shape.kind (first :: rest.takeWhile shape.continues) ::
        (lexemes ((rest.dropWhile shape.continues).map Glyph.ofChar)).filterMap Lexeme.kind? := by
  have hmatches := Shape.matches_takeWhile hstarts rest
  have hcut : (first :: rest).map Glyph.ofChar =
      (first :: rest.takeWhile shape.continues).map Glyph.ofChar ++
        (rest.dropWhile shape.continues).map Glyph.ofChar := by
    rw [← List.map_append, List.cons_append, List.takeWhile_append_dropWhile]
  rw [hcut]
  apply filterMap_kind?_lexemes_append_of_matches hmatches
  intro glyph hmem
  have hstop := List.head?_dropWhile_not shape.continues rest
  cases hbehind : rest.dropWhile shape.continues with
  | nil =>
    rw [hbehind] at hmem
    cases hmem
  | cons char behind =>
    rw [hbehind] at hmem hstop
    exact ⟨char, (Option.some.inj hmem).symm, by simpa using hstop⟩

/-- What a line becomes does not depend on how many bytes its characters have. -/
theorem filterMap_kind?_lexemes_charGlyphs (chars : List Char) :
    (lexemes (charGlyphs chars)).filterMap Lexeme.kind? =
      (lexemes (chars.map Glyph.ofChar)).filterMap Lexeme.kind? := by
  induction hlength : chars.length using Nat.strong_induction_on generalizing chars with
  | _ length ih =>
    subst hlength
    cases chars with
    | nil => rfl
    | cons first rest =>
      cases hfirst : isShown first with
      | false =>
        rw [filterMap_kind?_lexemes_of_not_isShown hfirst,
          filterMap_kind?_lexemes_map_of_not_isShown hfirst]
        exact ih rest.length (Nat.lt_succ_self _) rest rfl
      | true =>
        obtain ⟨shape, hstarts⟩ := Shape.exists_starts_of_isShown hfirst
        have hshorter : (rest.dropWhile shape.continues).length < (first :: rest).length :=
          Nat.lt_succ_of_le (List.dropWhile_suffix _).length_le
        rw [filterMap_kind?_lexemes_of_starts hstarts,
          filterMap_kind?_lexemes_map_of_starts hstarts, ih _ hshorter _ rfl]

theorem splitLines_map_ofChar (chars : List Char) :
    splitLines (chars.map Glyph.ofChar) = (chars.splitOn '\n').map (List.map Glyph.ofChar) := by
  induction chars with
  | nil => rfl
  | cons char chars ih =>
    rw [List.map_cons, splitLines_cons, List.splitOn_cons_eq_if_modifyHead, ih]
    by_cases hchar : char = '\n'
    · rw [if_pos (Glyph.ofChar_eq_newline_iff.mpr hchar), if_pos (by simpa using hchar)]
      rfl
    · rw [if_neg (mt Glyph.ofChar_eq_newline_iff.mp hchar), if_neg (by simpa using hchar)]
      cases chars.splitOn '\n' <;> rfl

theorem mem_charGlyphs_iff {glyph : Glyph} :
    glyph ∈ charGlyphs chars ↔ glyph ∈ chars.map Glyph.ofChar := by
  induction chars with
  | nil => rfl
  | cons char chars ih =>
    rw [charGlyphs_cons, List.map_cons, List.mem_append, List.mem_cons, ih]
    apply or_congr_left
    constructor
    · exact eq_ofChar_of_mem_charGlyphs
    · rintro rfl
      obtain ⟨glyph, hmem⟩ := List.exists_mem_of_ne_nil _ (charGlyphs_singleton_ne_nil char)
      rwa [← eq_ofChar_of_mem_charGlyphs hmem]

theorem all_isWhite_charGlyphs (chars : List Char) :
    (charGlyphs chars).all Glyph.isWhite = (chars.map Glyph.ofChar).all Glyph.isWhite := by
  rw [Bool.eq_iff_iff, List.all_eq_true, List.all_eq_true]
  simp only [mem_charGlyphs_iff]

theorem takeWhile_blank_charGlyphs (chars : List Char) :
    (charGlyphs chars).takeWhile (· = .blank) =
      (chars.map Glyph.ofChar).takeWhile (· = .blank) := by
  induction chars with
  | nil => rfl
  | cons char chars ih =>
    rw [charGlyphs_cons, List.map_cons]
    by_cases hchar : Glyph.ofChar char = .blank
    · have hascii : char.toNat < 128 := by
        by_contra hlarge
        cases hchar.symm.trans (Glyph.ofCode_of_le (Nat.le_of_not_lt hlarge))
      have hone : charGlyphs [char] = [Glyph.ofChar char] :=
        map_ofByte_utf8EncodeChar (List.forall_mem_singleton.mpr hascii)
      rw [hone, List.singleton_append, List.takeWhile_cons_of_pos (by simpa using hchar), ih,
        List.takeWhile_cons_of_pos (by simpa using hchar)]
    · obtain ⟨glyph, others, hglyphs⟩ :=
        List.exists_cons_of_ne_nil (charGlyphs_singleton_ne_nil char)
      obtain rfl := eq_ofChar_of_mem_charGlyphs (hglyphs ▸ List.mem_cons_self)
      rw [hglyphs, List.cons_append, List.takeWhile_cons_of_neg (by simpa using hchar),
        List.takeWhile_cons_of_neg (by simpa using hchar)]

/-- A line of bytes is the line of its characters. -/
theorem Line.respaced_charGlyphs (line : List Char) :
    Respaced id (ofGlyphs (charGlyphs line)) (ofGlyphs (line.map Glyph.ofChar)) := by
  have htext : (line.map Glyph.ofChar).takeWhile (· ≠ .hash) =
      (line.takeWhile (· ≠ '#')).map Glyph.ofChar := by
    rw [List.takeWhile_map]
    congr 2
    funext char
    simp [Glyph.ofChar_eq_hash_iff]
  simp only [ofGlyphs, takeWhile_charGlyphs, htext, all_isWhite_charGlyphs, mem_charGlyphs_iff]
  split
  · split
    · exact .comment
    · exact .blank
  · rw [takeWhile_blank_charGlyphs]
    exact .code _ (filterMap_kind?_lexemes_charGlyphs _)

theorem toList_eq_of_characterLines (source : String) :
    (TokenStream.ofSource source).toList =
      scanLines Margin.initial 0 (characterLines source) ++
        [Token.endOfInput ((characterLines source).length - 1)] := by
  have hlines : List.Forall₂ (Line.Respaced id) (sourceLines source) (characterLines source) := by
    rw [sourceLines_eq_map_charGlyphs, characterLines, splitLines_map_ofChar, List.map_map,
      List.forall₂_map_left_iff, List.forall₂_map_right_iff]
    exact List.forall₂_same.mpr fun line _ => Line.respaced_charGlyphs line
  have hscan : scanLines Margin.initial 0 (characterLines source) = scan source :=
    scanLines_respace strictMono_id rfl hlines Margin.initial 0
  rw [TokenStream.toList, hscan, ← hlines.length_eq]
  rfl

/-- Wherever the scanner cuts a line of a source text, it cuts between two characters of the line,
    so no source text stops it. What it cuts out are the texts of the tokens. These are ASCII, and
    the tokens are those that are found in the characters of the source if each of them is taken as
    a whole and those outside ASCII are separators. -/
theorem scanning_cuts_between_characters (source : String) :
    (∀ index line, (charLines source)[index]? = some line →
      let raw := charBytes line
      let code := (dropReturn line).takeWhile (· ≠ '#')
      RawLine.withoutReturn raw = charBytes (dropReturn line) ∧
      IsBoundary (dropReturn line) (RawLine.code raw).length ∧
      RawLine.code raw = charBytes code ∧
      RawLine.width raw ≤ (RawLine.code raw).length ∧
      List.Forall₂ (Slice.Shows code) (slicesFrom (RawLine.code raw) (RawLine.width raw))
        (shownTokens source index)) ∧
    (∀ token ∈ (TokenStream.ofSource source).toList, ∀ text ∈ token.kind.text?,
      ∀ char ∈ text.toList, char.toNat < 128) ∧
    (∀ char : Char, 128 ≤ char.toNat → Glyph.ofChar char = .other) ∧
    (TokenStream.ofSource source).toList =
      scanLines Margin.initial 0 (characterLines source) ++
        [Token.endOfInput ((characterLines source).length - 1)] := by
  refine ⟨?_, ?_, fun char => Glyph.ofCode_of_le, toList_eq_of_characterLines source⟩
  · intro index line hline raw code
    refine ⟨withoutReturn_charBytes line, ?_, code_charBytes line, ?_,
      forall₂_shows_slicesFrom hline⟩
    · rw [code_charBytes, isBoundary_iff]
      exact ⟨_, _, List.takeWhile_append_dropWhile.symm, rfl⟩
    · exact (List.takeWhile_prefix _).length_le
  · intro token hmem text htext
    exact toNat_lt_of_mem_text hmem htext

/-- Letters outside ASCII stand in front of a colon, inside a word and in a comment. -/
theorem scanning_cuts_between_characters_mixed :
    let source := "move\n\té: 3x_ü7 # €\r\n"
    let line := "\té: 3x_ü7 # €\r".toList
    let raw := charBytes line
    let slices := slicesFrom (RawLine.code raw) (RawLine.width raw)
    (charLines source)[1]? = some line ∧
      List.Forall₂ (Slice.Shows "\té: 3x_ü7 ".toList) slices (shownTokens source 1) ∧
      slices.map (fun slice => (slice.start, slice.stop)) = [(3, 4), (5, 6), (6, 8), (10, 11)] ∧
      (shownTokens source 1).map (·.kind) =
        [.colon, .number "3", .identifier "x_", .number "7"] := by
  intro source line raw slices
  have hline : (charLines source)[1]? = some line := by decide +kernel
  obtain ⟨-, -, -, -, hslices⟩ := (scanning_cuts_between_characters source).1 1 line hline
  exact ⟨hline, hslices, by decide +kernel, by decide +kernel⟩

end Karel
