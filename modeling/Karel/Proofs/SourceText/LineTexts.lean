import Mathlib.Data.Nat.Digits.Defs
import Karel.Proofs.Layout.Characters
import Karel.Proofs.Layout.Insertion
import Karel.Proofs.Layout.Matches

/-!
# The texts of a line

The tokens that show on a line are the words, the numbers and the colons that are found in its code,
each as long as it can be. What is found tells the kind of its token, and nothing else becomes one.

## Main definitions

- `shownTokens` — the tokens that show on a line of a source text
- `TokenKind.chars`, `TokenKind.shape?` — the text of a token, and the shape of such a text
- `placeValue` — the number that decimal digits denote
- `TokenKind.IsRead` — a kind of token that its text tells

## Main results

- `filterMap_kind?_lexemes_of_starts`, `filterMap_kind?_lexemes_of_not_isShown` — a step of the
  scanner in its line
- `leftmostLongest_kinds` — the texts of a whole line
- `leftmostLongest_shownTokens` — the tokens of a line of a source text
-/

namespace Karel

/-- The tokens that show on a line of a source text. -/
def shownTokens (source : String) (index : Nat) : List Token :=
  (TokenStream.ofSource source).toList.filter fun token =>
    token.kind.isVisible && token.line = index

/-- The text of a token. Structural tokens have an empty one. -/
def TokenKind.chars (kind : TokenKind) : List Char :=
  (kind.text?.getD "").toList

/-- The shape of the texts of a kind of token. -/
def TokenKind.shape? : TokenKind → Option Shape
  | identifier _ | keyword _ => some .word
  | number _ => some .number
  | colon => some .colon
  | newline | indent | dedent | eof => none

/-- The number that decimal digits denote, the last of which counts the units. -/
def placeValue (digits : List Char) : Nat :=
  Nat.ofDigits 10 (digits.reverse.map fun digit => digit.toNat - '0'.toNat)

/-- A kind of token that its text tells. -/
structure TokenKind.IsRead (kind : TokenKind) : Prop where
  /-- The token is a word, a number or a colon as its text is one. -/
  shape : ∀ shape : Shape, shape.Matches kind.chars ↔ kind.shape? = some shape
  /-- Of the words, the reserved ones are keywords. -/
  keyword : kind.shape? = some .word → ((∃ reserved, kind = .keyword reserved) ↔
    String.ofList kind.chars ∈ ["define", "do", "if", "elif", "else", "while"])
  /-- A number has the value of its digits if 32 bits can hold it, and else it has none. -/
  value : kind.shape? = some .number →
    kind.value? = if placeValue kind.chars < 2 ^ 32 then some (placeValue kind.chars) else none

/-- The kind of token that a text of a shape becomes. -/
def Shape.kind : Shape → List Char → TokenKind
  | word, text => .ofWord (String.ofList text)
  | number, text => .number (String.ofList text)
  | colon, _ => .colon

variable {shape : Shape} {char first : Char} {text rest : List Char} {gs : List Glyph}

-- ════════════════════════════════════════════════════════════════════════
-- Kinds of tokens
-- ════════════════════════════════════════════════════════════════════════

theorem text_of_ofText? {word : String} {reserved : Keyword}
    (h : Keyword.ofText? word = some reserved) : reserved.text = word := by
  have hfound := List.find?_some h
  exact beq_iff_eq.mp hfound

theorem TokenKind.text?_ofWord (word : String) : (ofWord word).text? = some word := by
  rw [ofWord]
  split
  · next reserved hreserved =>
    rw [text?, text_of_ofText? hreserved]
  · rfl

theorem TokenKind.shape?_ofWord (word : String) : (ofWord word).shape? = some .word := by
  rw [ofWord]
  split <;> rfl

theorem Shape.shape?_kind (shape : Shape) (text : List Char) :
    (shape.kind text).shape? = some shape := by
  cases shape with
  | word => exact TokenKind.shape?_ofWord _
  | number | colon => rfl

theorem Shape.chars_kind (h : shape.Matches text) : (shape.kind text).chars = text := by
  cases shape with
  | word =>
    rw [kind, TokenKind.chars, TokenKind.text?_ofWord, Option.getD_some, String.toList_ofList]
  | number => exact String.toList_ofList
  | colon =>
    cases text with
    | nil => cases h
    | cons first rest =>
      obtain ⟨hfirst, hrest⟩ := h
      rw [of_decide_eq_true hfirst, List.eq_nil_iff_forall_not_mem.mpr fun char hmem =>
        Bool.false_ne_true (hrest char hmem)]
      rfl

/-- A word is a keyword exactly if it is one of the reserved ones. -/
theorem TokenKind.exists_ofWord_eq_keyword_iff {word : String} :
    (∃ reserved, ofWord word = .keyword reserved) ↔ word ∈ Keyword.all.map Keyword.text := by
  rw [ofWord]
  split
  · next reserved hreserved =>
    have hmem : reserved ∈ Keyword.all := List.mem_of_find?_eq_some hreserved
    refine iff_of_true ⟨reserved, rfl⟩ ?_
    exact List.mem_map.mpr ⟨reserved, hmem, text_of_ofText? hreserved⟩
  · next hreserved =>
    refine iff_of_false (by simp) fun hmem => ?_
    obtain ⟨reserved, -, rfl⟩ := List.mem_map.mp hmem
    exact ofText?_eq_none_iff.mp hreserved reserved rfl

theorem decimalValue_eq_placeValue (digits : List Char) :
    decimalValue digits = placeValue digits := by
  induction digits using List.reverseRecOn with
  | nil => simp [decimalValue, placeValue]
  | append_singleton digits digit ih =>
    rw [decimalValue, List.foldl_append, List.foldl_cons, List.foldl_nil, ← decimalValue, ih,
      placeValue, placeValue, List.reverse_append, List.map_append, List.reverse_singleton,
      List.map_singleton, List.singleton_append, Nat.ofDigits_cons]
    omega

/-- A text of a shape becomes a token of a kind that the text tells. -/
theorem Shape.isRead_kind (h : shape.Matches text) : (shape.kind text).IsRead := by
  constructor
  · intro other
    rw [chars_kind h, shape?_kind, Option.some_inj]
    constructor
    · exact h.unique
    · rintro rfl
      exact h
  · rw [chars_kind h, shape?_kind, Option.some_inj]
    rintro rfl
    exact TokenKind.exists_ofWord_eq_keyword_iff
  · rw [chars_kind h, shape?_kind, Option.some_inj]
    rintro rfl
    show (if decimalValue (String.ofList text).toList < numberLimit then
      some (decimalValue (String.ofList text).toList) else none) = _
    rw [String.toList_ofList, decimalValue_eq_placeValue]
    rfl

-- ════════════════════════════════════════════════════════════════════════
-- Steps of the scanner
-- ════════════════════════════════════════════════════════════════════════

theorem Glyph.ofChar_eq_colon_iff : ofChar char = .colon ↔ char = ':' := by
  rw [← Char.toNat_inj, ofChar, ofCode]
  grind

theorem Glyph.isDigit_of_ofChar {digit : Char} (h : ofChar char = .digit digit) :
    char.isDigit = true := by
  rw [Char.isDigit_iff_toNat]
  rw [ofChar, ofCode] at h
  grind

theorem isShown_iff :
    isShown char = true ↔
      (Glyph.ofChar char).isWordGlyph = true ∨ Glyph.ofChar char = .colon := by
  rw [Glyph.isWordGlyph_ofChar_iff, Glyph.ofChar_eq_colon_iff, isShown, Bool.or_eq_true,
    Bool.or_eq_true, decide_eq_true_eq, decide_eq_true_eq]

theorem toNat_lt_of_isShown (h : isShown char = true) : char.toNat < 128 := by
  rcases isShown_iff.mp h with hword | hcolon
  · exact Glyph.toNat_lt_of_isWordGlyph hword
  · rw [Glyph.ofChar_eq_colon_iff.mp hcolon]
    decide

theorem Shape.Matches.exists_cons (h : shape.Matches text) :
    ∃ first rest, text = first :: rest := by
  cases text with
  | nil => cases h
  | cons first rest => exact ⟨first, rest, rfl⟩

theorem Shape.Matches.charGlyphs_eq (h : shape.Matches text) :
    charGlyphs text = text.map Glyph.ofChar :=
  map_ofByte_utf8EncodeChar fun char hmem => toNat_lt_of_isShown (h.isShown char hmem)

/-- Where the longest text of a shape ends, no further glyph goes on with it. -/
theorem exists_of_mem_head?_charGlyphs_dropWhile {p : Char → Bool} {glyph : Glyph}
    (h : glyph ∈ (charGlyphs (rest.dropWhile p)).head?) :
    ∃ char, glyph = Glyph.ofChar char ∧ p char = false := by
  have hstop := List.head?_dropWhile_not p rest
  cases hrest : rest.dropWhile p with
  | nil =>
    rw [hrest] at h
    cases h
  | cons char behind =>
    rw [hrest] at h hstop
    exact ⟨char, eq_ofChar_of_mem_head?_charGlyphs h, by simpa using hstop⟩

theorem lexemes_word_append (hletter : Glyph.ofChar first = .letter first)
    (hword : ∀ char ∈ rest, (Glyph.ofChar char).isWordGlyph = true)
    (hgs : ∀ glyph ∈ gs.head?, glyph.isWordGlyph = false) :
    lexemes ((first :: rest).map Glyph.ofChar ++ gs) = .word (first :: rest) :: lexemes gs := by
  cases gs with
  | nil =>
    rw [List.append_nil, lexemes_word hletter hword]
    rfl
  | cons glyph gs =>
    rw [lexemes_append (hgs glyph rfl), lexemes_word hletter hword]
    rfl

/-- A text of a shape becomes a token if no glyph behind it goes on with it. -/
theorem filterMap_kind?_lexemes_append_of_matches (h : shape.Matches text)
    (hstop : ∀ glyph ∈ gs.head?, ∃ char, glyph = Glyph.ofChar char ∧
      shape.continues char = false) :
    (lexemes (text.map Glyph.ofChar ++ gs)).filterMap Lexeme.kind? =
      shape.kind text :: (lexemes gs).filterMap Lexeme.kind? := by
  obtain ⟨first, rest, rfl⟩ := h.exists_cons
  cases shape with
  | word =>
    have hletter : Glyph.ofChar first = .letter first :=
      Glyph.ofChar_eq_letter_iff.mpr (by simpa [Shape.starts] using h.1)
    have hword : ∀ char ∈ rest, (Glyph.ofChar char).isWordGlyph = true := fun char hmem =>
      Glyph.isWordGlyph_ofChar_iff.mpr (by simpa [Shape.continues] using h.2 char hmem)
    rw [lexemes_word_append hletter hword]
    · rfl
    · intro glyph hmem
      obtain ⟨char, rfl, hchar⟩ := hstop glyph hmem
      rw [← Bool.not_eq_true, Glyph.isWordGlyph_ofChar_iff]
      simpa [Shape.continues] using hchar
  | number =>
    rw [lexemes_number_append (List.forall_mem_cons.mpr h)]
    · rfl
    · intro digit hmem
      obtain ⟨char, hglyph, hchar⟩ := hstop _ hmem
      exact Bool.false_ne_true (hchar.symm.trans (Glyph.isDigit_of_ofChar hglyph.symm))
  | colon =>
    have hrest : rest = [] := List.eq_nil_iff_forall_not_mem.mpr fun char hmem =>
      Bool.false_ne_true (h.2 char hmem)
    rw [hrest, of_decide_eq_true h.1]
    rfl

/-- Where a text of some shape begins, the longest one becomes a token, and the scanner goes on
    behind it. -/
theorem filterMap_kind?_lexemes_of_starts (hstarts : shape.starts first = true) :
    (lexemes (charGlyphs (first :: rest))).filterMap Lexeme.kind? =
      shape.kind (first :: rest.takeWhile shape.continues) ::
        (lexemes (charGlyphs (rest.dropWhile shape.continues))).filterMap Lexeme.kind? := by
  have hmatches := Shape.matches_takeWhile hstarts rest
  have hcut : charGlyphs (first :: rest) =
      (first :: rest.takeWhile shape.continues).map Glyph.ofChar ++
        charGlyphs (rest.dropWhile shape.continues) := by
    rw [← hmatches.charGlyphs_eq, ← charGlyphs_append, List.cons_append,
      List.takeWhile_append_dropWhile]
  rw [hcut]
  exact filterMap_kind?_lexemes_append_of_matches hmatches fun glyph hmem =>
    exists_of_mem_head?_charGlyphs_dropWhile hmem

/-- A character with which no text of a shape begins becomes no token. -/
theorem filterMap_kind?_lexemes_of_not_isShown (hchar : isShown char = false) :
    (lexemes (charGlyphs (char :: rest))).filterMap Lexeme.kind? =
      (lexemes (charGlyphs rest)).filterMap Lexeme.kind? := by
  rw [charGlyphs_cons]
  refine filterMap_kind?_lexemes_append (fun glyph hmem => ?_) _
  rw [eq_ofChar_of_mem_charGlyphs hmem]
  have hnot := mt isShown_iff.mpr (Bool.not_eq_true _ ▸ hchar)
  rw [not_or, Bool.not_eq_true] at hnot
  exact hnot

/-- The scanner finds the texts of a line, and they tell the kinds of their tokens. -/
theorem leftmostLongest_kinds (line : List Char) :
    LeftmostLongest line
      (((lexemes (charGlyphs line)).filterMap Lexeme.kind?).map TokenKind.chars) ∧
    ∀ kind ∈ (lexemes (charGlyphs line)).filterMap Lexeme.kind?, kind.IsRead := by
  induction hlength : line.length using Nat.strong_induction_on generalizing line with
  | _ length ih =>
    subst hlength
    cases line with
    | nil => exact ⟨.nil, List.forall_mem_nil _⟩
    | cons first rest =>
      cases hfirst : isShown first with
      | false =>
        obtain ⟨hfound, hread⟩ := ih rest.length (Nat.lt_succ_self _) rest rfl
        rw [filterMap_kind?_lexemes_of_not_isShown hfirst]
        exact ⟨.of_not_isShown hfirst hfound, hread⟩
      | true =>
        obtain ⟨shape, hstarts⟩ := Shape.exists_starts_of_isShown hfirst
        have hmatches := Shape.matches_takeWhile hstarts rest
        have hshorter : (rest.dropWhile shape.continues).length < (first :: rest).length :=
          Nat.lt_succ_of_le (List.dropWhile_suffix _).length_le
        -- behind the text that is taken, the line is shorter
        obtain ⟨hfound, hread⟩ := ih _ hshorter _ rfl
        rw [filterMap_kind?_lexemes_of_starts hstarts, List.map_cons, Shape.chars_kind hmatches]
        exact ⟨.of_starts hstarts hfound,
          List.forall_mem_cons.mpr ⟨Shape.isRead_kind hmatches, hread⟩⟩

-- ════════════════════════════════════════════════════════════════════════
-- Lines of a source text
-- ════════════════════════════════════════════════════════════════════════

variable {index : Nat} {source : String} {line : List Char}

/-- The tokens of a line that show are those of its text before the comment. -/
theorem Margin.filter_isVisible_tokens (margin : Margin) (index : Nat) (terminated : Bool)
    (line : List Char) :
    (margin.tokens index terminated (Line.ofGlyphs (charGlyphs line))).filter (·.kind.isVisible) =
      textTokens index (lexemes (charGlyphs (line.takeWhile (· ≠ '#')))) := by
  rw [Line.ofGlyphs]
  simp only [takeWhile_charGlyphs]
  split
  · next hwhite =>
    rw [textTokens, filterMap_kind?_lexemes_white hwhite]
    split <;> rfl
  · have hlayout (width : Nat) :
        (margin.layoutTokens index width).filter (·.kind.isVisible) = [] :=
      List.filter_eq_nil_iff.mpr fun token hmem => by
        rw [isVisible_of_mem_layoutTokens hmem, Bool.not_eq_true]
    have htext (pieces : List Lexeme) :
        (textTokens index pieces).filter (·.kind.isVisible) = textTokens index pieces :=
      List.filter_eq_self.mpr fun token hmem => (isVisible_of_mem_textTokens hmem).1
    rw [tokens_code_eq_layoutTokens_append, List.filter_append, List.filter_append, hlayout, htext]
    cases terminated <;> simp [TokenKind.isVisible]

/-- Behind the tokens of the first of some lines, tokens stand below it or do not show. -/
theorem exists_scanLines_cons_eq (margin : Margin) (index : Nat) (line : Line)
    (below : List Line) :
    ∃ terminated rest,
      scanLines margin index (line :: below) = margin.tokens index terminated line ++ rest ∧
      ∀ token ∈ rest, token.kind.isVisible = false ∨ index < token.line := by
  cases below with
  | nil =>
    refine ⟨false, (margin.after line).closing index, rfl, fun token hmem => .inl ?_⟩
    obtain ⟨level, -, rfl⟩ := List.mem_map.mp hmem
    rfl
  | cons next more =>
    refine ⟨true, scanLines (margin.after line) (index + 1) (next :: more), rfl, ?_⟩
    exact fun token hmem => .inr (line_of_mem_scanLines hmem).1

theorem exists_sourceLines_eq (hline : (charLines source)[index]? = some line) :
    ∃ above below, above.length = index ∧
      sourceLines source = above ++ Line.ofGlyphs (charGlyphs line) :: below := by
  have hget : (sourceLines source)[index]? = some (Line.ofGlyphs (charGlyphs line)) := by
    rw [sourceLines_eq_map_charGlyphs, List.getElem?_map, hline]
    rfl
  obtain ⟨hindex, hget⟩ := List.getElem?_eq_some_iff.mp hget
  refine ⟨(sourceLines source).take index, (sourceLines source).drop (index + 1), ?_, ?_⟩
  · rw [List.length_take, Nat.min_eq_left hindex.le]
  · rw [← hget, ← List.drop_eq_getElem_cons hindex, List.take_append_drop]

/-- Of all tokens those that show on a line are the ones that its text becomes. -/
theorem shownTokens_eq (hline : (charLines source)[index]? = some line) :
    shownTokens source index =
      textTokens index (lexemes (charGlyphs (line.takeWhile (· ≠ '#')))) := by
  obtain ⟨above, below, rfl, hsource⟩ := exists_sourceLines_eq hline
  obtain ⟨terminated, rest, hscan, hrest⟩ := exists_scanLines_cons_eq
    (Margin.initial.below above) above.length (Line.ofGlyphs (charGlyphs line)) below
  have habove : (endedTokens Margin.initial 0 above).filter (fun token =>
      token.kind.isVisible && token.line = above.length) = [] :=
    List.filter_eq_nil_iff.mpr fun token hmem => by
      have hlt := line_lt_of_mem_endedTokens hmem
      simp [Nat.ne_of_lt (Nat.zero_add above.length ▸ hlt)]
  have hbelow : rest.filter (fun token =>
      token.kind.isVisible && token.line = above.length) = [] :=
    List.filter_eq_nil_iff.mpr fun token hmem => by
      rcases hrest token hmem with hkind | hlt
      · simp [hkind]
      · simp [Nat.ne_of_gt hlt]
  rw [shownTokens, toList_of_sourceLines_append hsource (List.cons_ne_nil _ _), hscan,
    List.filter_append, List.filter_append, List.filter_append, habove, hbelow,
    ← Margin.filter_isVisible_tokens (Margin.initial.below above) above.length terminated line]
  show _ ++ [] ++ [] = _
  rw [List.append_nil, List.append_nil]
  refine List.filter_congr fun token hmem => ?_
  rw [Margin.line_of_mem_tokens hmem, decide_eq_true rfl, Bool.and_true]

/-- Whatever a line holds, the words, numbers and colons that are found in it from left to right,
    each as long as it can be, are the texts of the tokens that show on it. Between them there is
    nothing of a word, a number or a colon. A word is a keyword exactly if it is reserved, and a
    number has a value exactly if its digits denote one of 32 bits. -/
theorem leftmostLongest_shownTokens (hline : (charLines source)[index]? = some line) :
    let code := line.takeWhile (· ≠ '#')
    let texts := (shownTokens source index).map (·.kind.chars)
    (∀ found, LeftmostLongest code found ↔ found = texts) ∧
    (∃ gaps last, gaps.length = texts.length ∧
      code = (List.zipWith (· ++ ·) gaps texts).flatten ++ last ∧
      ∀ gap ∈ last :: gaps, ∀ char ∈ gap, isShown char = false) ∧
    texts.flatten = code.filter isShown ∧
    ∀ token ∈ shownTokens source index, token.kind.IsRead := by
  intro code texts
  have htexts : texts =
      ((lexemes (charGlyphs code)).filterMap Lexeme.kind?).map TokenKind.chars := by
    show (shownTokens source index).map (·.kind.chars) = _
    rw [shownTokens_eq hline, textTokens, List.map_map]
    rfl
  obtain ⟨hfound, hread⟩ := leftmostLongest_kinds code
  rw [← htexts] at hfound
  refine ⟨fun found => ⟨fun h => h.unique hfound, ?_⟩, hfound.exists_gaps,
    hfound.flatten_eq_filter, fun token hmem => ?_⟩
  · rintro rfl
    exact hfound
  · rw [shownTokens_eq hline] at hmem
    obtain ⟨kind, hkind, rfl⟩ := List.mem_map.mp hmem
    exact hread kind hkind

/-- Digits stand in front of a word and inside one, a hyphen and a letter outside ASCII keep words
    apart, two colons are two texts, and zeros in front change no value. -/
theorem leftmostLongest_shownTokens_mixed :
    (charLines "do 2:\n\tif 3abc-ab3é_4::007 4294967296 # do 5\r\n")[1]? =
        some "\tif 3abc-ab3é_4::007 4294967296 # do 5\r".toList ∧
      LeftmostLongest "\tif 3abc-ab3é_4::007 4294967296 ".toList
        (["if", "3", "abc", "ab3", "_4", ":", ":", "007", "4294967296"].map String.toList) ∧
      (shownTokens "do 2:\n\tif 3abc-ab3é_4::007 4294967296 # do 5\r\n" 1).map (·.kind) =
        [.keyword .«if», .number "3", .identifier "abc", .identifier "ab3", .identifier "_4",
          .colon, .colon, .number "007", .number "4294967296"] ∧
      (TokenKind.number "007").value? = some 7 ∧
      (TokenKind.number "4294967296").value? = none := by
  have hline : (charLines "do 2:\n\tif 3abc-ab3é_4::007 4294967296 # do 5\r\n")[1]? =
      some "\tif 3abc-ab3é_4::007 4294967296 # do 5\r".toList := by decide
  have hfound := (leftmostLongest_shownTokens hline).1
  exact ⟨hline, (hfound _).mpr (by decide), by decide, by decide, by decide⟩

end Karel
