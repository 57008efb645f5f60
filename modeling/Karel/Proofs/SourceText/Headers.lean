import Mathlib.Data.List.TakeWhile
import Mathlib.Tactic.SplitIfs
import Karel.Proofs.Layout.Kinds
import Karel.Proofs.Lexemes
import Karel.SourceText

/-!
# Headers

A line of the program text of a tree is some indentation and a header. What a header becomes does
not depend on its depth: the scanner takes the indentation away and cuts the header into its words.

## Main definitions

- `IsHeader` — a text on one line that becomes tokens of given kinds
- `entryLine` — the line that the scanner sees for a header at a depth

## Main results

- `isHeader_name`, `isHeader_repr`, `isHeader_keyword` — the headers that occur
- `IsHeader.entryLine_eq` — the line of a header
- `sourceLines_join` — the lines of the program text of a tree
-/

namespace Karel

/-- A text that does not begin with white, ends no line and opens no comment, and becomes tokens
    of the given kinds. -/
structure IsHeader (text : String) (kinds : List TokenKind) : Prop where
  ascii : ∀ char ∈ text.toList, char.toNat < 128
  oneLine : Glyph.newline ∉ text.toList.map Glyph.ofChar
  uncommented : Glyph.hash ∉ text.toList.map Glyph.ofChar
  starts : ∃ glyph gs, text.toList.map Glyph.ofChar = glyph :: gs ∧ glyph.isWhite = false
  lexed : (lexemes (text.toList.map Glyph.ofChar)).filterMap Lexeme.kind? = kinds

-- ════════════════════════════════════════════════════════════════════════
-- Words and numbers
-- ════════════════════════════════════════════════════════════════════════

namespace Glyph

variable {char : Char}

theorem ofChar_of_isDigit (h : char.isDigit = true) : ofChar char = .digit char := by
  rw [Char.isDigit, Bool.and_eq_true, decide_eq_true_eq, decide_eq_true_eq] at h
  have hlow : 48 ≤ char.toNat := h.1
  have hhigh : char.toNat ≤ 57 := h.2
  rw [ofChar, ofCode]
  simp only [hlow, hhigh, and_self, if_true, Char.ofNat_toNat]
  repeat rw [if_neg (by omega)]

/-- A letter or a digit is the glyph of itself. -/
theorem ofChar_of_isWordGlyph (h : (ofChar char).isWordGlyph = true) :
    ofChar char = .letter char ∨ ofChar char = .digit char := by
  rw [ofChar, ofCode] at h ⊢
  rw [Char.ofNat_toNat] at h ⊢
  split_ifs at h ⊢ <;> first | exact .inl rfl | exact .inr rfl | cases h

theorem toNat_lt_of_isWordGlyph (h : (ofChar char).isWordGlyph = true) : char.toNat < 128 := by
  rw [ofChar, ofCode] at h
  split_ifs at h
  all_goals first | omega | cases h

end Glyph

/-- Letters and digits are cut into a number, if they begin with a digit, and a word. -/
theorem lexemes_of_isWordGlyph {chars : List Char}
    (h : ∀ char ∈ chars, (Glyph.ofChar char).isWordGlyph = true) :
    lexemes (chars.map Glyph.ofChar) = [] ∧ chars = [] ∨
      lexemes (chars.map Glyph.ofChar) = [.word chars] ∨
      lexemes (chars.map Glyph.ofChar) = [.number chars] ∨
      ∃ digits text, lexemes (chars.map Glyph.ofChar) = [.number digits, .word text] ∧
        chars = digits ++ text := by
  induction chars with
  | nil => exact .inl ⟨rfl, rfl⟩
  | cons char chars ih =>
    have hchar := h char List.mem_cons_self
    have hchars := ih fun other hmem => h other (List.mem_cons_of_mem char hmem)
    right
    rw [List.map_cons]
    rcases Glyph.ofChar_of_isWordGlyph hchar with hglyph | hglyph <;> rw [hglyph]
    · -- a letter takes in the number and the word behind it
      left
      rw [lexemes_letter]
      rcases hchars with ⟨h, rfl⟩ | h | h | ⟨digits, text, h, rfl⟩ <;> rw [h] <;> rfl
    · -- a digit takes in the number behind it, and a word stays apart from it
      right
      rw [lexemes_digit]
      rcases hchars with ⟨h, rfl⟩ | h | h | ⟨digits, text, h, rfl⟩ <;> rw [h]
      · exact .inl rfl
      · exact .inr ⟨[char], chars, rfl, rfl⟩
      · exact .inl rfl
      · exact .inr ⟨char :: digits, text, rfl, rfl⟩

/-- A letter and the letters and digits behind it are one word. -/
theorem lexemes_word {char : Char} {chars : List Char}
    (hletter : Glyph.ofChar char = .letter char)
    (h : ∀ other ∈ chars, (Glyph.ofChar other).isWordGlyph = true) :
    lexemes ((char :: chars).map Glyph.ofChar) = [.word (char :: chars)] := by
  rw [List.map_cons, hletter, lexemes_letter]
  rcases lexemes_of_isWordGlyph h with ⟨h, rfl⟩ | h | h | ⟨digits, text, h, rfl⟩ <;> rw [h] <;> rfl

/-- A digit begins a number of its own in front of what does not begin with a digit. -/
theorem consDigit_lexemes {gs : List Glyph} (hgs : ∀ other, .digit other ∉ gs.head?)
    (char : Char) : Lexeme.consDigit char (lexemes gs) = .number [char] :: lexemes gs := by
  cases gs with
  | nil => rfl
  | cons glyph gs =>
    cases glyph with
    | digit other => exact absurd rfl (hgs other)
    | letter other =>
      rw [lexemes_letter]
      rcases lexemes gs with _ | ⟨_ | _ | _ | _, _ | ⟨_ | _ | _ | _, _⟩⟩ <;> rfl
    | _ => rfl

/-- A digit and the digits behind it are one number. -/
theorem lexemes_number_append {char : Char} {chars : List Char} {gs : List Glyph}
    (h : ∀ other ∈ char :: chars, other.isDigit = true) (hgs : ∀ other, .digit other ∉ gs.head?) :
    lexemes ((char :: chars).map Glyph.ofChar ++ gs) = .number (char :: chars) :: lexemes gs := by
  have hchar := Glyph.ofChar_of_isDigit (h char List.mem_cons_self)
  induction chars generalizing char with
  | nil =>
    rw [List.map_singleton, hchar, List.singleton_append, lexemes_digit, consDigit_lexemes hgs]
  | cons next chars ih =>
    have hchars : ∀ other ∈ next :: chars, other.isDigit = true := fun other hmem =>
      h other (List.mem_cons_of_mem char hmem)
    rw [List.map_cons, hchar, List.cons_append, lexemes_digit,
      ih hchars (Glyph.ofChar_of_isDigit (hchars next List.mem_cons_self))]
    rfl

theorem lexemes_number {char : Char} {chars : List Char}
    (h : ∀ other ∈ char :: chars, other.isDigit = true) :
    lexemes ((char :: chars).map Glyph.ofChar) = [.number (char :: chars)] := by
  rw [← List.append_nil (List.map _ _), lexemes_number_append h (by simp)]
  rfl

-- ════════════════════════════════════════════════════════════════════════
-- The headers that occur
-- ════════════════════════════════════════════════════════════════════════

theorem isHeader_of_isWordGlyph {text : String} {kinds : List TokenKind} (hne : text.toList ≠ [])
    (h : ∀ char ∈ text.toList, (Glyph.ofChar char).isWordGlyph = true)
    (hlexed : (lexemes (text.toList.map Glyph.ofChar)).filterMap Lexeme.kind? = kinds) :
    IsHeader text kinds := by
  have hword : ∀ glyph ∈ text.toList.map Glyph.ofChar, glyph.isWordGlyph = true :=
    List.forall_mem_map.mpr h
  refine ⟨fun char hmem => Glyph.toNat_lt_of_isWordGlyph (h char hmem), ?_, ?_, ?_, hlexed⟩
  · intro hmem
    cases hword _ hmem
  · intro hmem
    cases hword _ hmem
  · obtain ⟨char, chars, htext⟩ := List.exists_cons_of_ne_nil hne
    refine ⟨Glyph.ofChar char, chars.map Glyph.ofChar, by rw [htext, List.map_cons], ?_⟩
    have hchar := h char (htext ▸ List.mem_cons_self)
    rcases Glyph.ofChar_of_isWordGlyph hchar with hglyph | hglyph <;> rw [hglyph] <;> rfl

/-- A name begins with a letter, goes on with letters and digits, and is not reserved. -/
theorem exists_of_isName {name : String} (h : isName name = true) :
    ∃ char chars, name.toList = char :: chars ∧ Glyph.ofChar char = .letter char ∧
      (∀ other ∈ chars, (Glyph.ofChar other).isWordGlyph = true) ∧
      Keyword.ofText? name = none := by
  rw [isName] at h
  split at h
  · next letter rest htext =>
    obtain ⟨char, chars, hchars, hletter, rfl⟩ := List.map_eq_cons_iff.mp htext
    rw [Bool.and_eq_true, List.all_eq_true, Option.isNone_iff_eq_none] at h
    refine ⟨char, chars, hchars, ?_, fun other hmem => h.1 _ (List.mem_map_of_mem hmem), h.2⟩
    have hchar : (Glyph.ofChar char).isWordGlyph = true := by rw [hletter]; rfl
    rcases Glyph.ofChar_of_isWordGlyph hchar with hglyph | hglyph
    · exact hglyph
    · rw [hglyph] at hletter
      cases hletter
  · cases h

theorem isHeader_name {name : String} (h : isName name = true) :
    IsHeader name [.identifier name] := by
  obtain ⟨char, chars, hname, hletter, hchars, hreserved⟩ := exists_of_isName h
  refine isHeader_of_isWordGlyph (by simp [hname]) ?_ ?_
  · intro other hmem
    rw [hname] at hmem
    rcases List.mem_cons.mp hmem with rfl | hmem
    · rw [hletter]
      rfl
    · exact hchars other hmem
  · have hword : TokenKind.ofWord name = .identifier name := by rw [TokenKind.ofWord, hreserved]
    rw [hname, lexemes_word hletter hchars, ← hname]
    simp [Lexeme.kind?, hword]

theorem isHeader_repr (count : Nat) : IsHeader (toString count) [.number (toString count)] := by
  have hdigits : (toString count).toList = Nat.toDigits 10 count := Nat.toList_repr
  have hdigit : ∀ char ∈ (toString count).toList, char.isDigit = true := fun char hmem =>
    Nat.isDigit_of_mem_toDigits (by decide) (by decide) (hdigits ▸ hmem)
  have hne : (toString count).toList ≠ [] := hdigits ▸ Nat.toDigits_ne_nil
  refine isHeader_of_isWordGlyph hne ?_ ?_
  · intro char hmem
    rw [Glyph.ofChar_of_isDigit (hdigit char hmem)]
    rfl
  · obtain ⟨char, chars, htext⟩ := List.exists_cons_of_ne_nil hne
    rw [htext] at hdigit
    rw [htext, lexemes_number hdigit, ← htext]
    simp only [List.filterMap_cons, List.filterMap_nil, Lexeme.kind?, String.ofList_toList]

theorem decimalValue_repr (count : Nat) : decimalValue (toString count).toList = count := by
  rw [show (toString count).toList = Nat.toDigits 10 count from Nat.toList_repr]
  exact Nat.ofDigitChars_ten_toDigits

/-- The digits of a number have the number as their value, if it is not too large. -/
theorem value?_repr {count : Nat} (h : count < numberLimit) :
    (TokenKind.number (toString count)).value? = some count := by
  simp only [TokenKind.value?, decimalValue_repr, if_pos h]

/-- A reserved word with what it is about, and a colon. -/
def Keyword.header (reserved : Keyword) (text : String) : String :=
  reserved.text ++ " " ++ text ++ ":"

/-- A compound header becomes its reserved word, what it is about, and a colon. -/
theorem isHeader_keyword (reserved : Keyword) {text : String} {kinds : List TokenKind}
    (h : IsHeader text kinds) :
    IsHeader (reserved.header text) (.keyword reserved :: kinds ++ [.colon]) := by
  have hletters : reserved.text.toList.all fun char => (Glyph.ofChar char).isWordGlyph := by
    cases reserved <;> decide
  have hreserved : IsHeader reserved.text [.keyword reserved] := by
    refine isHeader_of_isWordGlyph ?_ (List.all_eq_true.mp hletters) ?_ <;> cases reserved <;>
      decide
  have htext : (reserved.header text).toList =
      reserved.text.toList ++ ' ' :: (text.toList ++ [':']) := by
    simp [Keyword.header]
  have hglyphs : (reserved.header text).toList.map Glyph.ofChar =
      reserved.text.toList.map Glyph.ofChar ++
        .blank :: (text.toList.map Glyph.ofChar ++ [.colon]) := by
    rw [htext]
    simp [show Glyph.ofChar ' ' = .blank from rfl, show Glyph.ofChar ':' = .colon from rfl]
  refine ⟨?_, ?_, ?_, ?_, ?_⟩
  · intro char hmem
    rw [htext] at hmem
    simp only [List.mem_append, List.mem_cons, List.not_mem_nil, or_false] at hmem
    rcases hmem with hmem | rfl | hmem | rfl
    · exact hreserved.ascii char hmem
    · decide
    · exact h.ascii char hmem
    · decide
  · rw [hglyphs]
    simpa using ⟨by simpa using hreserved.oneLine, by simpa using h.oneLine⟩
  · rw [hglyphs]
    simpa using ⟨by simpa using hreserved.uncommented, by simpa using h.uncommented⟩
  · obtain ⟨glyph, gs, hstart, hwhite⟩ := hreserved.starts
    exact ⟨glyph, _, by rw [hglyphs, hstart, List.cons_append], hwhite⟩
  · have hblank (gs : List Glyph) : lexemes (.blank :: gs) = .skipped .blank :: lexemes gs := rfl
    rw [hglyphs, lexemes_append rfl, List.filterMap_append, hreserved.lexed, hblank,
      List.filterMap_cons, lexemes_append rfl, List.filterMap_append, h.lexed]
    rfl

theorem isHeader_else : IsHeader "else:" ([.keyword .«else»] ++ [.colon]) where
  ascii char hmem := by
    have hascii : "else:".toList.all fun char => char.toNat < 128 := by decide
    exact of_decide_eq_true (List.all_eq_true.mp hascii char hmem)
  oneLine := by decide
  uncommented := by decide
  starts := ⟨_, _, rfl, rfl⟩
  lexed := by decide

theorem isHeader_semicolon : IsHeader ";" [] where
  ascii char hmem := by
    rw [List.mem_singleton.mp hmem]
    decide
  oneLine := by decide
  uncommented := by decide
  starts := ⟨_, _, rfl, rfl⟩
  lexed := by decide

section Code

variable {depth count line : Nat} {callable : Callable} {name : String} {body : List Statement}
  {arms : Arms}

theorem Statement.code_doTimes : (Statement.doTimes callable count body line).code depth =
    (depth, Keyword.«do».header (toString count)) :: Block.innerCode (depth + 1) body :=
  rfl

theorem Statement.code_ifElse : (Statement.ifElse callable body arms line).code depth =
    (depth, Keyword.«if».header callable.name) ::
      (Block.innerCode (depth + 1) body ++ arms.code depth) :=
  rfl

theorem Statement.code_whileDo : (Statement.whileDo callable body line).code depth =
    (depth, Keyword.«while».header callable.name) :: Block.innerCode (depth + 1) body :=
  rfl

theorem Statement.code_define : (Statement.define name body line).code depth =
    (depth, Keyword.define.header name) :: Block.innerCode (depth + 1) body :=
  rfl

theorem Arms.code_elif : (Arms.elif callable line body arms).code depth =
    (depth, Keyword.elif.header callable.name) ::
      (Block.innerCode (depth + 1) body ++ arms.code depth) :=
  rfl

end Code

-- ════════════════════════════════════════════════════════════════════════
-- Lines
-- ════════════════════════════════════════════════════════════════════════

/-- The glyphs of a header at a depth. -/
def entryGlyphs (entry : Nat × String) : List Glyph :=
  List.replicate (2 * entry.1) .blank ++ entry.2.toList.map Glyph.ofChar

/-- The line that the scanner sees for a header at a depth. -/
def entryLine (entry : Nat × String) : Line :=
  Line.ofGlyphs (entryGlyphs entry)

/-- The line of a header is as wide as its depth asks for, and has the tokens of the header. -/
theorem IsHeader.entryLine_eq {text : String} {kinds : List TokenKind} (h : IsHeader text kinds)
    (depth : Nat) : ∃ pieces, entryLine (depth, text) = .code (2 * depth) pieces ∧
      ∀ index, textTokens index pieces = kinds.map fun kind => { kind, line := index } := by
  obtain ⟨glyph, gs, hstart, hwhite⟩ := h.starts
  have huncommented : (text.toList.map Glyph.ofChar).takeWhile (· ≠ .hash) =
      text.toList.map Glyph.ofChar := by
    rw [List.takeWhile_eq_self_iff]
    intro found hmem
    have hfound : found ≠ .hash := by
      rintro rfl
      exact h.uncommented hmem
    simpa using hfound
  -- the first glyph of the header is not white, so the line has code, and it ends the indentation
  have hcode : ¬ (text.toList.map Glyph.ofChar).all Glyph.isWhite = true := by
    simp [hstart, hwhite]
  have hwidth : (text.toList.map Glyph.ofChar).takeWhile (· = .blank) = [] := by
    have hblank : glyph ≠ .blank := by
      rintro rfl
      cases hwhite
    rw [hstart, List.takeWhile_cons_of_neg (by simpa using hblank)]
  have hline : Line.ofGlyphs (text.toList.map Glyph.ofChar) =
      .code 0 (lexemes (text.toList.map Glyph.ofChar)) := by
    rw [Line.ofGlyphs, huncommented, if_neg hcode, hwidth, List.length_nil]
  have hindent : entryLine (depth, text) = (Line.ofGlyphs (text.toList.map Glyph.ofChar)).indent
      (2 * depth) := Line.ofGlyphs_replicate_append _ _
  refine ⟨_, hindent.trans (congrArg (Line.indent (2 * depth)) hline), fun index => ?_⟩
  rw [textTokens, filterMap_kind?_indent, h.lexed]

theorem splitLines_append {gs : List Glyph} (h : .newline ∉ gs) (more : List Glyph) :
    splitLines (gs ++ .newline :: more) = gs :: splitLines more := by
  induction gs with
  | nil => rfl
  | cons glyph gs ih =>
    rw [List.mem_cons, not_or] at h
    rw [List.cons_append, splitLines, ih h.2]
    · rfl
    · exact fun hnewline => h.1 hnewline.symm

/-- An ASCII text has one glyph for each character. -/
theorem map_ofByte_utf8EncodeChar {chars : List Char} (h : ∀ char ∈ chars, char.toNat < 128) :
    (chars.flatMap String.utf8EncodeChar).map Glyph.ofByte = chars.map Glyph.ofChar := by
  induction chars with
  | nil => rfl
  | cons char chars ih =>
    have hascii := h char List.mem_cons_self
    have hchar : String.utf8EncodeChar char = [UInt8.ofNat char.toNat] :=
      if_pos (Nat.lt_succ_iff.mp hascii)
    have hbyte : Glyph.ofByte (UInt8.ofNat char.toNat) = Glyph.ofChar char := by
      rw [Glyph.ofByte, UInt8.toNat_ofNat', Nat.mod_eq_of_lt (by omega)]
      rfl
    rw [List.flatMap_cons, hchar, List.map_append, List.map_cons, hbyte,
      ih fun other hmem => h other (List.mem_cons_of_mem char hmem)]
    rfl

theorem toList_codeLine (entry : Nat × String) :
    (codeLine entry).toList =
      List.replicate (2 * entry.1) ' ' ++ entry.2.toList ++ ['\n'] := by
  simp [codeLine]

theorem glyphs_join {entries : List (Nat × String)}
    (h : ∀ entry ∈ entries, ∃ kinds, IsHeader entry.2 kinds) :
    glyphs (String.join (entries.map codeLine)) =
      entries.flatMap fun entry => entryGlyphs entry ++ [.newline] := by
  have hascii : ∀ char ∈ (String.join (entries.map codeLine)).toList, char.toNat < 128 := by
    intro char hmem
    rw [String.toList_join, List.flatMap_map, List.mem_flatMap] at hmem
    obtain ⟨entry, hentry, hmem⟩ := hmem
    obtain ⟨kinds, hheader⟩ := h entry hentry
    rw [toList_codeLine, List.mem_append, List.mem_append, List.mem_replicate,
      List.mem_singleton] at hmem
    rcases hmem with (⟨-, rfl⟩ | hmem) | rfl
    · decide
    · exact hheader.ascii char hmem
    · decide
  rw [glyphs, map_ofByte_utf8EncodeChar hascii, String.toList_join, List.flatMap_map,
    List.map_flatMap]
  congr 1
  funext entry
  rw [toList_codeLine, List.map_append, List.map_append, List.map_replicate]
  rfl

/-- Headers at depths are the lines of the text they make, and behind the last one there is
    nothing. -/
theorem sourceLines_join {entries : List (Nat × String)}
    (h : ∀ entry ∈ entries, ∃ kinds, IsHeader entry.2 kinds) :
    sourceLines (String.join (entries.map codeLine)) = entries.map entryLine ++ [.blank] := by
  rw [sourceLines, glyphs_join h]
  induction entries with
  | nil => rfl
  | cons entry entries ih =>
    obtain ⟨kinds, hheader⟩ := h entry List.mem_cons_self
    have hone : .newline ∉ entryGlyphs entry := by
      rw [entryGlyphs, List.mem_append, not_or]
      exact ⟨fun hmem => (by cases List.eq_of_mem_replicate hmem), hheader.oneLine⟩
    rw [List.flatMap_cons, List.append_assoc, List.singleton_append, splitLines_append hone,
      List.map_cons, ih fun other hmem => h other (List.mem_cons_of_mem entry hmem)]
    rfl

end Karel
