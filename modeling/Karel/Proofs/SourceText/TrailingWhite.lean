import Karel.Proofs.Layout.Reindentation
import Karel.Proofs.SourceText.Concatenation

/-!
# White at the ends of lines

White behind the last glyph of a line means nothing, whether the line has code, holds a comment or
is blank. So a text may have white put behind any of its lines, and in particular its lines may be
ended by a carriage return and a line feed.

## Main definitions

- `RawLine.Trailed` — a line with white put behind it
- `withReturns` — a text with a carriage return in front of each line feed

## Main results

- `RawLine.Trailed.respaced` — white behind a line does not change what the line is
- `trailed_splitOn` — the lines of a text with carriage returns
- `toList_of_trailing_white` — the tokens of a text with white behind its lines
-/

namespace Karel

/-- A line with white put behind it. -/
def RawLine.Trailed (line other : List UInt8) : Prop :=
  ∃ white, white.all isWhite = true ∧ other = line ++ white

/-- A text with a carriage return in front of each line feed. -/
def withReturns (source : String) : String :=
  String.ofList (source.toList.flatMap fun char => if char = '\n' then ['\r', '\n'] else [char])

/-- A byte, with a carriage return in front of it if it is a line feed. -/
def returned (byte : UInt8) : List UInt8 :=
  if byte = 10 then [13, 10] else [byte]

variable {gs white : List Glyph} {line other : List UInt8}

-- ════════════════════════════════════════════════════════════════════════
-- Lines
-- ════════════════════════════════════════════════════════════════════════

theorem Glyph.ne_hash_of_isWhite {glyph : Glyph} (h : glyph.isWhite = true) : glyph ≠ .hash := by
  rintro rfl
  cases h

theorem filterMap_kind?_lexemes_append_white (h : white.all Glyph.isWhite = true)
    (gs : List Glyph) :
    (lexemes (gs ++ white)).filterMap Lexeme.kind? = (lexemes gs).filterMap Lexeme.kind? := by
  cases white with
  | nil => rw [List.append_nil]
  | cons glyph white =>
    have hglyph : glyph.isWhite = true := List.all_eq_true.mp h glyph List.mem_cons_self
    rw [lexemes_append (Glyph.isWordGlyph_of_isWhite hglyph), List.filterMap_append,
      filterMap_kind?_lexemes_white h, List.append_nil]

/-- A list that is not all white keeps its blanks in front when white is put behind it. -/
theorem takeWhile_blank_append (hcode : ¬ gs.all Glyph.isWhite = true) (white : List Glyph) :
    (gs ++ white).takeWhile (· = .blank) = gs.takeWhile (· = .blank) := by
  rw [List.takeWhile_append, if_neg]
  intro hlength
  have hblank : gs.takeWhile (· = .blank) = gs :=
    (List.takeWhile_prefix _).eq_of_length hlength
  refine hcode (List.all_eq_true.mpr fun glyph hmem => ?_)
  have hglyph := List.takeWhile_eq_self_iff.mp hblank glyph hmem
  rw [of_decide_eq_true hglyph]
  rfl

/-- What a line is does not change with the white behind it. -/
theorem Line.respaced_append_white (h : white.all Glyph.isWhite = true) (gs : List Glyph) :
    Respaced id (ofGlyphs gs) (ofGlyphs (gs ++ white)) := by
  have hnot : .hash ∉ white := fun hmem =>
    Glyph.ne_hash_of_isWhite (List.all_eq_true.mp h _ hmem) rfl
  have hmem : .hash ∈ gs ++ white ↔ .hash ∈ gs := by simp [hnot]
  by_cases hhash : .hash ∈ gs
  · -- the white is a part of the comment
    obtain ⟨front, comment, rfl⟩ := List.append_of_mem hhash
    have htext : (front ++ .hash :: comment ++ white).takeWhile (· ≠ .hash) =
        (front ++ .hash :: comment).takeWhile (· ≠ .hash) := by
      rw [List.append_assoc, List.cons_append, RawLine.takeWhile_append_cons_of_not (by simp),
        RawLine.takeWhile_append_cons_of_not (by simp)]
    simp only [ofGlyphs, htext, hmem, if_pos hhash]
    split
    · exact .comment
    · exact .code _ rfl
  · have htext {gs : List Glyph} (hgs : .hash ∉ gs) : gs.takeWhile (· ≠ .hash) = gs :=
      List.takeWhile_eq_self_iff.mpr fun glyph hmem => by
        rw [decide_eq_true_eq]
        rintro rfl
        exact hgs hmem
    have hall : (gs ++ white).all Glyph.isWhite = gs.all Glyph.isWhite := by
      rw [List.all_append, h, Bool.and_true]
    simp only [ofGlyphs, htext hhash, htext (mt hmem.mp hhash), hall, hmem, if_neg hhash]
    split
    · exact .blank
    · next hcode =>
      rw [takeWhile_blank_append hcode]
      exact .code _ (filterMap_kind?_lexemes_append_white h gs).symm

theorem RawLine.Trailed.respaced (h : Trailed line other) :
    Line.Respaced id (toLine line) (toLine other) := by
  obtain ⟨white, hwhite, rfl⟩ := h
  rw [toLine, toLine, List.map_append]
  refine Line.respaced_append_white ?_ _
  rw [List.all_map, List.all_eq_true]
  intro byte hmem
  exact (Glyph.isWhite_ofByte byte).trans (List.all_eq_true.mp hwhite byte hmem)

-- ════════════════════════════════════════════════════════════════════════
-- Carriage returns
-- ════════════════════════════════════════════════════════════════════════

theorem RawLine.Trailed.cons (h : Trailed line other) (byte : UInt8) :
    Trailed (byte :: line) (byte :: other) := by
  obtain ⟨white, hwhite, rfl⟩ := h
  exact ⟨white, hwhite, rfl⟩

theorem forall₂_trailed_modifyHead {lines others : List (List UInt8)} (byte : UInt8)
    (h : List.Forall₂ RawLine.Trailed lines others) :
    List.Forall₂ RawLine.Trailed (lines.modifyHead (byte :: ·))
      (others.modifyHead (byte :: ·)) := by
  cases h with
  | nil => exact .nil
  | cons hfirst hothers => exact .cons (hfirst.cons byte) hothers

/-- A carriage return in front of each line feed stands behind all lines but the last one. -/
theorem trailed_splitOn (bytes : List UInt8) :
    List.Forall₂ RawLine.Trailed (bytes.splitOn 10)
      ((bytes.flatMap returned).splitOn 10) := by
  induction bytes with
  | nil => exact .cons ⟨[], rfl, rfl⟩ .nil
  | cons byte bytes ih =>
    rw [List.flatMap_cons, List.splitOn_cons_eq_if_modifyHead, returned]
    by_cases hbyte : byte = 10
    · rw [if_pos hbyte, if_pos (by simpa using hbyte), List.cons_append, List.cons_append,
        List.nil_append, List.splitOn_cons_eq_if_modifyHead, if_neg (by decide),
        List.splitOn_cons_eq_if_modifyHead, if_pos (by decide)]
      exact .cons ⟨[13], rfl, rfl⟩ ih
    · rw [if_neg hbyte, if_neg (by simpa using hbyte), List.cons_append, List.nil_append,
        List.splitOn_cons_eq_if_modifyHead, if_neg (by simpa using hbyte)]
      exact forall₂_trailed_modifyHead byte ih

theorem trailed_byteLines_withReturns (source : String) :
    List.Forall₂ RawLine.Trailed (byteLines source) (byteLines (withReturns source)) := by
  have hchar (char : Char) :
      (if char = '\n' then ['\r', '\n'] else [char]).flatMap String.utf8EncodeChar =
        (String.utf8EncodeChar char).flatMap returned := by
    by_cases hnewline : char = '\n'
    · rw [hnewline]
      rfl
    · have hnot : 10 ∉ String.utf8EncodeChar char := by
        rw [← List.count_eq_zero, count_utf8EncodeChar, List.count_eq_zero, List.mem_singleton]
        exact fun heq => hnewline heq.symm
      have hsame : ∀ byte ∈ String.utf8EncodeChar char, returned byte = [byte] := by
        intro byte hmem
        rw [returned, if_neg]
        rintro rfl
        exact hnot hmem
      rw [if_neg hnewline, List.flatMap_singleton, List.flatMap_congr hsame,
        List.flatMap_singleton']
  have hbytes : (withReturns source).toList.flatMap String.utf8EncodeChar =
      (source.toList.flatMap String.utf8EncodeChar).flatMap returned := by
    rw [withReturns, String.toList_ofList, List.flatMap_assoc, List.flatMap_assoc]
    exact List.flatMap_congr fun char _ => hchar char
  rw [byteLines, byteLines, hbytes]
  exact trailed_splitOn _

-- ════════════════════════════════════════════════════════════════════════
-- A source text
-- ════════════════════════════════════════════════════════════════════════

theorem ofSource_of_trailed {source text : String}
    (h : List.Forall₂ RawLine.Trailed (byteLines source) (byteLines text)) :
    TokenStream.ofSource text = TokenStream.ofSource source :=
  ofSource_of_respaced strictMono_id rfl (fun _ _ => RawLine.Trailed.respaced) h

/-- White behind the lines of a text changes none of its tokens and moves none, wherever it is put,
    and nor does a carriage return in front of each line feed. -/
theorem toList_of_trailing_white (source : String) :
    (∀ text, List.Forall₂ RawLine.Trailed (byteLines source) (byteLines text) →
      (TokenStream.ofSource text).toList = (TokenStream.ofSource source).toList) ∧
    (TokenStream.ofSource (withReturns source)).toList = (TokenStream.ofSource source).toList := by
  constructor
  · intro text h
    rw [ofSource_of_trailed h]
  · rw [ofSource_of_trailed (trailed_byteLines_withReturns source)]

/-- White is put behind a header, on a blank line that becomes wider, behind a comment, and behind a
    carriage return. -/
theorem toList_of_trailing_white_everywhere :
    (TokenStream.ofSource "do 2: \t\n  \t\n  move\r\x0c\r\n # 3 \r").toList =
      [⟨.keyword .«do», 0⟩, ⟨.number "2", 0⟩, ⟨.colon, 0⟩, ⟨.newline, 0⟩, ⟨.indent, 2⟩,
        ⟨.newline, 2⟩, ⟨.identifier "move", 2⟩, ⟨.newline, 2⟩, ⟨.dedent, 3⟩, ⟨.eof, 3⟩] ∧
    (TokenStream.ofSource "do 2:\r\n\r\n  move\r\r\n # 3").toList =
      [⟨.keyword .«do», 0⟩, ⟨.number "2", 0⟩, ⟨.colon, 0⟩, ⟨.newline, 0⟩, ⟨.indent, 2⟩,
        ⟨.newline, 2⟩, ⟨.identifier "move", 2⟩, ⟨.newline, 2⟩, ⟨.dedent, 3⟩, ⟨.eof, 3⟩] := by
  have htokens : (TokenStream.ofSource "do 2:\n\n  move\r\n # 3").toList =
      [⟨.keyword .«do», 0⟩, ⟨.number "2", 0⟩, ⟨.colon, 0⟩, ⟨.newline, 0⟩, ⟨.indent, 2⟩,
        ⟨.newline, 2⟩, ⟨.identifier "move", 2⟩, ⟨.newline, 2⟩, ⟨.dedent, 3⟩, ⟨.eof, 3⟩] := by decide
  have hreturns : withReturns "do 2:\n\n  move\r\n # 3" = "do 2:\r\n\r\n  move\r\r\n # 3" := by
    decide
  have hsource : byteLines "do 2:\n\n  move\r\n # 3" =
      [[100, 111, 32, 50, 58], [], [32, 32, 109, 111, 118, 101, 13], [32, 35, 32, 51]] := by decide
  have htext : byteLines "do 2: \t\n  \t\n  move\r\x0c\r\n # 3 \r" =
      [[100, 111, 32, 50, 58] ++ [32, 9], [] ++ [32, 32, 9],
        [32, 32, 109, 111, 118, 101, 13] ++ [12, 13], [32, 35, 32, 51] ++ [32, 13]] := by decide
  have hlines : List.Forall₂ RawLine.Trailed (byteLines "do 2:\n\n  move\r\n # 3")
      (byteLines "do 2: \t\n  \t\n  move\r\x0c\r\n # 3 \r") := by
    rw [hsource, htext]
    exact .cons ⟨_, rfl, rfl⟩ (.cons ⟨_, rfl, rfl⟩ (.cons ⟨_, rfl, rfl⟩
      (.cons ⟨_, rfl, rfl⟩ .nil)))
  obtain ⟨htrailed, hreturned⟩ := toList_of_trailing_white "do 2:\n\n  move\r\n # 3"
  rw [hreturns] at hreturned
  exact ⟨(htrailed _ hlines).trans htokens, hreturned.trans htokens⟩

end Karel
