import Karel.Proofs.Layout.Insertion

/-!
# Comments

A comment means nothing. On a line of its own it only moves the lines below it: it opens and closes
no block, and it neither makes a gap nor ends one. Behind code it does not even do that.

## Main results

- `RawLine.toLine_comment` — what a line that holds only a comment is
- `RawLine.toLine_append_comment` — a comment behind code
- `toList_of_comment_added` — the tokens of a text with a comment added
-/

namespace Karel

namespace RawLine

variable {white line : List UInt8}

/-- White and a comment behind it make a line without code, whatever the comment says. -/
theorem toLine_comment (hwhite : white.all isWhite = true) (text : List UInt8) :
    toLine (white ++ 35 :: text) = .comment := by
  have hlogical : isLogical (white ++ 35 :: text) = false := by
    rw [isLogical_eq_false_iff, takeWhile_map_ofByte, takeWhile_append_cons_of_not (by decide),
      List.all_map, List.all_eq_true]
    intro byte hmem
    show (Glyph.ofByte byte).isWhite = true
    rw [Glyph.isWhite_ofByte]
    exact List.all_eq_true.mp hwhite byte ((List.takeWhile_sublist _).subset hmem)
  have hblank : isBlank (white ++ 35 :: text) = false := by
    rw [← Bool.not_eq_true, isBlank_iff]
    rintro ⟨-, hhash⟩
    exact hhash (by simp)
  exact toLine_of_not hlogical hblank

/-- A line with code ends, for the scanner, where a comment begins. -/
theorem toLine_append_comment (hlogical : isLogical line = true) (text : List UInt8) :
    toLine (line ++ 35 :: text) = toLine line := by
  have hglyphs : ((line ++ 35 :: text).map Glyph.ofByte).takeWhile (· ≠ .hash) =
      (line.map Glyph.ofByte).takeWhile (· ≠ .hash) := by
    rw [takeWhile_map_ofByte, takeWhile_map_ofByte, takeWhile_append_cons_of_not (by decide)]
  have hcode : ¬ ((line.map Glyph.ofByte).takeWhile (· ≠ .hash)).all Glyph.isWhite = true := by
    rw [← isLogical_eq_false_iff, hlogical]
    simp
  simp only [toLine, Line.ofGlyphs, hglyphs]
  rw [if_neg hcode, if_neg hcode]

end RawLine

variable {source other : String} {index : Nat} {white line : List UInt8}

/-- The tokens of a text are those of its lines. -/
theorem ofSource_eq_of_sourceLines_eq (h : sourceLines other = sourceLines source) :
    TokenStream.ofSource other = TokenStream.ofSource source := by
  simp only [TokenStream.ofSource, scan, endLine, h]

theorem toList_of_insertIdx_comment (hindex : index < (byteLines source).length)
    (hwhite : white.all RawLine.isWhite = true) (text : List UInt8)
    (hother : byteLines other = (byteLines source).insertIdx index (white ++ 35 :: text)) :
    (TokenStream.ofSource other).toList =
      (TokenStream.ofSource source).toList.map (Token.mapLine (lineBehind index)) := by
  obtain ⟨above, below, rfl, hbelow, hsource, hlines⟩ :=
    exists_sourceLines_of_insertIdx hindex hother
  rw [RawLine.toLine_comment hwhite] at hlines
  -- the margin below a comment is the one above it
  rw [toList_of_sourceLines_insert (by simp) hbelow hlines,
    toList_of_sourceLines_append hsource hbelow]
  rfl

theorem ofSource_of_set_append_comment (hline : (byteLines source)[index]? = some line)
    (hlogical : RawLine.isLogical line = true) (text : List UInt8)
    (hother : byteLines other = (byteLines source).set index (line ++ 35 :: text)) :
    TokenStream.ofSource other = TokenStream.ofSource source := by
  apply ofSource_eq_of_sourceLines_eq
  rw [sourceLines_eq_map, sourceLines_eq_map, hother, List.map_set,
    RawLine.toLine_append_comment hlogical]
  obtain ⟨hindex, rfl⟩ := List.getElem?_eq_some_iff.mp hline
  rw [← List.map_set, List.set_getElem_self]

/-- A comment on a line of its own, with any white in front, moves the tokens of the lines below
    it and changes nothing else. A comment behind the code of a line changes nothing at all. -/
theorem toList_of_comment_added (source other : String) (index : Nat) (text : List UInt8) :
    (∀ white : List UInt8, index < (byteLines source).length →
      white.all RawLine.isWhite = true →
      byteLines other = (byteLines source).insertIdx index (white ++ 35 :: text) →
      (TokenStream.ofSource other).toList =
        (TokenStream.ofSource source).toList.map (Token.mapLine (lineBehind index))) ∧
    ∀ line : List UInt8, (byteLines source)[index]? = some line →
      RawLine.isLogical line = true →
      byteLines other = (byteLines source).set index (line ++ 35 :: text) →
      (TokenStream.ofSource other).toList = (TokenStream.ofSource source).toList := by
  constructor
  · intro white hindex hwhite hother
    exact toList_of_insertIdx_comment hindex hwhite text hother
  · intro line hline hlogical hother
    rw [ofSource_of_set_append_comment hline hlogical text hother]

/-- A comment in a gap of blank lines between a header and its body, and one behind the carriage
    return of a line. -/
theorem toList_of_comment_added_in_gap :
    (TokenStream.ofSource "do 2:\n\n \t# 3\r\n  move\r").toList =
      [⟨.keyword .«do», 0⟩, ⟨.number "2", 0⟩, ⟨.colon, 0⟩, ⟨.newline, 0⟩, ⟨.indent, 3⟩,
        ⟨.newline, 3⟩, ⟨.identifier "move", 3⟩, ⟨.dedent, 3⟩, ⟨.eof, 3⟩] ∧
    (TokenStream.ofSource "do 2:\n\n  move\r#: # 3").toList =
      [⟨.keyword .«do», 0⟩, ⟨.number "2", 0⟩, ⟨.colon, 0⟩, ⟨.newline, 0⟩, ⟨.indent, 2⟩,
        ⟨.newline, 2⟩, ⟨.identifier "move", 2⟩, ⟨.dedent, 2⟩, ⟨.eof, 2⟩] := by
  have htokens : (TokenStream.ofSource "do 2:\n\n  move\r").toList =
      [⟨.keyword .«do», 0⟩, ⟨.number "2", 0⟩, ⟨.colon, 0⟩, ⟨.newline, 0⟩, ⟨.indent, 2⟩,
        ⟨.newline, 2⟩, ⟨.identifier "move", 2⟩, ⟨.dedent, 2⟩, ⟨.eof, 2⟩] := by decide
  have hindex : 2 < (byteLines "do 2:\n\n  move\r").length := by decide
  have hinserted : byteLines "do 2:\n\n \t# 3\r\n  move\r" =
      (byteLines "do 2:\n\n  move\r").insertIdx 2 ([32, 9] ++ 35 :: [32, 51, 13]) := by decide
  have hline : (byteLines "do 2:\n\n  move\r")[2]? =
      some [32, 32, 109, 111, 118, 101, 13] := by decide
  have hlogical : RawLine.isLogical [32, 32, 109, 111, 118, 101, 13] = true := by decide
  have hset : byteLines "do 2:\n\n  move\r#: # 3" = (byteLines "do 2:\n\n  move\r").set 2
      ([32, 32, 109, 111, 118, 101, 13] ++ 35 :: [58, 32, 35, 32, 51]) := by decide
  constructor
  · rw [(toList_of_comment_added _ _ 2 _).1 [32, 9] hindex (by decide) hinserted, htokens]
    rfl
  · rw [(toList_of_comment_added _ _ 2 _).2 _ hline hlogical hset, htokens]

end Karel
