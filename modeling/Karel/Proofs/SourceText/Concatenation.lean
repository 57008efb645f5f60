import Karel.Proofs.Layout.Characters
import Karel.Proofs.Layout.Restart
import Karel.Proofs.Parse.Agreement
import Karel.Proofs.Tree.Replay

/-!
# Programs one behind the other

Two program texts one behind the other, the first one ended by a line feed, are a program again, and
its statements are those of the first text and those of the second one, on later lines. The tokens
of the two texts are not simply put together: the blocks that are open at the end of the first text
are closed on a line of the second one, and blank lines between the two become a `newline`.

## Main results

- `byteLines_append_newline`, `length_byteLines` — the lines of a text, and how many there are
- `toList_append_newline` — the tokens of two texts one behind the other
- `parseProgram_append` — the program of two texts one behind the other
-/

namespace Karel

-- ════════════════════════════════════════════════════════════════════════
-- Lines
-- ════════════════════════════════════════════════════════════════════════

/-- Only a line feed has the byte of a line feed, as the bytes of a character outside ASCII are
    larger. -/
theorem count_utf8EncodeChar (char : Char) :
    (String.utf8EncodeChar char).count 10 = [char].count '\n' := by
  by_cases hchar : char = '\n'
  · rw [hchar]
    rfl
  · have hnot : (10 : UInt8) ∉ String.utf8EncodeChar char := by
      intro hmem
      have hglyph : Glyph.newline ∈ charGlyphs [char] :=
        List.mem_map.mpr ⟨10, by rwa [List.flatMap_singleton], rfl⟩
      exact hchar (Glyph.ofChar_eq_newline_iff.mp (eq_ofChar_of_mem_charGlyphs hglyph).symm)
    rw [List.count_eq_zero_of_not_mem hnot, List.count_eq_zero_of_not_mem]
    simpa using Ne.symm hchar

theorem length_splitOn_newline (bytes : List UInt8) :
    (bytes.splitOn 10).length = bytes.count 10 + 1 := by
  induction bytes with
  | nil => rfl
  | cons byte bytes ih =>
    rw [List.splitOn_cons_eq_if_modifyHead, List.count_cons]
    split
    · rw [List.length_cons, ih]
    · rw [List.length_modifyHead, ih, Nat.add_zero]

/-- A text has one line more than it has line feeds. -/
theorem length_byteLines (source : String) :
    (byteLines source).length = source.toList.count '\n' + 1 := by
  have hcount (chars : List Char) :
      (chars.flatMap String.utf8EncodeChar).count 10 = chars.count '\n' := by
    induction chars with
    | nil => rfl
    | cons char chars ih =>
      rw [List.flatMap_cons, List.count_append, ih, count_utf8EncodeChar, ← List.count_append]
      rfl
  rw [byteLines, length_splitOn_newline, hcount]

/-- Behind a line feed the lines of a text are those of what follows it. -/
theorem byteLines_append_newline (text more : String) :
    byteLines (text ++ "\n" ++ more) = byteLines text ++ byteLines more := by
  have hbytes : (text ++ "\n" ++ more).toList.flatMap String.utf8EncodeChar =
      text.toList.flatMap String.utf8EncodeChar ++
        10 :: more.toList.flatMap String.utf8EncodeChar := by
    rw [String.toList_append, String.toList_append, List.flatMap_append, List.flatMap_append,
      List.append_assoc]
    rfl
  rw [byteLines, hbytes, List.splitOn_append_cons_self]
  rfl

theorem sourceLines_append_newline (text more : String) :
    sourceLines (text ++ "\n" ++ more) = sourceLines text ++ sourceLines more := by
  rw [sourceLines_eq_map, byteLines_append_newline, List.map_append, ← sourceLines_eq_map,
    ← sourceLines_eq_map]

theorem length_sourceLines (text : String) :
    (sourceLines text).length = (text ++ "\n").toList.count '\n' := by
  rw [sourceLines_eq_map, List.length_map, length_byteLines, String.toList_append,
    List.count_append]
  rfl

-- ════════════════════════════════════════════════════════════════════════
-- Tokens
-- ════════════════════════════════════════════════════════════════════════

/-- The tokens of a text that ends in a line feed. -/
theorem toList_ended (text : String) :
    (TokenStream.ofSource (text ++ "\n")).toList =
      endedTokens Margin.initial 0 (sourceLines text) ++
        (List.replicate (Margin.initial.below (sourceLines text)).levels.length
            ⟨.dedent, (sourceLines text).length⟩ ++
          [Token.endOfInput (sourceLines text).length]) := by
  have hlines : sourceLines (text ++ "\n") = sourceLines text ++ [.blank] := by
    have happend := sourceLines_append_newline text ""
    rwa [String.append_empty] at happend
  rw [toList_of_sourceLines_append hlines (List.cons_ne_nil _ _)]
  have hclosing := Margin.closing_eq_replicate
    (Margin.initial.below (sourceLines text)) (sourceLines text).length
  rw [← hclosing]
  rfl

/-- The tokens of a text behind another one that ends in a line feed: the blocks that are open there
    are closed, there may be a gap, and then the tokens are those of the text itself. -/
theorem toList_append_newline (text : String) {second : String}
    (hstart : ∀ token ∈ (scan second).head?, token.kind ≠ .indent) :
    ∃ line gap, (gap = [] ∨ gap = [⟨.newline, line⟩]) ∧
      (TokenStream.ofSource (text ++ "\n" ++ second)).toList =
        endedTokens Margin.initial 0 (sourceLines text) ++
          (List.replicate (Margin.initial.below (sourceLines text)).levels.length
              ⟨.dedent, line⟩ ++
            (gap ++ ((scan second).map (Token.mapLine (· + (sourceLines text).length)) ++
              [Token.endOfInput ((sourceLines text).length + endLine second)]))) := by
  have hpos : ∀ level ∈ (Margin.initial.below (sourceLines text)).levels, 0 < level :=
    fun level => Margin.pos_of_mem_levels_below (fun level hmem => by cases hmem)
  have hscan : scanLines Margin.initial (sourceLines text).length (sourceLines second) =
      (scan second).map (Token.mapLine (· + (sourceLines text).length)) := by
    rw [scan, ← scanLines_add, Nat.zero_add]
  have hhead : ∀ token ∈
      (scanLines Margin.initial (sourceLines text).length (sourceLines second)).head?,
      token.kind ≠ .indent := by
    intro token hmem
    rw [hscan, List.head?_map, Option.mem_def, Option.map_eq_some_iff] at hmem
    obtain ⟨first, hfirst, rfl⟩ := hmem
    exact hstart first hfirst
  obtain ⟨line, gap, hgap, heq⟩ := scanLines_restart hpos (sourceLines_ne_nil second) hhead
  refine ⟨line, gap, hgap, ?_⟩
  rw [toList_of_sourceLines_append (sourceLines_append_newline text second)
    (sourceLines_ne_nil second), heq, hscan]
  simp only [List.append_assoc, endLine]

-- ════════════════════════════════════════════════════════════════════════
-- Derivations
-- ════════════════════════════════════════════════════════════════════════

namespace Grammar

variable {capabilities : Capabilities} {tokens : List Token} {block : Block}

/-- A program does not begin with an `indent`. -/
theorem BlockDerivation.kind_head?_ne_indent {line : Nat}
    (derivation : BlockDerivation capabilities tokens block [Token.endOfInput line]) :
    ∀ token ∈ tokens.head?, token.kind ≠ .indent := by
  intro token hmem hindent
  cases derivation with
  | nil =>
    rw [← Option.some.inj hmem] at hindent
    cases hindent
  | newline =>
    rw [← Option.some.inj hmem] at hindent
    cases hindent
  | cons first =>
    obtain ⟨begin, behind, rfl, hbegins, -⟩ := first.exists_cons
    rw [← Option.some.inj hmem] at hindent
    rw [hindent] at hbegins
    cases hbegins

theorem BlockDerivation.behind_gap {rest gap : List Token} {line : Nat}
    (derivation : BlockDerivation capabilities tokens block rest)
    (hgap : gap = [] ∨ gap = [⟨.newline, line⟩]) :
    Nonempty (BlockDerivation capabilities (gap ++ tokens) block rest) := by
  rcases hgap with rfl | rfl
  · exact ⟨derivation⟩
  · exact ⟨.newline derivation⟩

end Grammar

open Grammar

/-- The tokens of lines above a cut are told again where the open blocks are closed on another line
    and something follows. -/
theorem retells_endedTokens (margin : Margin) (index : Nat) (lines : List Line)
    (tail : List Token) (count line toldLine : Nat) :
    Retells id tail
      (endedTokens margin index lines ++
        (List.replicate count ⟨.dedent, line⟩ ++ [Token.endOfInput line]))
      (endedTokens margin index lines ++
        (List.replicate count ⟨.dedent, toldLine⟩ ++ tail)) := by
  have hclosed := (Retells.ended line : Retells id tail _ _).dedents count line toldLine
  have hstops : ∀ last ∈ (endedTokens margin index lines).getLast?,
      last.kind.isVisible = false := by
    intro last hlast
    rw [kind_getLast?_endedTokens hlast]
    rfl
  have hretells := hclosed.append _ (fun _ => kind_ne_eof_of_mem_endedTokens) (.inr hstops)
  rwa [show Token.mapLine id = id from rfl, List.map_id] at hretells

/-- The tokens of a text are told again on lines further down. -/
theorem retells_scan (second : String) (count line last : Nat) :
    Retells (· + count) [Token.endOfInput last] (scan second ++ [Token.endOfInput line])
      ((scan second).map (Token.mapLine (· + count)) ++ [Token.endOfInput last]) :=
  Retells.append (.ended line) _ (fun _ => kind_ne_eof_of_mem_scan) (.inl (.eof last []))

variable {capabilities : Capabilities} {first second : String} {block others : Block}

/-- Programs may be put one behind the other, if the first one is empty or ends in a line feed. The
    statements of the second one move down by the number of line feeds in the first one. -/
theorem parseProgram_append (hended : first = "" ∨ ∃ text, first = text ++ "\n")
    (hfirst : parseProgram capabilities first = .ok block)
    (hsecond : parseProgram capabilities second = .ok others) :
    parseProgram capabilities (first ++ second) =
      .ok (block ++ Block.mapLines (· + first.toList.count '\n') others) := by
  rcases hended with rfl | ⟨text, rfl⟩
  · have hempty : parseProgram capabilities "" = .ok [] := rfl
    obtain rfl : [] = block := Except.ok.inj (hempty.symm.trans hfirst)
    rw [String.empty_append, hsecond]
    exact congrArg Except.ok (Block.mapLines_id others).symm
  · rw [← length_sourceLines, parseProgram_eq_ok_iff]
    rw [parseProgram_eq_ok_iff] at hfirst hsecond
    obtain ⟨⟨_, above⟩⟩ := hfirst
    obtain ⟨⟨_, root⟩⟩ := hsecond
    have hstart : ∀ token ∈ (scan second).head?, token.kind ≠ .indent := by
      intro token hmem
      have hhead : (TokenStream.ofSource second).toList.head? =
          (scan second).head?.or (some _) := List.head?_append
      refine root.kind_head?_ne_indent token ?_
      rw [hhead, Option.mem_def.mp hmem]
      rfl
    obtain ⟨line, gap, hgap, htokens⟩ := toList_append_newline text hstart
    obtain ⟨below⟩ := root.replay_root (retells_scan second (sourceLines text).length
      (endLine second) ((sourceLines text).length + endLine second))
    obtain ⟨below⟩ := below.behind_gap hgap
    rw [toList_ended] at above
    obtain ⟨above⟩ := above.replay_root (retells_endedTokens _ _ _ _ _ _ line)
    rw [Block.mapLines_id] at above
    rw [htokens]
    exact ⟨{ endLine := _, root := above.append below }⟩

/-- The first text ends inside an `if`, below a blank line and a comment. The second one begins with
    a blank line, has arms of its own, and ends without a line feed. -/
theorem parseProgram_append_behind_open_if :
    (∃ text, "if facing_east:\n  do 2:\n    move\n\n  # no\n" = text ++ "\n") ∧
    parseProgram Capabilities.standard "if facing_east:\n  do 2:\n    move\n\n  # no\n" =
      .ok [.ifElse (.condition "facing_east")
        [.doTimes .repetition 2 [.command (.command "move") 2] 1] .done 0] ∧
    parseProgram Capabilities.standard "\nif facing_west:\n  jump\nelif facing_east:\n  leap" =
      .ok [.ifElse (.condition "facing_west") [.call "jump" 2]
        (.elif (.condition "facing_east") 3 [.call "leap" 4] .done) 1] ∧
    parseProgram Capabilities.standard
      ("if facing_east:\n  do 2:\n    move\n\n  # no\n" ++
        "\nif facing_west:\n  jump\nelif facing_east:\n  leap") =
      .ok [.ifElse (.condition "facing_east")
          [.doTimes .repetition 2 [.command (.command "move") 2] 1] .done 0,
        .ifElse (.condition "facing_west") [.call "jump" 7]
          (.elif (.condition "facing_east") 8 [.call "leap" 9] .done) 6] := by
  have hended : ∃ text, "if facing_east:\n  do 2:\n    move\n\n  # no\n" = text ++ "\n" :=
    ⟨"if facing_east:\n  do 2:\n    move\n\n  # no", rfl⟩
  have hfirst : parseProgram Capabilities.standard
      "if facing_east:\n  do 2:\n    move\n\n  # no\n" =
        .ok [.ifElse (.condition "facing_east")
          [.doTimes .repetition 2 [.command (.command "move") 2] 1] .done 0] := rfl
  have hsecond : parseProgram Capabilities.standard
      "\nif facing_west:\n  jump\nelif facing_east:\n  leap" =
        .ok [.ifElse (.condition "facing_west") [.call "jump" 2]
          (.elif (.condition "facing_east") 3 [.call "leap" 4] .done) 1] := rfl
  exact ⟨hended, hfirst, hsecond, parseProgram_append (.inr hended) hfirst hsecond⟩

end Karel
