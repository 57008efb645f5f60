import Karel.Proofs.Parse.Following
import Karel.Proofs.SourceText.Concatenation
import Karel.Proofs.Tree.Terminators

/-!
# The end of the last line

The last line of a program may be ended by a line feed or not. With the line feed, a last line of
code ends in a `newline`, and the blocks that are open there are closed on the empty line behind it,
neither of which matters to the tree.

## Main results

- `terminated_ended` — the tokens of a text with a line feed behind it
- `parseProgram_append_newline` — the program of such a text
-/

namespace Karel

open Grammar

variable {margin : Margin} {index : Nat} {lines : List Line}

theorem endedTokens_concat (line : Line) :
    endedTokens margin index (lines ++ [line]) =
      endedTokens margin index lines ++
        (margin.below lines).tokens (index + lines.length) true line := by
  induction lines generalizing margin index with
  | nil => exact List.append_nil _
  | cons first lines ih =>
    rw [List.cons_append, endedTokens, endedTokens, ih, List.append_assoc, List.length_cons,
      Nat.add_assoc, Nat.add_comm 1]
    rfl

theorem Margin.below_concat (margin : Margin) (lines : List Line) (line : Line) :
    margin.below (lines ++ [line]) = (margin.below lines).after line := by
  rw [below, List.foldl_append]
  rfl

/-- A line with code ends in a `newline` if it is ended, and other lines have no tokens. -/
theorem Margin.tokens_ended (margin : Margin) (index : Nat) (line : Line) :
    margin.tokens index true line = margin.tokens index false line ∨
      margin.tokens index true line = margin.tokens index false line ++ [⟨.newline, index⟩] := by
  cases line with
  | blank | comment => exact .inl rfl
  | code width pieces =>
    right
    rw [tokens_code, tokens_code, if_pos rfl, if_neg Bool.false_ne_true, List.append_nil]

/-- A line feed behind a text puts a `newline` in front of the tokens that end the input, or
    nothing. -/
theorem terminated_ended (source : String) :
    Terminated (TokenStream.ofSource source).toList
      (TokenStream.ofSource (source ++ "\n")).toList := by
  obtain ⟨above, last, hlines⟩ :=
    (List.eq_nil_or_concat (sourceLines source)).resolve_left (sourceLines_ne_nil source)
  rw [List.concat_eq_append] at hlines
  have hscan : scanLines (Margin.initial.below above) above.length [last] =
      (Margin.initial.below above).tokens above.length false last ++
        ((Margin.initial.below above).after last).closing above.length := rfl
  rw [toList_ended, toList_of_sourceLines_append hlines (List.cons_ne_nil _ _), hlines, hscan,
    endedTokens_concat, Margin.below_concat, Margin.closing_eq_replicate, Nat.zero_add,
    List.append_assoc, List.append_assoc, List.length_append]
  refine Terminated.append ?_ _
  rcases Margin.tokens_ended (Margin.initial.below above) above.length last with htokens | htokens
  · rw [htokens]
    exact (Terminated.ended _ _ _).append _
  · rw [htokens, List.append_assoc]
    exact (Terminated.newline_ended _ _ _ _).append _

/-- A line feed at the end of a text does not matter: the text is a program with it if it is one
    without it, and the tree is the same, on the same lines. -/
theorem parseProgram_append_newline (capabilities : Capabilities) (source : String)
    (block : Block) :
    parseProgram capabilities (source ++ "\n") = .ok block ↔
      parseProgram capabilities source = .ok block := by
  have hended {block : Block} (h : parseProgram capabilities source = .ok block) :
      parseProgram capabilities (source ++ "\n") = .ok block := by
    rw [parseProgram_eq_ok_iff] at h ⊢
    obtain ⟨derivation⟩ := h
    exact derivation.replay_terminated (terminated_ended source)
  constructor
  · intro h
    -- the text is a program without the line feed, and with it that has only one tree
    have hrun := Parse.run_toList capabilities (source ++ "\n")
    rw [h] at hrun
    have hbefore := Outlook.run_of_terminated (terminated_ended source) hrun
    rw [Parse.run_toList] at hbefore
    cases hparse : parseProgram capabilities source with
    | ok other => rw [← h, hended hparse]
    | error error =>
      rw [hparse] at hbefore
      cases hbefore
  · exact hended

end Karel
