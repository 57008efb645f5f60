import Karel.Proofs.Parse.Agreement
import Karel.Proofs.Parse.Faults

/-!
# Progress

No step of reading goes back, also where it fails: what it leaves is an end of what it was given.
A block does not move only where it is closed at once, so a program that is rejected has lost at
least one token, and one that is read has lost them all.

## Main definitions

- `Parse.IsForward` — a step that leaves an end of the tokens, whether it fails or not

## Main results

- `Parse.isForward_block_and_isForward_arms` — the recursive steps
- `Parse.rest_program` — a program takes in its first token
- `Parse.length_rest_program_of_fails` — what a program that is rejected leaves
- `Parse.rest_program_of_ok` — what a program that is read leaves
-/

namespace Karel.Parse

variable {α β : Type} {context : ParseContext} {tokens : List Token}

/-- A step leaves an end of the tokens, whether it fails or not. -/
def IsForward (step : Parse α) : Prop :=
  ∀ context tokens, (step context tokens).rest <:+ tokens

theorem IsForward.suffix_of_reads {step : Parse α} {value : α} {rest : List Token}
    (hstep : IsForward step) (h : Reads step context tokens value rest) : rest <:+ tokens :=
  h.2 ▸ hstep context tokens

theorem isForward_pure (value : α) : IsForward (pure value) :=
  fun _ _ => List.suffix_rfl

theorem isForward_fail (fault : ParseFault) (found : Token) :
    IsForward (fail fault found : Parse α) :=
  fun _ _ => List.suffix_rfl

theorem isForward_peek : IsForward peek :=
  fun _ _ => List.suffix_rfl

theorem isForward_next : IsForward next :=
  fun _ tokens => List.tail_suffix tokens

theorem isForward_capabilities : IsForward capabilities :=
  fun _ _ => List.suffix_rfl

theorem isForward_report (shadowing : Shadowing) : IsForward (report shadowing) :=
  fun _ _ => List.suffix_rfl

theorem isForward_newlines : IsForward newlines :=
  fun _ _ => List.dropWhile_suffix _

/-- Two steps leave no more than the first one leaves, if the second goes forward. -/
theorem rest_bind_suffix {first : Parse α} {second : α → Parse β} {ahead : List Token}
    (hfirst : (first context tokens).rest <:+ ahead) (hsecond : ∀ value, IsForward (second value)) :
    ((first >>= second) context tokens).rest <:+ ahead := by
  cases hresult : (first context tokens).result with
  | error error => simpa [Bind.bind, Parse.bind, hresult] using hfirst
  | ok value =>
    have hrest := hsecond value context (first context tokens).rest
    simpa [Bind.bind, Parse.bind, hresult] using hrest.trans hfirst

theorem IsForward.bind {first : Parse α} {second : α → Parse β} (hfirst : IsForward first)
    (hsecond : ∀ value, IsForward (second value)) : IsForward (first >>= second) :=
  fun context tokens => rest_bind_suffix (hfirst context tokens) hsecond

/-- Two steps leave what the second one leaves, if the first one does not fail. -/
theorem rest_bind_of_reads {first : Parse α} {second : α → Parse β} {value : α}
    {middle : List Token} (h : Reads first context tokens value middle) :
    ((first >>= second) context tokens).rest = (second value context middle).rest := by
  obtain ⟨hresult, rfl⟩ := h
  simp [Bind.bind, Parse.bind, hresult]

/-- A step that begins with a token takes it in. -/
theorem rest_next_bind {second : Token → Parse β} (h : ∀ token, IsForward (second token)) :
    ((next >>= second) context tokens).rest <:+ tokens.tail :=
  h (firstToken context tokens) context tokens.tail

-- ════════════════════════════════════════════════════════════════════════
-- The pieces of a statement
-- ════════════════════════════════════════════════════════════════════════

theorem rest_expect (kind : TokenKind) (fault : ParseFault) :
    (expect kind fault context tokens).rest <:+ tokens.tail := by
  apply rest_next_bind
  intro token
  split
  · exact isForward_pure ()
  · exact isForward_fail fault token

theorem isForward_expect (kind : TokenKind) (fault : ParseFault) :
    IsForward (expect kind fault) :=
  fun _ tokens => (rest_expect kind fault).trans (List.tail_suffix tokens)

theorem isForward_endOfStatement : IsForward endOfStatement := by
  refine isForward_peek.bind fun token => ?_
  split
  · exact isForward_next.bind fun _ => isForward_pure ()
  · exact isForward_pure ()
  · exact isForward_pure ()
  · exact isForward_fail .expectedNewline token

theorem isForward_simple (name : String) (line : Nat) : IsForward (simple name line) := by
  refine isForward_capabilities.bind fun offered => isForward_endOfStatement.bind fun _ => ?_
  split
  · exact isForward_pure _
  · exact isForward_pure _

theorem isForward_count : IsForward count := by
  refine isForward_next.bind fun token => ?_
  split
  · exact isForward_pure _
  · exact isForward_fail .expectedNumber token

theorem isForward_condition (after : Keyword) : IsForward (condition after) := by
  refine isForward_next.bind fun token => ?_
  split
  · refine isForward_capabilities.bind fun offered => ?_
    split
    · exact isForward_pure _
    · exact isForward_fail _ token
  · exact isForward_fail (.expectedCondition after) token

theorem isForward_procedureName (line : Nat) : IsForward (procedureName line) := by
  refine isForward_next.bind fun token => ?_
  split
  · refine isForward_capabilities.bind fun offered => ?_
    split
    · exact (isForward_report _).bind fun _ => isForward_pure _
    · exact isForward_pure _
  · exact isForward_fail .expectedProcedureName token

variable {block : Parse Block} {arms : Parse Arms}

theorem IsForward.body (hblock : IsForward block) : IsForward (body block) := by
  refine (isForward_expect _ _).bind fun _ => isForward_next.bind fun token => ?_
  split
  · refine (isForward_expect _ _).bind fun _ => hblock.bind fun statements => ?_
    exact (isForward_expect _ _).bind fun _ => isForward_pure statements
  · exact isForward_fail .expectedBlock token
  · exact isForward_fail .expectedNewline token

/-- A header goes forward together with its body. -/
theorem IsForward.header {step : Parse α} {make : α → Block → β} (hstep : IsForward step)
    (hblock : IsForward block) :
    IsForward (do
      let found ← step
      let statements ← Parse.body block
      pure (make found statements)) :=
  hstep.bind fun _ => hblock.body.bind fun _ => isForward_pure _

/-- A statement takes in its first token. -/
theorem rest_statement (hblock : IsForward block) (harms : IsForward arms) :
    (statement block arms context tokens).rest <:+ tokens.tail := by
  apply rest_next_bind
  intro token
  split
  · exact isForward_simple _ _
  · exact isForward_count.header hblock
  · refine (isForward_condition _).bind fun test => hblock.body.bind fun statements => ?_
    exact harms.bind fun others => isForward_pure _
  · exact (isForward_condition _).header hblock
  · exact (isForward_procedureName _).header hblock
  all_goals exact isForward_fail _ token

-- ════════════════════════════════════════════════════════════════════════
-- Blocks and programs
-- ════════════════════════════════════════════════════════════════════════

/-- A block that is not closed at once takes in its first token. -/
theorem rest_block_of_not_closesBlock {bound : Nat} (hblock : IsForward (Parse.block bound))
    (harms : IsForward (Parse.arms bound))
    (hcloses : (firstToken context tokens).kind.closesBlock = false) :
    (Parse.block (bound + 1) context tokens).rest <:+ tokens.tail := by
  have hothers (first : Statement) :
      IsForward (do let others ← Parse.block bound; pure (first :: others)) :=
    hblock.bind fun others => isForward_pure _
  have hpeek (second : Token → Parse Block) :
      ((peek >>= second) context tokens).rest =
        (second (firstToken context tokens) context tokens).rest := rfl
  rw [Parse.block, hpeek]
  cases hkind : (firstToken context tokens).kind with
  | dedent | eof =>
    rw [hkind] at hcloses
    cases hcloses
  | newline => exact rest_next_bind fun _ => hblock
  | _ => exact rest_bind_suffix (rest_statement hblock harms) hothers

theorem reads_block_of_closesBlock {bound : Nat}
    (hcloses : (firstToken context tokens).kind.closesBlock = true) :
    Reads (Parse.block (bound + 1)) context tokens [] tokens := by
  rw [reads_block_succ, if_pos hcloses]
  exact ⟨rfl, rfl⟩

theorem isForward_arms_succ {bound : Nat} (hblock : IsForward (Parse.block bound))
    (harms : IsForward (Parse.arms bound)) : IsForward (Parse.arms (bound + 1)) := by
  refine isForward_newlines.bind fun _ => isForward_peek.bind fun token => ?_
  split
  · refine isForward_next.bind fun _ => (isForward_condition _).bind fun test => ?_
    exact hblock.body.bind fun statements => harms.bind fun others => isForward_pure _
  · exact isForward_next.bind fun _ => hblock.body.bind fun statements => isForward_pure _
  · exact isForward_pure Arms.done

/-- Within any bound, blocks and arms go forward. -/
theorem isForward_block_and_isForward_arms (bound : Nat) :
    IsForward (Parse.block bound) ∧ IsForward (Parse.arms bound) := by
  induction bound with
  | zero => exact ⟨isForward_pure [], isForward_pure Arms.done⟩
  | succ bound ih =>
    refine ⟨fun context tokens => ?_, isForward_arms_succ ih.1 ih.2⟩
    cases hcloses : (firstToken context tokens).kind.closesBlock with
    | true => exact ⟨[], (reads_block_of_closesBlock hcloses).2⟩
    | false =>
      exact (rest_block_of_not_closesBlock ih.1 ih.2 hcloses).trans (List.tail_suffix tokens)

/-- A program takes in its first token, even if it is rejected. -/
theorem rest_program : (program context tokens).rest <:+ tokens.tail := by
  have hend (statements : Block) :
      IsForward (do expect .eof .expectedStatement; pure statements) :=
    (isForward_expect _ _).bind fun _ => isForward_pure statements
  rw [program, programWithin]
  cases hcloses : (firstToken context tokens).kind.closesBlock with
  | true =>
    -- the block is empty, and looking for the end of the input takes in the token that closes it
    rw [rest_bind_of_reads (reads_block_of_closesBlock hcloses)]
    exact rest_bind_suffix (rest_expect _ _) fun _ => isForward_pure _
  | false =>
    obtain ⟨hblock, harms⟩ := isForward_block_and_isForward_arms tokens.length
    exact rest_bind_suffix (rest_block_of_not_closesBlock hblock harms hcloses) hend

theorem program_nil :
    program context [] = { result := .ok [], rest := [], shadowings := [] } :=
  rfl

/-- A program that is rejected has lost at least one token. -/
theorem length_rest_program_of_fails {error : ParseError}
    (h : Fails program context tokens error) :
    (program context tokens).rest.length < tokens.length := by
  have hle : (program context tokens).rest.length ≤ tokens.tail.length := rest_program.length_le
  cases tokens with
  | nil => cases h
  | cons token tokens =>
    rw [List.tail_cons] at hle
    rw [List.length_cons]
    omega

/-- A program that is read has lost all of its tokens. -/
theorem rest_program_of_ok {statements : Block} (h : ∀ token ∈ tokens, token.kind ≠ .eof)
    (hresult : (program context tokens).result = .ok statements) :
    (program context tokens).rest = [] := by
  obtain ⟨middle, ⟨-, rfl⟩, hend, hrest⟩ := reads_programWithin.mp ⟨hresult, rfl⟩
  have hsuffix := (isForward_block_and_isForward_arms (tokens.length + 1)).1 context tokens
  have hmiddle := eq_nil_of_firstToken_kind (fun token hmem => h token (hsuffix.subset hmem)) hend
  rw [hmiddle] at hrest
  exact hrest.symm

end Karel.Parse
