import Karel.Proofs.Parse.Following

/-!
# Viable prefixes

Some tokens are viable if they are the beginning of a program. The parser rejects a source text at
the first token with which its tokens stop being viable: what stands before that token could have
gone on to be a program, and with the token it no longer can.

## Main definitions

- `Grammar.IsViable` — some tokens are the beginning of a program
- `Grammar.Outlook.completion` — tokens that make a program of what led to an outlook

## Main results

- `Grammar.run_start_eq_finished_iff` — the outlook finishes on programs and on nothing else
- `isViable_take_of_parseProgram_error` — an error is reported at the earliest possible token

## Design notes

Without a condition nothing can follow an `if`, but only the token behind the `if` is rejected. So
there has to be a condition for what stands before a rejected token to be viable.
-/

namespace Karel

namespace Grammar

variable {capabilities : Capabilities} {outlook next : Outlook} {tokens : List Token}

namespace Outlook

theorem eq_finished_of_step_eof (h : outlook.step capabilities .eof = .ok next) :
    next = finished := by
  obtain ⟨bodies, awaited⟩ := outlook
  cases awaited with
  | statement | ending =>
    cases bodies with
    | nil => exact (Except.ok.inj h).symm
    | cons arms bodies => cases h
  | _ => cases h

/-- Only the end of the input leaves nothing to be awaited. -/
theorem awaited_ne_nothing {kind : TokenKind} (hkind : kind ≠ .eof)
    (h : outlook.step capabilities kind = .ok next) : next.awaited ≠ .nothing := by
  have hleave (bodies : List Bool) (h : leave bodies kind = .ok next) :
      next.awaited ≠ .nothing := by
    unfold leave at h
    split at h
    · obtain rfl := Except.ok.inj h
      simp
    · exact absurd rfl hkind
    · cases h
  obtain ⟨bodies, awaited⟩ := outlook
  cases awaited with
  | statement arms =>
    cases kind with
    | keyword reserved => cases reserved <;> grind [step, stepStatement]
    | _ => grind [step, stepStatement]
  | _ => cases kind <;> grind [step]

theorem awaited_ne_nothing_of_run (hawaited : outlook.awaited ≠ .nothing)
    (htokens : ∀ token ∈ tokens, token.kind ≠ .eof)
    (h : outlook.run capabilities tokens = .ok next) : next.awaited ≠ .nothing := by
  induction tokens generalizing outlook with
  | nil =>
    obtain rfl := Except.ok.inj h
    exact hawaited
  | cons token tokens ih =>
    have hkind := htokens token List.mem_cons_self
    cases hstep : outlook.step capabilities token.kind with
    | error fault =>
      rw [run_cons_of_error hstep] at h
      cases h
    | ok behind =>
      rw [run_cons_of_ok hstep] at h
      refine ih (awaited_ne_nothing hkind hstep) ?_ h
      exact fun other hother => htokens other (List.mem_cons_of_mem token hother)

theorem exists_of_run_eq_finished (hawaited : outlook.awaited ≠ .nothing)
    (h : outlook.run capabilities tokens = .ok finished) :
    ∃ front line, tokens = front ++ [Token.endOfInput line] ∧
      ∀ token ∈ front, token.kind ≠ .eof := by
  induction tokens generalizing outlook with
  | nil =>
    obtain rfl := Except.ok.inj h
    exact absurd rfl hawaited
  | cons token tokens ih =>
    cases hstep : outlook.step capabilities token.kind with
    | error fault =>
      rw [run_cons_of_error hstep] at h
      cases h
    | ok next =>
      rw [run_cons_of_ok hstep] at h
      by_cases hkind : token.kind = .eof
      · rw [hkind] at hstep
        obtain rfl := eq_finished_of_step_eof hstep
        cases tokens with
        | nil =>
          obtain ⟨kind, line⟩ := token
          obtain rfl : kind = .eof := hkind
          exact ⟨[], line, rfl, by simp⟩
        | cons token tokens => cases h
      · obtain ⟨front, line, rfl, hfront⟩ := ih (awaited_ne_nothing hkind hstep) h
        refine ⟨token :: front, line, rfl, ?_⟩
        intro other hother
        rcases List.mem_cons.mp hother with rfl | hother
        · exact hkind
        · exact hfront other hother

end Outlook

/-- The outlook finishes on programs, and on nothing else. -/
theorem run_start_eq_finished_iff :
    Outlook.start.run capabilities tokens = .ok Outlook.finished ↔
      ∃ block, Nonempty (ProgramDerivation capabilities tokens block) := by
  have hended {front : List Token} (line : Nat) (hfront : ∀ token ∈ front, token.kind ≠ .eof) :
      Outlook.start.run capabilities (front ++ [Token.endOfInput line]) = .ok Outlook.finished ↔
        ∃ block, Nonempty (ProgramDerivation capabilities (front ++ [Token.endOfInput line])
          block) := by
    let context : ParseContext := { capabilities, endLine := line }
    have hrun : Outlook.start.run capabilities (context.ended front) =
        (Parse.program context front).result.map fun _ => Outlook.finished :=
      @Parse.run_start_ended context front hfront
    have hprogram (block : Block) : (Parse.program context front).result = .ok block ↔
        Nonempty (ProgramDerivation capabilities (context.ended front) block) :=
      Parse.program_eq_ok_iff hfront block
    change Outlook.start.run capabilities (context.ended front) = .ok Outlook.finished ↔
      ∃ block, Nonempty (ProgramDerivation capabilities (context.ended front) block)
    simp only [hrun, ← hprogram]
    cases (Parse.program context front).result with
    | ok block => exact ⟨fun _ => ⟨block, rfl⟩, fun _ => rfl⟩
    | error error => simp [Except.map]
  constructor
  · intro h
    obtain ⟨front, line, rfl, hfront⟩ :=
      Outlook.exists_of_run_eq_finished (by simp [Outlook.start]) h
    exact (hended line hfront).mp h
  · rintro ⟨block, ⟨derivation⟩⟩
    obtain ⟨front, htokens, hfront⟩ := derivation.root.consumes
    rw [htokens] at derivation ⊢
    exact (hended _ hfront).mpr ⟨block, ⟨derivation⟩⟩

/-- Some tokens are viable if they are the beginning of a program. -/
def IsViable (capabilities : Capabilities) (front : List Token) : Prop :=
  ∃ tokens block, front <+: tokens ∧ Nonempty (ProgramDerivation capabilities tokens block)

/-- Tokens of the given kinds, on a line that does not matter. -/
def unplaced (kinds : List TokenKind) : List Token :=
  kinds.map fun kind => { kind, line := 0 }

/-- The kinds of tokens that end what is awaited, a header with an empty body. -/
def Awaited.completion (condition : String) : Awaited → List TokenKind
  | .statement _ | .nothing => []
  | .ending => [.newline]
  | .count => [.number "1", .colon, .newline, .indent, .dedent]
  | .condition _ => [.identifier condition, .colon, .newline, .indent, .dedent]
  | .procedureName => [.identifier "a", .colon, .newline, .indent, .dedent]
  | .colon _ => [.colon, .newline, .indent, .dedent]
  | .newline _ => [.newline, .indent, .dedent]
  | .indent _ => [.indent, .dedent]

/-- Tokens that end what is awaited, close the open bodies and end the input. -/
def Outlook.completion (condition : String) (outlook : Outlook) : List Token :=
  unplaced (outlook.awaited.completion condition)
    ++ unplaced (outlook.bodies.map fun _ => .dedent) ++ [Token.endOfInput 0]

/-- From any outlook that awaits something, its completion leads to the end of a program. -/
theorem Outlook.run_completion {condition : String}
    (hcondition : condition ∈ capabilities.conditions) (hawaited : outlook.awaited ≠ .nothing) :
    outlook.run capabilities (outlook.completion condition) = .ok finished := by
  obtain ⟨bodies, awaited⟩ := outlook
  -- once a statement is awaited, each open body takes one `dedent`
  have hclose (bodies : List Bool) (arms : Bool) :
      Outlook.run capabilities ⟨bodies, .statement arms⟩
        (unplaced (bodies.map fun _ => .dedent) ++ [Token.endOfInput 0]) = .ok finished := by
    induction bodies generalizing arms with
    | nil => rfl
    | cons inner bodies ih => exact ih inner
  have hend : ∃ arms, Outlook.run capabilities ⟨bodies, awaited⟩
      (unplaced (awaited.completion condition)) = .ok ⟨bodies, .statement arms⟩ := by
    cases awaited with
    | statement arms => exact ⟨arms, rfl⟩
    | ending => exact ⟨false, rfl⟩
    | count => exact ⟨false, rfl⟩
    | condition after =>
      refine ⟨after ≠ .«while», ?_⟩
      simp [Awaited.completion, unplaced, run, step, stepStatement, leave,
        Capabilities.isCondition, hcondition]
    | procedureName => exact ⟨false, rfl⟩
    | colon arms | newline arms | indent arms => exact ⟨arms, rfl⟩
    | nothing => exact absurd rfl hawaited
  obtain ⟨arms, hend⟩ := hend
  rw [completion, List.append_assoc, run_append hend]
  exact hclose bodies arms

/-- What leads to an outlook that awaits something is viable, as long as there is a condition. -/
theorem isViable_of_run (hconditions : capabilities.conditions ≠ [])
    (h : Outlook.start.run capabilities tokens = .ok outlook)
    (hawaited : outlook.awaited ≠ .nothing) : IsViable capabilities tokens := by
  obtain ⟨condition, hcondition⟩ := List.exists_mem_of_ne_nil _ hconditions
  have hrun : Outlook.start.run capabilities (tokens ++ outlook.completion condition) =
      .ok Outlook.finished :=
    (Outlook.run_append h _).trans (Outlook.run_completion hcondition hawaited)
  obtain ⟨block, hderivation⟩ := run_start_eq_finished_iff.mp hrun
  exact ⟨_, block, List.prefix_append _ _, hderivation⟩

theorem not_isViable_of_run {error : ParseError}
    (h : Outlook.start.run capabilities tokens = .error error) :
    ¬ IsViable capabilities tokens := by
  rintro ⟨_, block, ⟨more, rfl⟩, hderivation⟩
  have hrun := run_start_eq_finished_iff.mpr ⟨block, hderivation⟩
  rw [Outlook.run_append_of_error h more] at hrun
  cases hrun

end Grammar

open Grammar

/-- A source text is rejected at the earliest token possible: the tokens before it are the beginning
    of a program, and together with it they are not. -/
theorem isViable_take_of_parseProgram_error {capabilities : Capabilities} {source : String}
    {error : ParseError} (hconditions : capabilities.conditions ≠ [])
    (h : parseProgram capabilities source = .error error) :
    ∃ index, (TokenStream.ofSource source).toList[index]? = some error.found ∧
      error.line = error.found.line + 1 ∧
      IsViable capabilities ((TokenStream.ofSource source).toList.take index) ∧
      ¬ IsViable capabilities ((TokenStream.ofSource source).toList.take (index + 1)) := by
  obtain ⟨front, behind, reached, htokens, hfront, hfault⟩ :=
    Outlook.exists_of_run_eq_error (Parse.run_toList_eq_error_iff.mpr h)
  refine ⟨front.length, ?_, rfl, ?_, ?_⟩
  · rw [htokens]
    simp
  · rw [htokens, List.take_left]
    refine isViable_of_run hconditions hfront ?_
    refine Outlook.awaited_ne_nothing_of_run (by simp [Outlook.start]) (fun token hmem => ?_) hfront
    have hscan : front <+: scan source := by
      have hprefix : front <+: scan source ++ [Token.endOfInput (endLine source)] :=
        ⟨_, htokens.symm⟩
      rcases List.prefix_concat_iff.mp hprefix with hall | hscan
      · have hlength := congrArg List.length htokens
        rw [hall] at hlength
        simp [TokenStream.toList, TokenStream.ofSource] at hlength
      · exact hscan
    exact kind_ne_eof_of_mem_scan (hscan.subset hmem)
  · have htake : (TokenStream.ofSource source).toList.take (front.length + 1) =
        front ++ [error.found] := by
      rw [htokens, List.take_length_add_append]
      rfl
    rw [htake]
    have hfound : Outlook.start.run capabilities (front ++ [error.found]) = .error error := by
      rw [Outlook.run_append hfront, Outlook.run_cons_of_error hfault]
    exact not_isViable_of_run hfound

/-- A colon that is missing behind a nested `else` is missed at the end of its line, and up to there
    the tokens are the beginning of a program. -/
theorem isViable_before_missing_colon :
    Capabilities.standard.conditions ≠ [] ∧
    parseProgram Capabilities.standard
      "while facing_north:\n  if facing_east:\n    move\n  else\n" =
        .error { fault := .expectedColon, found := ⟨.newline, 3⟩ } ∧
    ∃ index, (TokenStream.ofSource
        "while facing_north:\n  if facing_east:\n    move\n  else\n").toList[index]? =
          some ⟨.newline, 3⟩ ∧
      IsViable Capabilities.standard ((TokenStream.ofSource
        "while facing_north:\n  if facing_east:\n    move\n  else\n").toList.take index) ∧
      ¬ IsViable Capabilities.standard ((TokenStream.ofSource
        "while facing_north:\n  if facing_east:\n    move\n  else\n").toList.take (index + 1)) := by
  have hconditions : Capabilities.standard.conditions ≠ [] := by decide
  have hparse : parseProgram Capabilities.standard
      "while facing_north:\n  if facing_east:\n    move\n  else\n" =
        .error { fault := .expectedColon, found := ⟨.newline, 3⟩ } := rfl
  obtain ⟨index, hfound, -, hviable, hnot⟩ :=
    isViable_take_of_parseProgram_error hconditions hparse
  exact ⟨hconditions, hparse, index, hfound, hviable, hnot⟩

end Karel
