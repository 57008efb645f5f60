import Karel.Proofs.Parse.Balance
import Karel.Proofs.Parse.Progress

/-!
# Reports of shadowed commands

While it reads, the parser reports each procedure that is declared under the name of a command. What
it has reported when it ends, with a tree or with an error, can be told from the tokens alone: a
report is due on each `define` with such a name behind it, among the tokens in front of the first
one that is at fault.

## Main definitions

- `Grammar.shadowedPairs` — the reports that are due on some tokens
- `Grammar.Outlook.accepted` — the tokens in front of the first one at fault
- `Grammar.Outlook.due` — the reports that are due on those
- `Parse.Reports` — a step reports what is due on the tokens that it takes in

## Main results

- `Parse.reports_bind` — two steps in a row
- `Parse.BlockReports.statement` — a statement, by its first token
- `Parse.shadowings_program` — a whole program

## Design notes

Only the `define` of a statement is read by the parser, and none is skipped or expected by another
step. So a `define` never ends what a step takes in, and no pair is cut in two.
-/

namespace Karel

namespace Grammar

variable {capabilities : Capabilities} {outlook next : Outlook} {token : Token}
  {tokens more : List Token} {error : ParseError}

/-- The report that is due on two tokens in a row: on a `define` and a name that is a command. -/
def shadowing? (capabilities : Capabilities) (token behind : Token) : Option Shadowing :=
  match token.kind, behind.kind with
  | .keyword .define, .identifier name =>
    if name ∈ capabilities.commands then some { procedure := name, line := token.line } else none
  | _, _ => none

/-- The reports that are due on some tokens, one for each pair in a row that calls for one. -/
def shadowedPairs (capabilities : Capabilities) (tokens : List Token) : List Shadowing :=
  (tokens.zip tokens.tail).filterMap fun pair => shadowing? capabilities pair.1 pair.2

theorem shadowing?_of_ne {behind : Token} (h : token.kind ≠ .keyword .define) :
    shadowing? capabilities token behind = none := by
  unfold shadowing?
  split
  · next hkind _ => exact absurd hkind h
  · rfl

theorem shadowedPairs_cons_of_ne (h : token.kind ≠ .keyword .define) :
    shadowedPairs capabilities (token :: tokens) = shadowedPairs capabilities tokens := by
  cases tokens with
  | nil => rfl
  | cons behind tokens =>
    rw [shadowedPairs, List.tail_cons, List.zip_cons_cons, List.filterMap_cons_none]
    · rfl
    · exact shadowing?_of_ne h

theorem shadowedPairs_define {name : String} {line nameLine : Nat} :
    shadowedPairs capabilities
        (⟨.keyword .define, line⟩ :: ⟨.identifier name, nameLine⟩ :: tokens) =
      (if name ∈ capabilities.commands then [{ procedure := name, line }] else []) ++
        shadowedPairs capabilities tokens := by
  have hname : shadowedPairs capabilities (⟨.identifier name, nameLine⟩ :: tokens) =
      shadowedPairs capabilities tokens :=
    shadowedPairs_cons_of_ne (by simp)
  rw [← hname, shadowedPairs, List.tail_cons, List.zip_cons_cons, List.filterMap_cons]
  by_cases hmem : name ∈ capabilities.commands
  · rw [if_pos hmem]
    simp [shadowing?, hmem, shadowedPairs]
  · rw [if_neg hmem]
    simp [shadowing?, hmem, shadowedPairs]

namespace Outlook

/-- The tokens in front of the first one that is at fault, or all of them if none is. -/
def accepted (capabilities : Capabilities) : Outlook → List Token → List Token
  | _, [] => []
  | outlook, token :: tokens =>
    match outlook.step capabilities token.kind with
    | .ok next => token :: next.accepted capabilities tokens
    | .error _ => []

/-- The reports that are due on the tokens in front of the first one that is at fault. -/
def due (capabilities : Capabilities) (outlook : Outlook) (tokens : List Token) : List Shadowing :=
  shadowedPairs capabilities (outlook.accepted capabilities tokens)

theorem accepted_cons_of_ok (h : outlook.step capabilities token.kind = .ok next) :
    outlook.accepted capabilities (token :: tokens) =
      token :: next.accepted capabilities tokens := by
  rw [accepted, h]

theorem accepted_cons_of_error {fault : ParseFault}
    (h : outlook.step capabilities token.kind = .error fault) :
    outlook.accepted capabilities (token :: tokens) = [] := by
  rw [accepted, h]

/-- Tokens that are not at fault are accepted, and then those behind them that are not. -/
theorem accepted_append (h : outlook.run capabilities tokens = .ok next) (more : List Token) :
    outlook.accepted capabilities (tokens ++ more) = tokens ++ next.accepted capabilities more := by
  induction tokens generalizing outlook with
  | nil =>
    obtain rfl : outlook = next := Except.ok.inj h
    rfl
  | cons token tokens ih =>
    obtain ⟨behind, hstep, hrun⟩ := exists_of_run_cons h
    rw [List.cons_append, accepted_cons_of_ok hstep, ih hrun]
    rfl

theorem due_cons_of_ok (h : outlook.step capabilities token.kind = .ok next)
    (hdefine : token.kind ≠ .keyword .define) :
    outlook.due capabilities (token :: tokens) = next.due capabilities tokens := by
  rw [due, accepted_cons_of_ok h, shadowedPairs_cons_of_ne hdefine]
  rfl

theorem due_cons_of_error {fault : ParseFault}
    (h : outlook.step capabilities token.kind = .error fault) :
    outlook.due capabilities (token :: tokens) = [] := by
  rw [due, accepted_cons_of_error h]
  rfl

end Outlook

end Grammar

namespace Parse

open Grammar

variable {α β : Type} {context : ParseContext} {tokens rest : List Token} {token : Token}
  {before middle after : Outlook} {bodies : List Bool}

/-- A step reports what is due on the tokens from its outlook on, except for what is still due
    behind it. If it fails, nothing else is due. -/
def Reports (step : Parse α) (context : ParseContext) (tokens : List Token)
    (before after : Outlook) : Prop :=
  before.due context.capabilities (context.ended tokens) =
    (step context tokens).shadowings ++
      match (step context tokens).result with
      | .ok _ => after.due context.capabilities (context.ended (step context tokens).rest)
      | .error _ => []

theorem reports_pure {value : α} : Reports (pure value) context tokens before before :=
  rfl

theorem reports_bind {first : Parse α} {second : α → Parse β}
    (hfirst : Reports first context tokens before middle)
    (hsecond : ∀ value rest, Reads first context tokens value rest →
      Reports (second value) context rest middle after) :
    Reports (first >>= second) context tokens before after := by
  unfold Reports at hfirst
  cases hresult : (first context tokens).result with
  | error error =>
    rw [hresult] at hfirst
    simpa [Reports, bind, Parse.bind, hresult] using hfirst
  | ok value =>
    rw [hresult] at hfirst
    have hnext := hsecond value _ ⟨hresult, rfl⟩
    unfold Reports at hnext
    rw [hnext, ← List.append_assoc] at hfirst
    simpa [Reports, bind, Parse.bind, hresult] using hfirst

/-- An outlook may be exchanged for one from which the same is due. -/
theorem Reports.of_due_eq {step : Parse α} (h : Reports step context tokens middle after)
    (hdue : before.due context.capabilities (context.ended tokens) =
      middle.due context.capabilities (context.ended tokens)) :
    Reports step context tokens before after := by
  unfold Reports at h ⊢
  rw [hdue, h]

/-- A token that is awaited and no `define` calls for no report. -/
theorem reports_next_cons {second : Token → Parse β} (middle : Outlook)
    (hdefine : token.kind ≠ .keyword .define)
    (hstep : before.step context.capabilities token.kind = .ok middle)
    (hsecond : Reports (second token) context tokens middle after) :
    Reports (next >>= second) context (token :: tokens) before after := by
  have hbind : (next >>= second) context (token :: tokens) = second token context tokens := rfl
  unfold Reports at hsecond ⊢
  rw [hbind, ended_cons, Outlook.due_cons_of_ok hstep hdefine]
  exact hsecond

theorem reports_next_fail {second : Token → Parse β} (fault : ParseFault)
    (hstep : before.step context.capabilities (firstToken context tokens).kind = .error fault)
    (hsecond : second (firstToken context tokens) context tokens.tail =
      fail fault (firstToken context tokens) context tokens.tail) :
    Reports (next >>= second) context tokens before after := by
  have hbind : (next >>= second) context tokens =
      fail fault (firstToken context tokens) context tokens.tail := hsecond
  obtain ⟨behind, hended⟩ := exists_ended_eq context tokens
  unfold Reports
  rw [hbind, hended, Outlook.due_cons_of_error hstep]
  rfl

-- ════════════════════════════════════════════════════════════════════════
-- The pieces of a statement
-- ════════════════════════════════════════════════════════════════════════

theorem reports_capabilities_bind {second : Capabilities → Parse β}
    (h : Reports (second context.capabilities) context tokens before after) :
    Reports (capabilities >>= second) context tokens before after :=
  h

theorem reports_peek_bind {second : Token → Parse β}
    (h : Reports (second (firstToken context tokens)) context tokens before after) :
    Reports (peek >>= second) context tokens before after :=
  h

theorem reports_expect {kind : TokenKind} {fault : ParseFault} (hkind : kind ≠ .eof)
    (hdefine : kind ≠ .keyword .define) (hok : before.step context.capabilities kind = .ok after)
    (hfault : ∀ other ≠ kind, before.step context.capabilities other = .error fault) :
    Reports (expect kind fault) context tokens before after := by
  by_cases hfirst : (firstToken context tokens).kind = kind
  · have hcons := eq_cons_of_firstToken_kind_ne (hfirst ▸ hkind)
    rw [hcons]
    apply reports_next_cons after (hfirst ▸ hdefine) (hfirst ▸ hok)
    rw [if_pos hfirst]
    exact reports_pure
  · apply reports_next_fail fault (hfault _ hfirst)
    rw [if_neg hfirst]

theorem reports_simple {name : String} {line : Nat} :
    Reports (simple name line) context tokens ⟨bodies, .ending⟩ ⟨bodies, .statement false⟩ := by
  have hend : Reports endOfStatement context tokens ⟨bodies, .ending⟩
      ⟨bodies, .statement false⟩ := by
    rcases tokens with _ | ⟨⟨kind, line⟩, tokens⟩
    · rfl
    · cases kind with
      | newline => exact reports_next_cons _ (by simp) rfl reports_pure
      | _ => rfl
  refine reports_capabilities_bind (reports_bind hend ?_)
  intro _ rest _
  split
  · exact reports_pure
  · exact reports_pure

theorem reports_count :
    Reports count context tokens ⟨bodies, .count⟩ ⟨bodies, .colon false⟩ := by
  rcases hvalue : (firstToken context tokens).kind.value? with _ | _ | value
  · apply reports_next_fail .expectedNumber
    · simp [Outlook.step, hvalue]
    · rw [hvalue]
  · apply reports_next_fail .expectedNumber
    · simp [Outlook.step, hvalue]
    · rw [hvalue]
  · have hkind (kind : TokenKind) (hnone : kind.value? = none) :
        (firstToken context tokens).kind ≠ kind := by
      intro heq
      rw [heq, hnone] at hvalue
      cases hvalue
    rw [eq_cons_of_firstToken_kind_ne (hkind .eof rfl)]
    apply reports_next_cons ⟨bodies, .colon false⟩ (hkind _ rfl)
    · simp [Outlook.step, hvalue]
    · rw [hvalue]
      exact reports_pure

theorem reports_condition {keyword : Keyword} :
    Reports (condition keyword) context tokens ⟨bodies, .condition keyword⟩
      ⟨bodies, .colon (keyword ≠ .«while»)⟩ := by
  rcases tokens with _ | ⟨⟨kind, line⟩, tokens⟩
  · rfl
  · cases kind with
    | identifier name =>
      by_cases hname : context.capabilities.isCondition name = true
      · apply reports_next_cons ⟨bodies, .colon (keyword ≠ .«while»)⟩ (by simp)
        · simp [Outlook.step, hname]
        · apply reports_capabilities_bind
          rw [if_pos hname]
          exact reports_pure
      · apply reports_next_fail (.unknownCondition name)
        · simp [Outlook.step, hname]
        · show (if _ then _ else _ : Parse Callable) context tokens = _
          rw [if_neg hname]
          rfl
    | _ => rfl

theorem reports_newlines {arms : Bool} :
    Reports newlines context tokens ⟨bodies, .statement arms⟩ ⟨bodies, .statement arms⟩ := by
  show _ = [] ++ _
  rw [List.nil_append]
  induction tokens with
  | nil => rfl
  | cons token tokens ih =>
    obtain ⟨kind, line⟩ := token
    by_cases hkind : kind = .newline
    · subst hkind
      rw [ended_cons, Outlook.due_cons_of_ok rfl (by simp), ih]
      rfl
    · have hstays : newlines context (⟨kind, line⟩ :: tokens) =
          { result := .ok (), rest := ⟨kind, line⟩ :: tokens, shadowings := [] } := by
        rw [newlines, List.dropWhile_cons_of_neg (by simpa using hkind)]
      rw [hstays]

/-- Where no arm and no `newline` is next, the same is due whether arms may follow or not. -/
theorem due_statement_true {kind : TokenKind} {line : Nat} (hnewline : kind ≠ .newline)
    (helif : kind ≠ .keyword .elif) (helse : kind ≠ .keyword .«else») (tokens : List Token) :
    Outlook.due context.capabilities ⟨bodies, .statement true⟩ (⟨kind, line⟩ :: tokens) =
      Outlook.due context.capabilities ⟨bodies, .statement false⟩ (⟨kind, line⟩ :: tokens) := by
  cases kind with
  | keyword reserved =>
    cases reserved with
    | elif => exact absurd rfl helif
    | «else» => exact absurd rfl helse
    | _ => rfl
  | newline => exact absurd rfl hnewline
  | _ => rfl

/-- A `define` with a name behind it reports the name if it is a command. -/
theorem reports_define {second : String → Parse β} {line : Nat} {arms : Bool}
    (h : ∀ name nameLine rest, tokens = ⟨.identifier name, nameLine⟩ :: rest →
      Reports (second name) context rest ⟨bodies, .colon false⟩ after) :
    Reports (next >>= fun _ => procedureName line >>= second) context
      (⟨.keyword .define, line⟩ :: tokens) ⟨bodies, .statement arms⟩ after := by
  rcases tokens with _ | ⟨⟨kind, nameLine⟩, tokens⟩
  · rfl
  · cases kind with
    | identifier name =>
      have hread : procedureName line context (⟨.identifier name, nameLine⟩ :: tokens) =
          { result := .ok name
            rest := tokens
            shadowings :=
              if name ∈ context.capabilities.commands then [{ procedure := name, line }]
              else [] } := by
        by_cases hmem : name ∈ context.capabilities.commands
        · have hcommand : context.capabilities.isCommand name = true :=
            List.contains_iff_mem.mpr hmem
          simp [procedureName, bind, Parse.bind, Parse.next, capabilities, hcommand, hmem, report,
            pure, Parse.pure]
        · have hcommand : ¬ context.capabilities.isCommand name = true :=
            mt List.contains_iff_mem.mp hmem
          simp [procedureName, bind, Parse.bind, Parse.next, capabilities, hcommand, hmem, pure,
            Parse.pure]
      have hbody := h name nameLine tokens rfl
      have hdue : Outlook.due context.capabilities ⟨bodies, .statement arms⟩
          (context.ended (⟨.keyword .define, line⟩ :: ⟨.identifier name, nameLine⟩ :: tokens)) =
            (if name ∈ context.capabilities.commands then [{ procedure := name, line }] else []) ++
              Outlook.due context.capabilities ⟨bodies, .colon false⟩ (context.ended tokens) :=
        shadowedPairs_define
      unfold Reports at hbody ⊢
      rw [hdue, hbody, ← List.append_assoc]
      simp [bind, Parse.bind, Parse.next, hread]
    | _ => rfl

-- ════════════════════════════════════════════════════════════════════════
-- Statements, blocks and arms
-- ════════════════════════════════════════════════════════════════════════

variable {bound : Nat}

/-- Within a bound, a block reports what is due. -/
def BlockReports (context : ParseContext) (bound : Nat) : Prop :=
  ∀ {tokens bodies}, tokens.length < bound →
    Reports (block bound) context tokens ⟨bodies, .statement false⟩ ⟨bodies, .statement false⟩

/-- Within a bound, arms report what is due. -/
def ArmsReport (context : ParseContext) (bound : Nat) : Prop :=
  ∀ {tokens bodies}, tokens.length < bound →
    Reports (arms bound) context tokens ⟨bodies, .statement true⟩ ⟨bodies, .statement false⟩

theorem BlockReports.body (hblock : BlockReports context bound)
    (hlength : tokens.length < bound) {arms : Bool} :
    Reports (body (block bound)) context tokens ⟨bodies, .colon arms⟩
      ⟨bodies, .statement arms⟩ := by
  have hcolon : Reports (expect .colon .expectedColon) context tokens ⟨bodies, .colon arms⟩
      ⟨bodies, .newline arms⟩ :=
    reports_expect (by simp) (by simp) rfl fun other hother => if_neg hother
  refine reports_bind hcolon ?_
  intro _ rest hreads
  obtain ⟨colonLine, rfl⟩ := (reads_expect (by simp)).mp hreads
  rcases rest with _ | ⟨⟨kind, newlineLine⟩, rest⟩
  · rfl
  · cases kind with
    | newline =>
      have hindent : Reports (expect .indent .expectedBlock) context rest ⟨bodies, .indent arms⟩
          ⟨arms :: bodies, .statement false⟩ :=
        reports_expect (by simp) (by simp) rfl fun other hother => if_neg hother
      refine reports_next_cons ⟨bodies, .indent arms⟩ (by simp) rfl (reports_bind hindent ?_)
      intro _ inner hreads
      obtain ⟨indentLine, rfl⟩ := (reads_expect (by simp)).mp hreads
      have hinner : inner.length < bound := by
        simp only [List.length_cons] at hlength
        omega
      refine reports_bind (hblock hinner) ?_
      intro statements behind hreads
      have hfollows : Follows (block bound) context inner ⟨arms :: bodies, .statement false⟩
          ⟨arms :: bodies, .statement false⟩
          (fun rest => (firstToken context rest).kind.closesBlock = true) :=
        (blockFollows_and_armsFollow context bound).1 hinner
      have hcloses := (hfollows.suffix hreads).2
      -- the block ends before a `dedent`, or else the input ends too early
      rcases behind with _ | ⟨⟨kind, line⟩, behind⟩
      · rfl
      · cases kind with
        | dedent =>
          have hdedent : Reports (expect .dedent .expectedStatement) context
              (⟨.dedent, line⟩ :: behind) ⟨arms :: bodies, .statement false⟩
              ⟨bodies, .statement arms⟩ :=
            reports_next_cons _ (by simp) rfl reports_pure
          exact reports_bind hdedent fun _ _ _ => reports_pure
        | eof => rfl
        | _ => cases hcloses
    | _ => rfl

/-- A header that awaits a body reports together with its body. -/
theorem BlockReports.header (hblock : BlockReports context bound) (hlength : tokens.length < bound)
    {arms : Bool} {step : Parse α} {make : α → Block → β} (hforward : IsForward step)
    (hstep : Reports step context tokens before ⟨bodies, .colon arms⟩) :
    Reports (do
        let found ← step
        let statements ← Parse.body (block bound)
        pure (make found statements))
      context tokens before ⟨bodies, .statement arms⟩ := by
  refine reports_bind hstep ?_
  intro found rest hreads
  have hrest := (hforward.suffix_of_reads hreads).length_le
  exact reports_bind (hblock.body (by omega)) fun _ _ _ => reports_pure

/-- A condition that arms may follow reports together with its body and the arms. -/
theorem BlockReports.conditional (hblock : BlockReports context bound)
    (harms : ArmsReport context bound) (hlength : tokens.length < bound) {keyword : Keyword}
    (hkeyword : keyword ≠ .«while») {make : Callable → Block → Arms → β} :
    Reports (do
        let test ← condition keyword
        let statements ← Parse.body (block bound)
        let others ← arms bound
        pure (make test statements others))
      context tokens ⟨bodies, .condition keyword⟩ ⟨bodies, .statement false⟩ := by
  have htest : Reports (condition keyword) context tokens ⟨bodies, .condition keyword⟩
      ⟨bodies, .colon (keyword ≠ .«while»)⟩ :=
    reports_condition
  rw [decide_eq_true hkeyword] at htest
  refine reports_bind htest ?_
  intro test rest hreads
  have hrest := ((isForward_condition _).suffix_of_reads hreads).length_le
  refine reports_bind (hblock.body (by omega)) ?_
  intro statements behind hbody
  have hbehind :=
    ((isForward_block_and_isForward_arms bound).1.body.suffix_of_reads hbody).length_le
  exact reports_bind (harms (by omega)) fun _ _ _ => reports_pure

/-- A statement reports what is due on its tokens. -/
theorem BlockReports.statement (hblock : BlockReports context bound)
    (harms : ArmsReport context bound) (hlength : tokens.length < bound)
    (hcloses : token.kind.closesBlock = false) (hnewline : token.kind ≠ .newline) :
    Reports (statement (block bound) (arms bound)) context (token :: tokens)
      ⟨bodies, .statement false⟩ ⟨bodies, .statement false⟩ := by
  obtain ⟨kind, line⟩ := token
  cases kind with
  | identifier name => exact reports_next_cons ⟨bodies, .ending⟩ (by simp) rfl reports_simple
  | keyword reserved =>
    cases reserved with
    | «do» =>
      refine reports_next_cons ⟨bodies, .count⟩ (by simp) rfl ?_
      exact hblock.header hlength isForward_count reports_count
    | «if» =>
      refine reports_next_cons ⟨bodies, .condition .«if»⟩ (by simp) rfl ?_
      exact hblock.conditional harms hlength (by simp)
    | «while» =>
      refine reports_next_cons ⟨bodies, .condition .«while»⟩ (by simp) rfl ?_
      exact hblock.header hlength (isForward_condition _) reports_condition
    | define =>
      refine reports_define ?_
      rintro name nameLine rest rfl
      simp only [List.length_cons] at hlength
      exact reports_bind (hblock.body (by omega)) fun _ _ _ => reports_pure
    | elif | «else» => rfl
  | newline => exact absurd rfl hnewline
  | dedent | eof => cases hcloses
  | _ => rfl

theorem armsReport_succ (hblock : BlockReports context bound) (harms : ArmsReport context bound) :
    ArmsReport context (bound + 1) := by
  intro tokens bodies hlength
  refine reports_bind reports_newlines ?_
  intro _ rest hreads
  have hfollows : Follows newlines context tokens ⟨bodies, .statement true⟩
      ⟨bodies, .statement true⟩ (fun rest => (firstToken context rest).kind ≠ .newline) :=
    follows_newlines
  obtain ⟨hsuffix, hnewline⟩ := hfollows.suffix hreads
  have hrest := hsuffix.length_le
  apply reports_peek_bind
  rcases rest with _ | ⟨⟨kind, line⟩, rest⟩
  · rfl
  · rw [List.length_cons] at hrest
    have hdone (helif : kind ≠ .keyword .elif) (helse : kind ≠ .keyword .«else») :
        Reports (pure Arms.done) context (⟨kind, line⟩ :: rest) ⟨bodies, .statement true⟩
          ⟨bodies, .statement false⟩ :=
      reports_pure.of_due_eq (due_statement_true hnewline helif helse _)
    cases kind with
    | keyword reserved =>
      cases reserved with
      | elif =>
        refine reports_next_cons ⟨bodies, .condition .elif⟩ (by simp) rfl ?_
        exact hblock.conditional harms (by omega) (by simp)
      | «else» =>
        refine reports_next_cons ⟨bodies, .colon false⟩ (by simp) rfl ?_
        exact reports_bind (hblock.body (by omega)) fun _ _ _ => reports_pure
      | _ => exact hdone (by simp) (by simp)
    | _ => exact hdone (by simp) (by simp)

theorem blockReports_succ (hblock : BlockReports context bound) (harms : ArmsReport context bound) :
    BlockReports context (bound + 1) := by
  intro tokens bodies hlength
  apply reports_peek_bind
  rcases tokens with _ | ⟨token, tokens⟩
  · exact reports_pure
  · rw [List.length_cons, Nat.add_lt_add_iff_right] at hlength
    have hcons (hcloses : token.kind.closesBlock = false) (hnewline : token.kind ≠ .newline) :
        Reports (do
            let first ← Parse.statement (Parse.block bound) (Parse.arms bound)
            let others ← Parse.block bound
            pure (first :: others))
          context (token :: tokens) ⟨bodies, .statement false⟩ ⟨bodies, .statement false⟩ := by
      refine reports_bind (hblock.statement harms hlength hcloses hnewline) ?_
      intro first rest hreads
      obtain ⟨hforward, hforwardArms⟩ := isForward_block_and_isForward_arms bound
      have hsuffix : rest <:+ tokens := hreads.2 ▸ rest_statement hforward hforwardArms
      have hrest := hsuffix.length_le
      exact reports_bind (hblock (by omega)) fun _ _ _ => reports_pure
    obtain ⟨kind, line⟩ := token
    cases kind with
    | dedent | eof => exact reports_pure
    | newline => exact reports_next_cons _ (by simp) rfl (hblock hlength)
    | _ => exact hcons rfl (by simp)

/-- Within any bound, blocks and arms report what is due. -/
theorem blockReports_and_armsReport (context : ParseContext) (bound : Nat) :
    BlockReports context bound ∧ ArmsReport context bound := by
  induction bound with
  | zero =>
    constructor
    · intro tokens bodies hlength
      exact absurd hlength (Nat.not_lt_zero _)
    · intro tokens bodies hlength
      exact absurd hlength (Nat.not_lt_zero _)
  | succ bound ih => exact ⟨blockReports_succ ih.1 ih.2, armsReport_succ ih.1 ih.2⟩

/-- A program reports what is due on its tokens. -/
theorem shadowings_program (h : ∀ token ∈ tokens, token.kind ≠ .eof) :
    (program context tokens).shadowings =
      Outlook.start.due context.capabilities (context.ended tokens) := by
  have hlength : tokens.length < tokens.length + 1 := Nat.lt_succ_self _
  have hblock : Reports (block (tokens.length + 1)) context tokens Outlook.start Outlook.start :=
    (blockReports_and_armsReport context (tokens.length + 1)).1 hlength
  have hprogram : Reports program context tokens Outlook.start Outlook.finished := by
    refine reports_bind hblock ?_
    intro statements rest hreads
    have hfollows : Follows (block (tokens.length + 1)) context tokens Outlook.start Outlook.start
        (fun rest => (firstToken context rest).kind.closesBlock = true) :=
      (blockFollows_and_armsFollow context (tokens.length + 1)).1 hlength
    obtain ⟨hsuffix, hcloses⟩ := hfollows.suffix hreads
    rcases rest with _ | ⟨⟨kind, line⟩, rest⟩
    · rfl
    · cases kind with
      | dedent => rfl
      | eof => exact absurd rfl (h _ (hsuffix.subset List.mem_cons_self))
      | _ => cases hcloses
  unfold Reports at hprogram
  rw [hprogram]
  cases hresult : (program context tokens).result with
  | ok statements =>
    rw [rest_program_of_ok h hresult]
    exact (List.append_nil _).symm
  | error error => exact (List.append_nil _).symm

end Parse

end Karel
