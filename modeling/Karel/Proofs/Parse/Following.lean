import Karel.Proofs.Parse.Agreement
import Karel.Proofs.Parse.Outlook

/-!
# Following the outlook

The parser does what the outlook says. Wherever a step of it succeeds, the outlook before the step
makes the same of the tokens ahead as the outlook behind it makes of those that are left. Wherever
a step fails, the outlook finds the same fault at the same token. So a step blames the first token
that cannot be, and nothing behind that token matters to it.

## Main definitions

- `Parse.Follows` — a step takes one outlook to another, or fails where the outlook does
- `Parse.BlockFollows`, `Parse.ArmsFollow` — the same of the two recursive steps, within a bound

## Main results

- `Parse.follows_bind` — two steps in a row
- `Parse.BlockFollows.statement` — a statement, by its first token
- `Parse.run_start_ended` — a whole program

## Design notes

An `if` passes over the `newline` tokens behind it in search of an arm. If there is none, the parser
is past them without an arm while the outlook still allows one, so the two only agree because
the next token is no arm.
-/

namespace Karel.Parse

open Grammar

variable {α β : Type} {context : ParseContext} {tokens rest : List Token} {token : Token}
  {before middle after : Outlook} {post : List Token → Prop} {bodies : List Bool}

/-- A step takes the outlook `before` to the outlook `after`, and leaves tokens as `post` says:
    what the one makes of the tokens, the other makes of those that are left. Or else the step
    fails, and the first outlook finds the same fault. -/
def Follows (step : Parse α) (context : ParseContext) (tokens : List Token)
    (before after : Outlook) (post : List Token → Prop) : Prop :=
  match (step context tokens).result with
  | .ok _ =>
    (step context tokens).rest <:+ tokens ∧ post (step context tokens).rest ∧
      before.run context.capabilities (context.ended tokens) =
        after.run context.capabilities (context.ended (step context tokens).rest)
  | .error error =>
    before.run context.capabilities (context.ended tokens) = .error error

theorem follows_pure {value : α} (h : post tokens) :
    Follows (pure value) context tokens before before post :=
  ⟨List.suffix_rfl, h, rfl⟩

theorem follows_bind {first : Parse α} {second : α → Parse β} {between : List Token → Prop}
    (hfirst : Follows first context tokens before middle between)
    (hsecond : ∀ value rest, rest <:+ tokens → between rest →
      Follows (second value) context rest middle after post) :
    Follows (first >>= second) context tokens before after post := by
  unfold Follows at hfirst
  cases hresult : (first context tokens).result with
  | error error =>
    rw [hresult] at hfirst
    have hbind : ((first >>= second) context tokens).result = .error error := by
      simp [bind, Parse.bind, hresult]
    rw [Follows, hbind]
    exact hfirst
  | ok value =>
    rw [hresult] at hfirst
    obtain ⟨hsuffix, hbetween, hrun⟩ := hfirst
    have hnext := hsecond value _ hsuffix hbetween
    have hbind : ((first >>= second) context tokens).result =
        (second value context (first context tokens).rest).result := by
      simp [bind, Parse.bind, hresult]
    have hrest : ((first >>= second) context tokens).rest =
        (second value context (first context tokens).rest).rest := by
      simp [bind, Parse.bind, hresult]
    unfold Follows at hnext ⊢
    rw [hbind, hrest]
    cases hagain : (second value context (first context tokens).rest).result with
    | error error =>
      rw [hagain] at hnext
      exact hrun.trans hnext
    | ok result =>
      rw [hagain] at hnext
      obtain ⟨hsuffix', hpost, hrun'⟩ := hnext
      exact ⟨hsuffix'.trans hsuffix, hpost, hrun.trans hrun'⟩

/-- An outlook may be exchanged for one that makes the same of the tokens. -/
theorem Follows.of_run_eq {step : Parse α} (h : Follows step context tokens middle after post)
    (hrun : before.run context.capabilities (context.ended tokens) =
      middle.run context.capabilities (context.ended tokens)) :
    Follows step context tokens before after post := by
  unfold Follows at h ⊢
  rw [hrun]
  exact h

theorem Follows.mono {step : Parse α} {post' : List Token → Prop}
    (h : Follows step context tokens before after post)
    (hpost : ∀ rest, rest <:+ tokens → post rest → post' rest) :
    Follows step context tokens before after post' := by
  unfold Follows at h ⊢
  split
  · next hresult =>
    rw [hresult] at h
    exact ⟨h.1, hpost _ h.1 h.2.1, h.2.2⟩
  · next hresult =>
    rw [hresult] at h
    exact h

theorem ended_cons : context.ended (token :: tokens) = token :: context.ended tokens :=
  rfl

/-- There is always a token ahead, if only the one that ends the input. -/
theorem exists_ended_eq (context : ParseContext) (tokens : List Token) :
    ∃ behind, context.ended tokens = firstToken context tokens :: behind := by
  cases tokens with
  | nil => exact ⟨[], rfl⟩
  | cons token tokens => exact ⟨context.ended tokens, rfl⟩

-- ════════════════════════════════════════════════════════════════════════
-- The pieces of a statement
-- ════════════════════════════════════════════════════════════════════════

theorem follows_next_cons {second : Token → Parse β} (middle : Outlook)
    (hstep : before.step context.capabilities token.kind = .ok middle)
    (hsecond : Follows (second token) context tokens middle after post) :
    Follows (next >>= second) context (token :: tokens) before after post := by
  have hbind : (next >>= second) context (token :: tokens) = second token context tokens := rfl
  unfold Follows at hsecond ⊢
  rw [hbind, ended_cons, Outlook.run_cons_of_ok hstep]
  split
  · next hresult =>
    rw [hresult] at hsecond
    exact ⟨hsecond.1.trans (List.suffix_cons token tokens), hsecond.2⟩
  · next hresult =>
    rw [hresult] at hsecond
    exact hsecond

theorem follows_next_fail {second : Token → Parse β} (fault : ParseFault)
    (hstep : before.step context.capabilities (firstToken context tokens).kind = .error fault)
    (hsecond : (second (firstToken context tokens) context tokens.tail).result =
      .error { fault, found := firstToken context tokens }) :
    Follows (next >>= second) context tokens before after post := by
  have hbind : ((next >>= second) context tokens).result =
      .error { fault, found := firstToken context tokens } := hsecond
  obtain ⟨behind, hended⟩ := exists_ended_eq context tokens
  rw [Follows, hbind, hended]
  exact Outlook.run_cons_of_error hstep

theorem follows_capabilities_bind {second : Capabilities → Parse β}
    (h : Follows (second context.capabilities) context tokens before after post) :
    Follows (capabilities >>= second) context tokens before after post :=
  h

theorem follows_peek_bind {second : Token → Parse β}
    (h : Follows (second (firstToken context tokens)) context tokens before after post) :
    Follows (peek >>= second) context tokens before after post :=
  h

theorem follows_expect {kind : TokenKind} {fault : ParseFault} (hkind : kind ≠ .eof)
    (hok : before.step context.capabilities kind = .ok after)
    (hfault : ∀ other ≠ kind, before.step context.capabilities other = .error fault) :
    Follows (expect kind fault) context tokens before after (fun _ => True) := by
  by_cases hfirst : (firstToken context tokens).kind = kind
  · have hcons := eq_cons_of_firstToken_kind_ne (hfirst ▸ hkind)
    rw [hcons]
    refine follows_next_cons after (hfirst ▸ hok) ?_
    rw [if_pos hfirst]
    exact follows_pure trivial
  · refine follows_next_fail fault (hfault _ hfirst) ?_
    rw [if_neg hfirst]
    rfl

theorem follows_endOfStatement :
    Follows endOfStatement context tokens ⟨bodies, .ending⟩ ⟨bodies, .statement false⟩
      (fun _ => True) := by
  rcases tokens with _ | ⟨⟨kind, line⟩, tokens⟩
  · exact ⟨List.suffix_rfl, trivial, rfl⟩
  · cases kind with
    | newline => exact ⟨List.suffix_cons _ _, trivial, rfl⟩
    | dedent | eof => exact ⟨List.suffix_rfl, trivial, rfl⟩
    | _ => rfl

theorem follows_simple {name : String} {line : Nat} :
    Follows (simple name line) context tokens ⟨bodies, .ending⟩ ⟨bodies, .statement false⟩
      (fun _ => True) := by
  refine follows_capabilities_bind (follows_bind follows_endOfStatement ?_)
  intro _ rest _ _
  split
  · exact follows_pure trivial
  · exact follows_pure trivial

theorem follows_count :
    Follows count context tokens ⟨bodies, .count⟩ ⟨bodies, .colon false⟩ (fun _ => True) := by
  rcases hvalue : (firstToken context tokens).kind.value? with _ | _ | value
  · refine follows_next_fail .expectedNumber ?_ ?_
    · simp [Outlook.step, hvalue]
    · rw [hvalue]
      rfl
  · refine follows_next_fail .expectedNumber ?_ ?_
    · simp [Outlook.step, hvalue]
    · rw [hvalue]
      rfl
  · have hkind : (firstToken context tokens).kind ≠ .eof := by
      intro heof
      rw [heof] at hvalue
      cases hvalue
    rw [eq_cons_of_firstToken_kind_ne hkind]
    refine follows_next_cons ⟨bodies, .colon false⟩ ?_ ?_
    · simp [Outlook.step, hvalue]
    · rw [hvalue]
      exact follows_pure trivial

theorem follows_condition {keyword : Keyword} :
    Follows (condition keyword) context tokens ⟨bodies, .condition keyword⟩
      ⟨bodies, .colon (keyword ≠ .«while»)⟩ (fun _ => True) := by
  rcases tokens with _ | ⟨⟨kind, line⟩, tokens⟩
  · rfl
  · cases kind with
    | identifier name =>
      by_cases hname : context.capabilities.isCondition name = true
      · refine follows_next_cons ⟨bodies, .colon (keyword ≠ .«while»)⟩ ?_ ?_
        · simp [Outlook.step, hname]
        · refine follows_capabilities_bind ?_
          rw [if_pos hname]
          exact follows_pure trivial
      · refine follows_next_fail (.unknownCondition name) ?_ ?_
        · simp [Outlook.step, hname]
        · change ((if _ then _ else _ : Parse Callable) context tokens).result = _
          rw [if_neg hname]
          rfl
    | _ => rfl

theorem follows_procedureName {line : Nat} :
    Follows (procedureName line) context tokens ⟨bodies, .procedureName⟩
      ⟨bodies, .colon false⟩ (fun _ => True) := by
  rcases tokens with _ | ⟨⟨kind, nameLine⟩, tokens⟩
  · rfl
  · cases kind with
    | identifier name =>
      refine follows_next_cons ⟨bodies, .colon false⟩ rfl ?_
      refine follows_capabilities_bind ?_
      -- the warning about a shadowed command reads nothing
      cases hname : context.capabilities.isCommand name with
      | true => exact ⟨List.suffix_rfl, trivial, rfl⟩
      | false => exact ⟨List.suffix_rfl, trivial, rfl⟩
    | _ => rfl

-- ════════════════════════════════════════════════════════════════════════
-- Statements, blocks and arms
-- ════════════════════════════════════════════════════════════════════════

/-- Within a bound, a block is followed up to the token that ends it. -/
def BlockFollows (context : ParseContext) (block : Parse Block) (bound : Nat) : Prop :=
  ∀ {tokens bodies}, tokens.length < bound →
    Follows block context tokens ⟨bodies, .statement false⟩ ⟨bodies, .statement false⟩
      (fun rest => (firstToken context rest).kind.closesBlock = true)

/-- Within a bound, arms are followed. -/
def ArmsFollow (context : ParseContext) (arms : Parse Arms) (bound : Nat) : Prop :=
  ∀ {tokens bodies}, tokens.length < bound →
    Follows arms context tokens ⟨bodies, .statement true⟩ ⟨bodies, .statement false⟩ (fun _ => True)

variable {bound : Nat} {block : Parse Block} {others : Parse Arms}

theorem BlockFollows.body (hblock : BlockFollows context block bound)
    (hlength : tokens.length < bound) {arms : Bool} :
    Follows (body block) context tokens ⟨bodies, .colon arms⟩ ⟨bodies, .statement arms⟩
      (fun _ => True) := by
  have hcolon : Follows (expect .colon .expectedColon) context tokens ⟨bodies, .colon arms⟩
      ⟨bodies, .newline arms⟩ (fun _ => True) :=
    follows_expect (by decide) rfl fun other hother => if_neg hother
  refine follows_bind hcolon fun _ rest hrest _ => ?_
  have hrestLength := hrest.length_le
  rcases rest with _ | ⟨⟨kind, line⟩, rest⟩
  · rfl
  · rw [List.length_cons] at hrestLength
    cases kind with
    | newline =>
      refine follows_next_cons ⟨bodies, .indent arms⟩ rfl ?_
      have hindent : Follows (expect .indent .expectedBlock) context rest ⟨bodies, .indent arms⟩
          ⟨arms :: bodies, .statement false⟩ (fun _ => True) :=
        follows_expect (by decide) rfl fun other hother => if_neg hother
      refine follows_bind hindent fun _ inner hinner _ => ?_
      have hinnerLength := hinner.length_le
      refine follows_bind (hblock (by omega)) fun statements behind _ hcloses => ?_
      -- the block ends before a `dedent`, or else the input ends too early
      rcases behind with _ | ⟨⟨kind, line⟩, behind⟩
      · rfl
      · cases kind with
        | dedent => exact ⟨List.suffix_cons _ _, trivial, rfl⟩
        | eof => rfl
        | _ => cases hcloses
    | _ => rfl

/-- A header that awaits a body is followed together with its body. -/
theorem BlockFollows.header (hblock : BlockFollows context block bound)
    (hlength : tokens.length < bound) {arms : Bool} {step : Parse α} {make : α → Block → β}
    (hstep : Follows step context tokens before ⟨bodies, .colon arms⟩ (fun _ => True)) :
    Follows (do let found ← step; let statements ← Parse.body block; pure (make found statements))
      context tokens before ⟨bodies, .statement arms⟩ (fun rest => rest <:+ tokens) := by
  refine follows_bind hstep fun found rest hrest _ => ?_
  have hrestLength := hrest.length_le
  refine follows_bind (hblock.body (by omega)) fun statements behind hbehind _ => ?_
  exact follows_pure (hbehind.trans hrest)

/-- A statement is followed, and it has a token of its own. -/
theorem BlockFollows.statement (hblock : BlockFollows context block bound)
    (hothers : ArmsFollow context others bound) (hlength : tokens.length < bound)
    (hcloses : token.kind.closesBlock = false) (hnewline : token.kind ≠ .newline) :
    Follows (statement block others) context (token :: tokens) ⟨bodies, .statement false⟩
      ⟨bodies, .statement false⟩ (fun rest => rest <:+ tokens) := by
  obtain ⟨kind, line⟩ := token
  cases kind with
  | identifier name =>
    refine follows_next_cons ⟨bodies, .ending⟩ rfl ?_
    exact follows_simple.mono fun rest hrest _ => hrest
  | keyword reserved =>
    cases reserved with
    | «do» =>
      refine follows_next_cons ⟨bodies, .count⟩ rfl ?_
      exact hblock.header hlength follows_count
    | «if» =>
      refine follows_next_cons ⟨bodies, .condition .«if»⟩ rfl ?_
      refine follows_bind follows_condition fun test rest hrest _ => ?_
      have hrestLength := hrest.length_le
      refine follows_bind (hblock.body (by omega)) fun statements behind hbehind _ => ?_
      have hbehindLength := hbehind.length_le
      refine follows_bind (hothers (by omega)) fun arms left hleft _ => ?_
      exact follows_pure ((hleft.trans hbehind).trans hrest)
    | «while» =>
      refine follows_next_cons ⟨bodies, .condition .«while»⟩ rfl ?_
      exact hblock.header hlength follows_condition
    | define =>
      refine follows_next_cons ⟨bodies, .procedureName⟩ rfl ?_
      exact hblock.header hlength follows_procedureName
    | elif | «else» => rfl
  | newline => exact absurd rfl hnewline
  | dedent | eof => cases hcloses
  | _ => rfl

/-- Passing over `newline` tokens changes nothing where a statement is awaited. -/
theorem run_dropWhile_newline {arms : Bool} (tokens : List Token) :
    Outlook.run context.capabilities ⟨bodies, .statement arms⟩ (context.ended tokens) =
      Outlook.run context.capabilities ⟨bodies, .statement arms⟩
        (context.ended (tokens.dropWhile (·.kind = .newline))) := by
  induction tokens with
  | nil => rfl
  | cons token tokens ih =>
    obtain ⟨kind, line⟩ := token
    by_cases hkind : kind = .newline
    · subst hkind
      rw [List.dropWhile_cons_of_pos (by simp), ← ih]
      rfl
    · rw [List.dropWhile_cons_of_neg (by simpa using hkind)]

/-- Where no arm and no `newline` is next, it does not matter whether arms may follow. -/
theorem run_statement_true {kind : TokenKind} {line : Nat} (hnewline : kind ≠ .newline)
    (helif : kind ≠ .keyword .elif) (helse : kind ≠ .keyword .«else») (tokens : List Token) :
    Outlook.run context.capabilities ⟨bodies, .statement true⟩ (⟨kind, line⟩ :: tokens) =
      Outlook.run context.capabilities ⟨bodies, .statement false⟩ (⟨kind, line⟩ :: tokens) := by
  cases kind with
  | keyword reserved =>
    cases reserved with
    | elif => exact absurd rfl helif
    | «else» => exact absurd rfl helse
    | _ => rfl
  | newline => exact absurd rfl hnewline
  | _ => rfl

theorem follows_newlines {arms : Bool} :
    Follows newlines context tokens ⟨bodies, .statement arms⟩ ⟨bodies, .statement arms⟩
      (fun rest => (firstToken context rest).kind ≠ .newline) := by
  refine ⟨List.dropWhile_suffix _, ?_, run_dropWhile_newline tokens⟩
  change (firstToken context (tokens.dropWhile (·.kind = .newline))).kind ≠ .newline
  cases hrest : tokens.dropWhile (·.kind = .newline) with
  | nil => simp
  | cons token rest =>
    have hne : tokens.dropWhile (·.kind = .newline) ≠ [] := by simp [hrest]
    have hnot := List.head_dropWhile_not (fun token : Token => decide (token.kind = .newline)) hne
    simpa [hrest] using hnot

theorem armsFollow_succ (hblock : BlockFollows context (Parse.block bound) bound)
    (harms : ArmsFollow context (Parse.arms bound) bound) :
    ArmsFollow context (Parse.arms (bound + 1)) (bound + 1) := by
  intro tokens bodies hlength
  refine follows_bind follows_newlines fun _ rest hrest hnewline => follows_peek_bind ?_
  have hrestLength := hrest.length_le
  rcases rest with _ | ⟨⟨kind, line⟩, rest⟩
  · exact ⟨List.suffix_rfl, trivial, rfl⟩
  · have hdone (hkind : kind ≠ .keyword .elif) (hkind' : kind ≠ .keyword .«else») :
        Follows (pure Arms.done) context (⟨kind, line⟩ :: rest) ⟨bodies, .statement true⟩
          ⟨bodies, .statement false⟩ (fun _ => True) :=
      (follows_pure trivial).of_run_eq (run_statement_true hnewline hkind hkind' _)
    cases kind with
    | keyword reserved =>
      cases reserved with
      | elif =>
        refine follows_next_cons ⟨bodies, .condition .elif⟩ rfl ?_
        refine follows_bind follows_condition fun test after hafter _ => ?_
        have hafterLength := hafter.length_le
        refine follows_bind (hblock.body (by grind)) fun statements behind hbehind _ => ?_
        have hbehindLength := hbehind.length_le
        refine follows_bind (harms (by grind)) fun others left hleft _ => ?_
        exact follows_pure trivial
      | «else» =>
        refine follows_next_cons ⟨bodies, .colon false⟩ rfl ?_
        refine follows_bind (hblock.body (by grind)) fun statements behind hbehind _ => ?_
        exact follows_pure trivial
      | _ => exact hdone (by simp) (by simp)
    | _ => exact hdone (by simp) (by simp)

theorem blockFollows_succ (hblock : BlockFollows context (Parse.block bound) bound)
    (harms : ArmsFollow context (Parse.arms bound) bound) :
    BlockFollows context (Parse.block (bound + 1)) (bound + 1) := by
  intro tokens bodies hlength
  refine follows_peek_bind ?_
  rcases tokens with _ | ⟨token, tokens⟩
  · exact follows_pure rfl
  · rw [List.length_cons, Nat.add_lt_add_iff_right] at hlength
    have hcons (hcloses : token.kind.closesBlock = false) (hnewline : token.kind ≠ .newline) :
        Follows (do
            let first ← Parse.statement (Parse.block bound) (Parse.arms bound)
            let others ← Parse.block bound
            pure (first :: others))
          context (token :: tokens) ⟨bodies, .statement false⟩ ⟨bodies, .statement false⟩
          (fun rest => (firstToken context rest).kind.closesBlock = true) := by
      refine follows_bind (hblock.statement harms hlength hcloses hnewline) ?_
      intro first rest _ hrest
      have hrestLength := hrest.length_le
      exact follows_bind (hblock (by omega)) fun others behind _ hcloses => follows_pure hcloses
    obtain ⟨kind, line⟩ := token
    cases kind with
    | dedent | eof => exact follows_pure rfl
    | newline => exact follows_next_cons _ rfl (hblock hlength)
    | _ => exact hcons rfl (by simp)

/-- Within any bound, blocks and arms are followed. -/
theorem blockFollows_and_armsFollow (context : ParseContext) (bound : Nat) :
    BlockFollows context (Parse.block bound) bound ∧
      ArmsFollow context (Parse.arms bound) bound := by
  induction bound with
  | zero =>
    constructor
    · intro tokens bodies hlength
      exact absurd hlength (Nat.not_lt_zero _)
    · intro tokens bodies hlength
      exact absurd hlength (Nat.not_lt_zero _)
  | succ bound ih => exact ⟨blockFollows_succ ih.1 ih.2, armsFollow_succ ih.1 ih.2⟩

/-- The outlook finishes on the tokens of a program, and otherwise finds the fault that the parser
    finds, at the same token. -/
theorem run_start_ended (h : ∀ token ∈ tokens, token.kind ≠ .eof) :
    Outlook.start.run context.capabilities (context.ended tokens) =
      (program context tokens).result.map fun _ => Outlook.finished := by
  have hblock : Follows (block (tokens.length + 1)) context tokens Outlook.start Outlook.start
      (fun rest => (firstToken context rest).kind.closesBlock = true) :=
    (blockFollows_and_armsFollow context (tokens.length + 1)).1 (Nat.lt_succ_self _)
  unfold Follows at hblock
  cases hresult : (block (tokens.length + 1) context tokens).result with
  | error error =>
    rw [hresult] at hblock
    have hprogram : (program context tokens).result = .error error := by
      simp [program, programWithin, bind, Parse.bind, hresult]
    rw [hprogram]
    exact hblock
  | ok statements =>
    rw [hresult] at hblock
    obtain ⟨hsuffix, hcloses, hrun⟩ := hblock
    have hprogram : (program context tokens).result =
        ((do expect .eof .expectedStatement; pure statements : Parse Block) context
          (block (tokens.length + 1) context tokens).rest).result := by
      simp [program, programWithin, bind, Parse.bind, hresult]
    rw [hprogram, hrun]
    generalize (block (tokens.length + 1) context tokens).rest = rest at hsuffix hcloses
    rcases rest with _ | ⟨⟨kind, line⟩, rest⟩
    · rfl
    · cases kind with
      | dedent => rfl
      | eof => exact absurd rfl (h _ (hsuffix.subset List.mem_cons_self))
      | _ => cases hcloses

/-- The outlook finishes on the tokens of a source text that has a tree, and otherwise finds the
    error of the text. -/
theorem run_toList (capabilities : Capabilities) (source : String) :
    Outlook.start.run capabilities (TokenStream.ofSource source).toList =
      (parseProgram capabilities source).map fun _ => Outlook.finished :=
  @run_start_ended { capabilities, endLine := endLine source } (scan source)
    fun _ hmem => kind_ne_eof_of_mem_scan hmem

theorem run_toList_eq_error_iff {capabilities : Capabilities} {source : String}
    {error : ParseError} :
    Outlook.start.run capabilities (TokenStream.ofSource source).toList = .error error ↔
      parseProgram capabilities source = .error error := by
  rw [run_toList]
  cases parseProgram capabilities source with
  | ok block => simp [Except.map]
  | error found => simp [Except.map]

end Karel.Parse
