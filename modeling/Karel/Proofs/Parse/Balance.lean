import Karel.Proofs.Parse.Faults
import Karel.Proofs.Parse.Following
import Karel.Proofs.Tree.Nesting

/-!
# Balance

The scanner closes each level that it opens, and the parser opens a body for each `indent` that it
takes in. So wherever the parser is, the levels that are open in the text are the bodies that it is
inside of, and a block can only end where its body does: the block of a body before a `dedent`, and
the root block before the end of the input.

## Main definitions

- `Parse.Reaches` — where a reading of a program calls which step

## Main results

- `Parse.Reaches.exists_levelled` — the tokens ahead of each call close the open levels
- `Parse.Reaches.misses_of_fails` — only at the beginning of a statement a statement is missed
- `Parse.blocks_end_with_their_bodies` — the checks behind a block never fail on a source text
-/

namespace Karel.Parse

open Grammar

/-- The steps of the parser that call each other. -/
inductive Phrase where
  | block
  | statement
  | arms
  | body

/-- Reading a program from the tokens `start`, the parser calls a step within a bound on the given
    tokens. A call behind another step takes place only if that step succeeds. -/
inductive Reaches (context : ParseContext) (start : List Token) :
    Phrase → Nat → List Token → Prop where
  | program : Reaches context start .block (start.length + 1) start
  | newline {bound line : Nat} {tokens : List Token}
      (call : Reaches context start .block (bound + 1) (⟨.newline, line⟩ :: tokens)) :
    Reaches context start .block bound tokens
  | statement {bound : Nat} {token : Token} {tokens : List Token}
      (call : Reaches context start .block (bound + 1) (token :: tokens))
      (further : token.kind.closesBlock = false) (shown : token.kind ≠ .newline) :
    Reaches context start .statement bound (token :: tokens)
  | others {bound : Nat} {token : Token} {tokens middle : List Token} {first : Statement}
      (call : Reaches context start .block (bound + 1) (token :: tokens))
      (further : token.kind.closesBlock = false) (shown : token.kind ≠ .newline)
      (reads : Reads (statement (block bound) (arms bound)) context (token :: tokens) first
        middle) :
    Reaches context start .block bound middle
  | doTimes {bound line value : Nat} {tokens middle : List Token}
      (call : Reaches context start .statement bound (⟨.keyword .«do», line⟩ :: tokens))
      (counted : Reads count context tokens value middle) :
    Reaches context start .body bound middle
  | ifElse {bound line : Nat} {test : Callable} {tokens middle : List Token}
      (call : Reaches context start .statement bound (⟨.keyword .«if», line⟩ :: tokens))
      (tested : Reads (condition .«if») context tokens test middle) :
    Reaches context start .body bound middle
  | arms {bound line : Nat} {test : Callable} {tokens middle behind : List Token}
      {statements : Block}
      (call : Reaches context start .statement bound (⟨.keyword .«if», line⟩ :: tokens))
      (tested : Reads (condition .«if») context tokens test middle)
      (reads : Reads (body (block bound)) context middle statements behind) :
    Reaches context start .arms bound behind
  | whileDo {bound line : Nat} {test : Callable} {tokens middle : List Token}
      (call : Reaches context start .statement bound (⟨.keyword .«while», line⟩ :: tokens))
      (tested : Reads (condition .«while») context tokens test middle) :
    Reaches context start .body bound middle
  | define {bound line : Nat} {name : String} {tokens middle : List Token}
      (call : Reaches context start .statement bound (⟨.keyword .define, line⟩ :: tokens))
      (named : Reads (procedureName line) context tokens name middle) :
    Reaches context start .body bound middle
  | elif {bound line : Nat} {test : Callable} {tokens ahead middle : List Token}
      (call : Reaches context start .arms (bound + 1) tokens)
      (next : tokens.dropWhile (·.kind = .newline) = ⟨.keyword .elif, line⟩ :: ahead)
      (tested : Reads (condition .elif) context ahead test middle) :
    Reaches context start .body bound middle
  | furtherArms {bound line : Nat} {test : Callable} {tokens ahead middle behind : List Token}
      {statements : Block}
      (call : Reaches context start .arms (bound + 1) tokens)
      (next : tokens.dropWhile (·.kind = .newline) = ⟨.keyword .elif, line⟩ :: ahead)
      (tested : Reads (condition .elif) context ahead test middle)
      (reads : Reads (body (block bound)) context middle statements behind) :
    Reaches context start .arms bound behind
  | otherwise {bound line : Nat} {tokens ahead : List Token}
      (call : Reaches context start .arms (bound + 1) tokens)
      (next : tokens.dropWhile (·.kind = .newline) = ⟨.keyword .«else», line⟩ :: ahead) :
    Reaches context start .body bound ahead
  | inner {bound colonLine newlineLine indentLine : Nat} {tokens : List Token}
      (call : Reaches context start .body bound
        (⟨.colon, colonLine⟩ :: ⟨.newline, newlineLine⟩ :: ⟨.indent, indentLine⟩ :: tokens)) :
    Reaches context start .block bound tokens

variable {context : ParseContext} {start tokens rest : List Token} {phrase : Phrase}
  {bound : Nat} {error : ParseError}

-- ════════════════════════════════════════════════════════════════════════
-- The bound is never used up
-- ════════════════════════════════════════════════════════════════════════

/-- A statement is read within the bound of what is behind its first token. -/
def Phrase.slack : Phrase → Nat
  | statement => 1
  | block | arms | body => 0

theorem Follows.suffix {α : Type} {step : Parse α} {value : α} {before after : Outlook}
    {post : List Token → Prop} (h : Follows step context tokens before after post)
    (hreads : Reads step context tokens value rest) : rest <:+ tokens ∧ post rest := by
  obtain ⟨hresult, rfl⟩ := hreads
  rw [Follows, hresult] at h
  exact ⟨h.1, h.2.1⟩

theorem length_le_of_reads_body {statements : Block} (hlength : tokens.length < bound)
    (h : Reads (body (block bound)) context tokens statements rest) :
    rest.length ≤ tokens.length := by
  have hblock : BlockFollows context (block bound) bound :=
    (blockFollows_and_armsFollow context bound).1
  have hbody : Follows (body (block bound)) context tokens ⟨[], .colon false⟩
      ⟨[], .statement false⟩ (fun _ => True) := hblock.body hlength
  exact (hbody.suffix h).1.length_le

theorem Reaches.length_lt (h : Reaches context start phrase bound tokens) :
    tokens.length < bound + phrase.slack := by
  have hdrop (tokens : List Token) :
      (tokens.dropWhile (·.kind = .newline)).length ≤ tokens.length :=
    (List.dropWhile_suffix _).length_le
  induction h with
  | program => exact Nat.lt_succ_self _
  | newline call ih => exact Nat.lt_of_succ_lt_succ ih
  | statement call further shown ih => exact ih
  | @others bound token tokens middle first call further shown reads ih =>
    obtain ⟨hblock, harms⟩ := blockFollows_and_armsFollow context bound
    have hstatement : Follows (Parse.statement (Parse.block bound) (Parse.arms bound)) context
        (token :: tokens) ⟨[], .statement false⟩ ⟨[], .statement false⟩ (· <:+ tokens) :=
      hblock.statement harms (Nat.lt_of_succ_lt_succ ih) further shown
    have hlength := (hstatement.suffix reads).2.length_le
    exact Nat.lt_of_le_of_lt hlength (Nat.lt_of_succ_lt_succ ih)
  | doTimes call counted ih =>
    obtain ⟨digits, numberLine, rfl, -⟩ := reads_count.mp counted
    simp only [Phrase.slack, List.length_cons] at ih ⊢
    omega
  | ifElse call tested ih | whileDo call tested ih =>
    obtain ⟨name, nameLine, rfl, -⟩ := reads_condition.mp tested
    simp only [Phrase.slack, List.length_cons] at ih ⊢
    omega
  | arms call tested reads ih =>
    obtain ⟨name, nameLine, rfl, -⟩ := reads_condition.mp tested
    simp only [Phrase.slack, List.length_cons] at ih ⊢
    have hlength := length_le_of_reads_body (by omega) reads
    omega
  | define call named ih =>
    obtain ⟨nameLine, rfl⟩ := reads_procedureName.mp named
    simp only [Phrase.slack, List.length_cons] at ih ⊢
    omega
  | @elif _ _ _ tokens _ _ call next tested ih =>
    obtain ⟨name, nameLine, rfl, -⟩ := reads_condition.mp tested
    have hahead := hdrop tokens
    rw [next] at hahead
    simp only [Phrase.slack, List.length_cons] at ih hahead ⊢
    omega
  | @furtherArms _ _ _ tokens _ _ _ _ call next tested reads ih =>
    obtain ⟨name, nameLine, rfl, -⟩ := reads_condition.mp tested
    have hahead := hdrop tokens
    rw [next] at hahead
    simp only [Phrase.slack, List.length_cons] at ih hahead ⊢
    have hlength := length_le_of_reads_body (by omega) reads
    omega
  | @otherwise _ _ tokens _ call next ih =>
    have hahead := hdrop tokens
    rw [next] at hahead
    simp only [Phrase.slack, List.length_cons] at ih hahead ⊢
    omega
  | inner call ih =>
    simp only [Phrase.slack, List.length_cons] at ih ⊢
    omega

-- ════════════════════════════════════════════════════════════════════════
-- Open levels and open bodies
-- ════════════════════════════════════════════════════════════════════════

variable {width : Nat → Nat} {levels : List Nat} {statements : Block}

theorem levelled_dropWhile (h : Levelled width levels (context.ended tokens)) :
    Levelled width levels (context.ended (tokens.dropWhile (·.kind = .newline))) := by
  induction tokens with
  | nil => exact h
  | cons token tokens ih =>
    obtain ⟨kind, line⟩ := token
    by_cases hkind : kind = .newline
    · subst hkind
      rw [List.dropWhile_cons_of_pos (by simp)]
      exact ih (levelled_newline.mp h)
    · rw [List.dropWhile_cons_of_neg (by simpa using hkind)]
      exact h

theorem levelled_of_reads_body (h : Levelled width levels (context.ended tokens))
    (hreads : Reads (body (block bound)) context tokens statements rest) :
    Levelled width levels (context.ended rest) := by
  have hsound : BlockSound context (block bound) := (blockSound_and_armsSound context bound).1
  obtain ⟨derivation⟩ := hsound.body hreads
  exact (derivation.aligned h).2

theorem levelled_of_reads_block (h : Levelled width levels (context.ended tokens))
    (hreads : Reads (block bound) context tokens statements rest) :
    Levelled width levels (context.ended rest) := by
  obtain ⟨derivation⟩ := (blockSound_and_armsSound context bound).1 hreads
  exact (derivation.aligned h).2

theorem levelled_of_reads_statement {first : Statement}
    (h : Levelled width levels (context.ended tokens))
    (hreads : Reads (statement (block bound) (arms bound)) context tokens first rest) :
    Levelled width levels (context.ended rest) := by
  obtain ⟨hblock, harms⟩ := blockSound_and_armsSound context bound
  obtain ⟨middle, hskips, ⟨derivation⟩⟩ := statementDerivation_of_reads hblock harms hreads
  have hmiddle := (derivation.aligned h).2.2
  rcases hskips with rfl | rfl
  · exact hmiddle
  · exact levelled_dropWhile hmiddle

/-- The tokens ahead of a call close the levels that are open there. -/
theorem Reaches.exists_levelled (hstart : Levelled width [] (context.ended start))
    (h : Reaches context start phrase bound tokens) :
    ∃ levels, Levelled width levels (context.ended tokens) := by
  induction h with
  | program => exact ⟨[], hstart⟩
  | newline call ih | statement call further shown ih => exact ih
  | others call further shown reads ih =>
    obtain ⟨levels, hlevels⟩ := ih
    exact ⟨levels, levelled_of_reads_statement hlevels reads⟩
  | doTimes call counted ih =>
    obtain ⟨levels, -, hlevels⟩ := ih
    obtain ⟨digits, numberLine, rfl, -⟩ := reads_count.mp counted
    exact ⟨levels, hlevels.2⟩
  | ifElse call tested ih | whileDo call tested ih =>
    obtain ⟨levels, -, hlevels⟩ := ih
    obtain ⟨name, nameLine, rfl, -⟩ := reads_condition.mp tested
    exact ⟨levels, hlevels.2⟩
  | arms call tested reads ih =>
    obtain ⟨levels, -, hlevels⟩ := ih
    obtain ⟨name, nameLine, rfl, -⟩ := reads_condition.mp tested
    exact ⟨levels, levelled_of_reads_body hlevels.2 reads⟩
  | define call named ih =>
    obtain ⟨levels, -, hlevels⟩ := ih
    obtain ⟨nameLine, rfl⟩ := reads_procedureName.mp named
    exact ⟨levels, hlevels.2⟩
  | elif call next tested ih =>
    obtain ⟨levels, hlevels⟩ := ih
    obtain ⟨name, nameLine, rfl, -⟩ := reads_condition.mp tested
    have hahead := levelled_dropWhile hlevels
    rw [next] at hahead
    exact ⟨levels, hahead.2.2⟩
  | furtherArms call next tested reads ih =>
    obtain ⟨levels, hlevels⟩ := ih
    obtain ⟨name, nameLine, rfl, -⟩ := reads_condition.mp tested
    have hahead := levelled_dropWhile hlevels
    rw [next] at hahead
    exact ⟨levels, levelled_of_reads_body hahead.2.2 reads⟩
  | otherwise call next ih =>
    obtain ⟨levels, hlevels⟩ := ih
    have hahead := levelled_dropWhile hlevels
    rw [next] at hahead
    exact ⟨levels, hahead.2⟩
  | inner call ih =>
    obtain ⟨levels, -, -, hlevels⟩ := ih
    exact ⟨_, hlevels⟩

/-- Where no level is open, a block ends before the end of the input, and otherwise before the
    `dedent` that closes the last level. -/
theorem kind_behind_block (hlength : tokens.length < bound)
    (hlevels : Levelled width levels (context.ended tokens))
    (hreads : Reads (block bound) context tokens statements rest) :
    (firstToken context rest).kind = if levels = [] then .eof else .dedent := by
  have hblock : Follows (block bound) context tokens ⟨[], .statement false⟩
      ⟨[], .statement false⟩ (fun rest => (firstToken context rest).kind.closesBlock = true) :=
    (blockFollows_and_armsFollow context bound).1 hlength
  have hcloses := (hblock.suffix hreads).2
  have hrest := levelled_of_reads_block hlevels hreads
  rcases rest with _ | ⟨⟨kind, line⟩, rest⟩
  · rw [if_pos hrest.1]
    rfl
  · cases kind with
    | dedent =>
      rw [if_neg hrest.1]
      rfl
    | eof =>
      rw [if_pos hrest.1]
      rfl
    | _ => cases hcloses

/-- The block of a body ends before the `dedent` that matches the `indent` of the body. -/
theorem Reaches.dedent_behind_block (hstart : Levelled width [] (context.ended start))
    {colonLine newlineLine indentLine : Nat} {inner : List Token}
    (h : Reaches context start .body bound
      (⟨.colon, colonLine⟩ :: ⟨.newline, newlineLine⟩ :: ⟨.indent, indentLine⟩ :: inner))
    (hreads : Reads (block bound) context inner statements rest) :
    (firstToken context rest).kind = .dedent := by
  obtain ⟨levels, -, -, hinner⟩ := h.exists_levelled hstart
  rw [kind_behind_block h.inner.length_lt hinner hreads, if_neg (List.cons_ne_nil _ _)]

-- ════════════════════════════════════════════════════════════════════════
-- Where a statement is missed
-- ════════════════════════════════════════════════════════════════════════

/-- An error at a number or a colon with which a statement would have to begin. -/
def MissesStatement (context : ParseContext) (start : List Token) (error : ParseError) : Prop :=
  ((∃ digits, error.found.kind = .number digits) ∨ error.found.kind = .colon) ∧
    ∃ bound behind, Reaches context start .statement bound (error.found :: behind)

theorem Reaches.misses_of_fails_body (hstart : Levelled width [] (context.ended start))
    (hfault : error.fault = .expectedStatement)
    (hblock : ∀ inner, Reaches context start .block bound inner →
      Fails (Parse.block bound) context inner error → MissesStatement context start error)
    (h : Reaches context start .body bound tokens)
    (hfails : Fails (body (Parse.block bound)) context tokens error) :
    MissesStatement context start error := by
  rcases fails_body hfails with hother | hother | hother | ⟨_, _, _, inner, rfl, hinner⟩
  · cases hfault.symm.trans hother
  · cases hfault.symm.trans hother
  · cases hfault.symm.trans hother
  · rcases hinner with hinner | ⟨found, rest, hreads, hkind, -⟩
    · exact hblock inner h.inner hinner
    · exact absurd (h.dedent_behind_block hstart hreads) hkind

theorem Reaches.misses_of_fails_statement {token : Token}
    (hfault : error.fault = .expectedStatement)
    (hbody : ∀ middle, Reaches context start .body bound middle →
      Fails (body (Parse.block bound)) context middle error → MissesStatement context start error)
    (harms : ∀ behind, Reaches context start .arms bound behind →
      Fails (Parse.arms bound) context behind error → MissesStatement context start error)
    (h : Reaches context start .statement bound (token :: tokens))
    (hfails : Fails (Parse.statement (Parse.block bound) (Parse.arms bound)) context
      (token :: tokens) error) :
    MissesStatement context start error := by
  have hcondition {after : Keyword} {tokens : List Token}
      (hfails : Fails (condition after) context tokens error) :
      MissesStatement context start error := by
    rcases fault_of_fails_condition hfails with hother | ⟨name, hother⟩
    · cases hfault.symm.trans hother
    · cases hfault.symm.trans hother
  have hopened := hfails
  rw [Parse.statement, fails_next_bind] at hopened
  obtain ⟨kind, line⟩ := token
  cases kind with
  | identifier name =>
    have hother := fault_of_fails_simple hopened
    cases hfault.symm.trans hother
  | keyword reserved =>
    cases reserved with
    | «do» =>
      rcases fails_statement_do.mp hfails with hcount | ⟨value, middle, hcount, hfails⟩
      · have hother := fault_of_fails_count hcount
        cases hfault.symm.trans hother
      · exact hbody middle (h.doTimes hcount) hfails
    | «if» =>
      rcases fails_statement_if.mp hfails with htest | ⟨test, middle, htest, hfails⟩
      · exact hcondition htest
      · rcases hfails with hfails | ⟨statements, behind, hreads, hfails⟩
        · exact hbody middle (h.ifElse htest) hfails
        · exact harms behind (h.arms htest hreads) hfails
    | «while» =>
      rcases fails_statement_while.mp hfails with htest | ⟨test, middle, htest, hfails⟩
      · exact hcondition htest
      · exact hbody middle (h.whileDo htest) hfails
    | define =>
      rcases fails_statement_define.mp hfails with hname | ⟨name, middle, hname, hfails⟩
      · have hother := fault_of_fails_procedureName hname
        cases hfault.symm.trans hother
      · exact hbody middle (h.define hname) hfails
    | elif | «else» =>
      rw [← fails_fail.mp hopened] at hfault
      cases hfault
  | indent =>
    rw [← fails_fail.mp hopened] at hfault
    cases hfault
  | number digits =>
    rw [← fails_fail.mp hopened]
    exact ⟨.inl ⟨digits, rfl⟩, bound, tokens, h⟩
  | colon =>
    rw [← fails_fail.mp hopened]
    exact ⟨.inr rfl, bound, tokens, h⟩
  | newline =>
    cases h with
    | statement _ _ shown => exact absurd rfl shown
  | dedent | eof =>
    cases h with
    | statement _ further => cases further

theorem Reaches.misses_of_fails_arms (hfault : error.fault = .expectedStatement)
    (hbody : ∀ middle, Reaches context start .body bound middle →
      Fails (body (Parse.block bound)) context middle error → MissesStatement context start error)
    (harms : ∀ behind, Reaches context start .arms bound behind →
      Fails (Parse.arms bound) context behind error → MissesStatement context start error)
    (h : Reaches context start .arms (bound + 1) tokens)
    (hfails : Fails (Parse.arms (bound + 1)) context tokens error) :
    MissesStatement context start error := by
  have hopened := hfails
  rw [Parse.arms, fails_newlines_bind, fails_peek_bind] at hopened
  cases hnext : tokens.dropWhile (·.kind = .newline) with
  | nil =>
    rw [hnext] at hopened
    exact absurd hopened not_fails_pure
  | cons token ahead =>
    rw [hnext] at hopened
    obtain ⟨kind, line⟩ := token
    cases kind with
    | keyword reserved =>
      cases reserved with
      | elif =>
        rcases (fails_arms_elif hnext).mp hfails with htest | ⟨test, middle, htest, hfails⟩
        · rcases fault_of_fails_condition htest with hother | ⟨name, hother⟩
          · cases hfault.symm.trans hother
          · cases hfault.symm.trans hother
        · rcases hfails with hfails | ⟨statements, behind, hreads, hfails⟩
          · exact hbody middle (h.elif hnext htest) hfails
          · exact harms behind (h.furtherArms hnext htest hreads) hfails
      | «else» =>
        exact hbody ahead (h.otherwise hnext) ((fails_arms_otherwise hnext).mp hfails)
      | _ => exact absurd hopened not_fails_pure
    | _ => exact absurd hopened not_fails_pure

theorem Reaches.misses_of_fails_block
    (hstatement : ∀ tokens, Reaches context start .statement bound tokens →
      Fails (Parse.statement (Parse.block bound) (Parse.arms bound)) context tokens error →
        MissesStatement context start error)
    (hblock : ∀ tokens, Reaches context start .block bound tokens →
      Fails (Parse.block bound) context tokens error → MissesStatement context start error)
    (h : Reaches context start .block (bound + 1) tokens)
    (hfails : Fails (Parse.block (bound + 1)) context tokens error) :
    MissesStatement context start error := by
  rcases tokens with _ | ⟨token, tokens⟩
  · rw [Parse.block, fails_peek_bind] at hfails
    exact absurd hfails not_fails_pure
  · have hfurther (further : token.kind.closesBlock = false) (shown : token.kind ≠ .newline) :
        MissesStatement context start error := by
      rcases (fails_block_cons further shown).mp hfails with hfails | ⟨first, middle, hreads, hfails⟩
      · exact hstatement _ (h.statement further shown) hfails
      · exact hblock _ (h.others further shown hreads) hfails
    obtain ⟨kind, line⟩ := token
    cases kind with
    | dedent | eof =>
      rw [Parse.block, fails_peek_bind] at hfails
      exact absurd hfails not_fails_pure
    | newline => exact hblock tokens h.newline (fails_block_newline.mp hfails)
    | _ => exact hfurther rfl (by simp)

/-- Within any bound, a block or arms miss a statement only where one would have to begin. -/
theorem Reaches.misses_of_fails (hstart : Levelled width [] (context.ended start))
    (hfault : error.fault = .expectedStatement) (bound : Nat) :
    (∀ tokens, Reaches context start .block bound tokens →
      Fails (Parse.block bound) context tokens error → MissesStatement context start error) ∧
    ∀ tokens, Reaches context start .arms bound tokens →
      Fails (Parse.arms bound) context tokens error → MissesStatement context start error := by
  induction bound with
  | zero =>
    constructor
    · intro tokens _ hfails
      exact absurd hfails not_fails_pure
    · intro tokens _ hfails
      exact absurd hfails not_fails_pure
  | succ bound ih =>
    obtain ⟨hblock, harms⟩ := ih
    have hbody (tokens : List Token) (h : Reaches context start .body bound tokens)
        (hfails : Fails (body (Parse.block bound)) context tokens error) :
        MissesStatement context start error :=
      h.misses_of_fails_body hstart hfault hblock hfails
    constructor
    · intro tokens h hfails
      refine h.misses_of_fails_block ?_ hblock hfails
      intro tokens h hfails
      cases h with
      | statement call further shown =>
        exact (call.statement further shown).misses_of_fails_statement hfault hbody harms hfails
    · intro tokens h hfails
      exact h.misses_of_fails_arms hfault hbody harms hfails

/-- On a source text the checks behind a block never fail. The root block ends at the end of the
    input, and the block of a body before the `dedent` of the body. A statement is missed only where
    one would have to begin, at a number or a colon. -/
theorem blocks_end_with_their_bodies (capabilities : Capabilities) (source : String) :
    (∀ statements rest,
      Reads (block ((scan source).length + 1)) ⟨capabilities, endLine source⟩ (scan source)
        statements rest →
      (firstToken ⟨capabilities, endLine source⟩ rest).kind = .eof) ∧
    (∀ bound colonLine newlineLine indentLine inner statements rest,
      Reaches ⟨capabilities, endLine source⟩ (scan source) .body bound
        (⟨.colon, colonLine⟩ :: ⟨.newline, newlineLine⟩ :: ⟨.indent, indentLine⟩ :: inner) →
      Reads (block bound) ⟨capabilities, endLine source⟩ inner statements rest →
      (firstToken ⟨capabilities, endLine source⟩ rest).kind = .dedent) ∧
    ∀ error, parseProgram capabilities source = .error error →
      error.message = "Expected a statement." →
      MissesStatement ⟨capabilities, endLine source⟩ (scan source) error := by
  generalize hcontext : (⟨capabilities, endLine source⟩ : ParseContext) = context
  have hstart : Levelled (lineWidth source) [] (context.ended (scan source)) := by
    rw [← hcontext]
    exact levelled_toList source
  have hroot (statements : Block) (rest : List Token)
      (hreads : Reads (block ((scan source).length + 1)) context (scan source) statements rest) :
      (firstToken context rest).kind = .eof := by
    rw [kind_behind_block (Nat.lt_succ_self _) hstart hreads, if_pos rfl]
  refine ⟨hroot, ?_, ?_⟩
  · intro bound colonLine newlineLine indentLine inner statements rest h hreads
    exact h.dedent_behind_block hstart hreads
  · intro error hparse hmessage
    have hfault : error.fault = .expectedStatement :=
      ParseFault.eq_expectedStatement_of_message hmessage
    have hfails : Fails (programWithin ((scan source).length + 1)) context (scan source) error := by
      rw [← hcontext]
      exact hparse
    rw [programWithin, fails_bind] at hfails
    rcases hfails with hfails | ⟨statements, rest, hreads, hfails⟩
    · exact (Reaches.misses_of_fails hstart hfault _).1 _ .program hfails
    · rcases fails_bind.mp hfails with hfails | ⟨_, _, -, hfails⟩
      · exact absurd (hroot statements rest hreads) (fails_expect.mp hfails).1
      · exact absurd hfails not_fails_pure

/-- The block of a loop ends before its `dedent`, and the number behind the loop is no statement. -/
theorem blocks_end_before_stray_number :
    parseProgram Capabilities.standard "do 2:\n  move\n3" =
      .error { fault := .expectedStatement, found := ⟨.number "3", 2⟩ } ∧
    MissesStatement ⟨Capabilities.standard, 2⟩ (scan "do 2:\n  move\n3")
      { fault := .expectedStatement, found := ⟨.number "3", 2⟩ } ∧
    ∃ bound inner rest,
      Reaches ⟨Capabilities.standard, 2⟩ (scan "do 2:\n  move\n3") .body bound
        (⟨.colon, 0⟩ :: ⟨.newline, 0⟩ :: ⟨.indent, 1⟩ :: inner) ∧
      Reads (block bound) ⟨Capabilities.standard, 2⟩ inner [.command (.command "move") 1] rest ∧
      (firstToken ⟨Capabilities.standard, 2⟩ rest).kind = .dedent := by
  obtain ⟨-, hbody, hmissed⟩ :=
    blocks_end_with_their_bodies Capabilities.standard "do 2:\n  move\n3"
  have hparse : parseProgram Capabilities.standard "do 2:\n  move\n3" =
      .error { fault := .expectedStatement, found := ⟨.number "3", 2⟩ } := rfl
  have hscan : scan "do 2:\n  move\n3" =
      ⟨.keyword .«do», 0⟩ :: ⟨.number "2", 0⟩ :: ⟨.colon, 0⟩ :: ⟨.newline, 0⟩ :: ⟨.indent, 1⟩ ::
        [⟨.identifier "move", 1⟩, ⟨.newline, 1⟩, ⟨.dedent, 2⟩, ⟨.number "3", 2⟩] := by decide
  have hprogram : Reaches ⟨Capabilities.standard, 2⟩ (scan "do 2:\n  move\n3") .block 10
      (scan "do 2:\n  move\n3") := .program
  rw [hscan] at hprogram
  have hcount : Reads count ⟨Capabilities.standard, 2⟩
      (⟨.number "2", 0⟩ :: ⟨.colon, 0⟩ :: ⟨.newline, 0⟩ :: ⟨.indent, 1⟩ ::
        [⟨.identifier "move", 1⟩, ⟨.newline, 1⟩, ⟨.dedent, 2⟩, ⟨.number "3", 2⟩]) 2
      (⟨.colon, 0⟩ :: ⟨.newline, 0⟩ :: ⟨.indent, 1⟩ ::
        [⟨.identifier "move", 1⟩, ⟨.newline, 1⟩, ⟨.dedent, 2⟩, ⟨.number "3", 2⟩]) := ⟨rfl, rfl⟩
  have hcall := (hprogram.statement rfl (by simp)).doTimes hcount
  have hreads : Reads (block 9) ⟨Capabilities.standard, 2⟩
      [⟨.identifier "move", 1⟩, ⟨.newline, 1⟩, ⟨.dedent, 2⟩, ⟨.number "3", 2⟩]
      [.command (.command "move") 1] [⟨.dedent, 2⟩, ⟨.number "3", 2⟩] := ⟨rfl, rfl⟩
  refine ⟨hparse, hmissed _ hparse rfl, 9, _, _, ?_, hreads, ?_⟩
  · rw [hscan]
    exact hcall
  · exact hbody 9 0 0 1 _ _ _ (hscan ▸ hcall) hreads

end Karel.Parse
