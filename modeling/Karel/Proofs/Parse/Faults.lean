import Karel.Proofs.Parse.Steps

/-!
# Where a step fails

A sequence of steps fails where one of them does, on the tokens that those before it have left. Each
piece of a statement finds faults of its own, so the fault tells much about the place.

## Main definitions

- `Parse.Fails` — a step ends in an error

## Main results

- `Parse.fails_bind` — two steps in a row
- `Parse.fails_body` — the body of a compound statement fails before its block, in it, or behind it
- `Parse.fails_body_of_missing` — a body without an `indent`
- `Parse.fails_statement_do` and its companions — a statement, a block or arms fail if a step fails
  that they call
-/

namespace Karel

/-- No other fault is put into the words for a missing statement. -/
theorem ParseFault.eq_expectedStatement_of_message {fault : ParseFault}
    (h : fault.message = "Expected a statement.") : fault = .expectedStatement := by
  have hchars := congrArg String.toList h
  cases fault with
  | expectedStatement => rfl
  | expectedCondition after =>
    have hword (word : String) :
        ("Expected a conditional expression after an " ++ word ++ ".").toList ≠
          "Expected a statement.".toList := by
      simp
    cases after with
    | «while» => exact absurd h (by decide)
    | _ => exact absurd hchars (hword _)
  | unknownCondition name =>
    have hname : ("Unrecognized conditional expression \"" ++ name ++ "\".").toList ≠
        "Expected a statement.".toList := by
      simp
    exact absurd hchars hname
  | _ => exact absurd h (by decide)

end Karel

namespace Karel.Parse

variable {α β : Type} {context : ParseContext} {tokens : List Token} {error : ParseError}
  {bound line : Nat}

/-- A step ends in an error. -/
def Fails (step : Parse α) (context : ParseContext) (tokens : List Token)
    (error : ParseError) : Prop :=
  (step context tokens).result = .error error

/-- Two steps fail if the first one does, or the second one from where the first has left. -/
theorem fails_bind {first : Parse α} {second : α → Parse β} :
    Fails (first >>= second) context tokens error ↔
      Fails first context tokens error ∨
        ∃ found middle, Reads first context tokens found middle ∧
          Fails (second found) context middle error := by
  cases hfirst : (first context tokens).result with
  | ok found => simp [Fails, Reads, bind, Parse.bind, hfirst, and_assoc]
  | error other => simp [Fails, Reads, bind, Parse.bind, hfirst]

@[simp]
theorem not_fails_pure {value : α} : ¬ Fails (pure value) context tokens error := by
  simp [Fails, pure, Parse.pure]

@[simp]
theorem fails_fail {fault : ParseFault} {token : Token} :
    Fails (fail fault token : Parse α) context tokens error ↔
      { fault, found := token } = error := by
  simp [Fails, fail]

@[simp]
theorem fails_peek_bind {second : Token → Parse β} :
    Fails (peek >>= second) context tokens error ↔
      Fails (second (firstToken context tokens)) context tokens error := by
  simp [Fails, bind, Parse.bind, peek]

@[simp]
theorem fails_next_bind {second : Token → Parse β} :
    Fails (next >>= second) context tokens error ↔
      Fails (second (firstToken context tokens)) context tokens.tail error := by
  simp [Fails, bind, Parse.bind, next]

@[simp]
theorem fails_capabilities_bind {second : Capabilities → Parse β} :
    Fails (capabilities >>= second) context tokens error ↔
      Fails (second context.capabilities) context tokens error := by
  simp [Fails, bind, Parse.bind, capabilities]

@[simp]
theorem fails_newlines_bind {second : Unit → Parse β} :
    Fails (newlines >>= second) context tokens error ↔
      Fails (second ()) context (tokens.dropWhile (·.kind = .newline)) error := by
  simp [Fails, bind, Parse.bind, newlines]

-- ════════════════════════════════════════════════════════════════════════
-- The pieces of a statement
-- ════════════════════════════════════════════════════════════════════════

theorem fails_expect {kind : TokenKind} {fault : ParseFault} :
    Fails (expect kind fault) context tokens error ↔
      (firstToken context tokens).kind ≠ kind ∧
        { fault, found := firstToken context tokens } = error := by
  rw [expect, fails_next_bind]
  split
  · next heq => simp [heq]
  · next hne => simp [hne]

theorem fault_of_fails_simple {name : String} {line : Nat}
    (h : Fails (simple name line) context tokens error) : error.fault = .expectedNewline := by
  rw [simple, fails_capabilities_bind, fails_bind] at h
  rcases h with h | ⟨_, middle, -, h⟩
  · rw [endOfStatement, fails_peek_bind] at h
    cases hkind : (firstToken context tokens).kind <;> rw [hkind] at h
    case newline => simp [fails_next_bind] at h
    case dedent | eof => exact absurd h not_fails_pure
    all_goals
      rw [← fails_fail.mp h]
  · split at h <;> exact absurd h not_fails_pure

theorem fault_of_fails_count (h : Fails count context tokens error) :
    error.fault = .expectedNumber := by
  rw [count, fails_next_bind] at h
  split at h
  · exact absurd h not_fails_pure
  · rw [← fails_fail.mp h]

theorem fault_of_fails_condition {after : Keyword}
    (h : Fails (condition after) context tokens error) :
    error.fault = .expectedCondition after ∨ ∃ name, error.fault = .unknownCondition name := by
  rw [condition, fails_next_bind] at h
  split at h
  · next name _ =>
    rw [fails_capabilities_bind] at h
    split at h
    · exact absurd h not_fails_pure
    · rw [← fails_fail.mp h]
      exact .inr ⟨name, rfl⟩
  · rw [← fails_fail.mp h]
    exact .inl rfl

theorem fault_of_fails_procedureName {line : Nat}
    (h : Fails (procedureName line) context tokens error) :
    error.fault = .expectedProcedureName := by
  rw [procedureName, fails_next_bind] at h
  split at h
  · rw [fails_capabilities_bind] at h
    split at h <;> cases h
  · rw [← fails_fail.mp h]

/-- A body fails at its header with a fault of the header, or else in its block, or at the token
    behind its block. -/
theorem fails_body {block : Parse Block} (h : Fails (body block) context tokens error) :
    error.fault = .expectedColon ∨ error.fault = .expectedNewline ∨ error.fault = .expectedBlock ∨
      ∃ colonLine newlineLine indentLine inner,
        tokens =
          ⟨.colon, colonLine⟩ :: ⟨.newline, newlineLine⟩ :: ⟨.indent, indentLine⟩ :: inner ∧
        (Fails block context inner error ∨
          ∃ found rest, Reads block context inner found rest ∧
            (firstToken context rest).kind ≠ .dedent ∧
            { fault := .expectedStatement, found := firstToken context rest } = error) := by
  rw [body, fails_bind] at h
  rcases h with h | ⟨_, middle, hcolon, h⟩
  · rw [← (fails_expect.mp h).2]
    exact .inl rfl
  · obtain ⟨colonLine, rfl⟩ := (reads_expect (by decide)).mp hcolon
    rw [fails_next_bind] at h
    rcases middle with _ | ⟨⟨kind, newlineLine⟩, middle⟩
    · rw [← fails_fail.mp h]
      exact .inr (.inr (.inl rfl))
    · cases kind
      case newline =>
        rw [firstToken_cons, List.tail_cons] at h
        rw [fails_bind] at h
        rcases h with h | ⟨_, inner, hindent, h⟩
        · rw [← (fails_expect.mp h).2]
          exact .inr (.inr (.inl rfl))
        · obtain ⟨indentLine, rfl⟩ := (reads_expect (by decide)).mp hindent
          refine .inr (.inr (.inr ⟨colonLine, newlineLine, indentLine, inner, rfl, ?_⟩))
          rw [fails_bind] at h
          refine h.imp_right ?_
          rintro ⟨found, rest, hblock, h⟩
          rw [fails_bind] at h
          rcases h with h | ⟨_, behind, -, h⟩
          · exact ⟨found, rest, hblock, fails_expect.mp h⟩
          · exact absurd h not_fails_pure
      case eof =>
        rw [← fails_fail.mp h]
        exact .inr (.inr (.inl rfl))
      all_goals
        rw [← fails_fail.mp h]
        exact .inr (.inl rfl)

theorem reads_expect_colon :
    Reads (expect .colon .expectedColon) context (⟨.colon, line⟩ :: tokens) () tokens :=
  ⟨rfl, rfl⟩

/-- Past the colon, the `newline` and the `indent` of a body, a failure of its block is one of the
    body. -/
theorem fails_body_of_fails_block {newlineLine indentLine : Nat} {block : Parse Block}
    (h : Fails block context tokens error) :
    Fails (body block) context
      (⟨.colon, line⟩ :: ⟨.newline, newlineLine⟩ :: ⟨.indent, indentLine⟩ :: tokens) error := by
  have hindent : Reads (expect .indent .expectedBlock) context (⟨.indent, indentLine⟩ :: tokens) ()
      tokens := ⟨rfl, rfl⟩
  refine fails_bind.mpr (.inr ⟨(), _, reads_expect_colon, fails_next_bind.mpr ?_⟩)
  exact fails_bind.mpr (.inr ⟨(), _, hindent, fails_bind.mpr (.inl h)⟩)

/-- A body that has no `indent` behind its colon fails at the token where the `indent` is missed.
    Where the `newline` is missed, too, the fault depends on that token. -/
theorem fails_body_of_missing {block : Parse Block} :
    (∀ newlineLine, (firstToken context tokens).kind ≠ .indent →
      Fails (body block) context (⟨.colon, line⟩ :: ⟨.newline, newlineLine⟩ :: tokens)
        { fault := .expectedBlock, found := firstToken context tokens }) ∧
    ((firstToken context tokens).kind ≠ .newline →
      Fails (body block) context (⟨.colon, line⟩ :: tokens)
        { fault := if (firstToken context tokens).kind = .eof then .expectedBlock
            else .expectedNewline
          found := firstToken context tokens }) := by
  constructor
  · intro newlineLine hindent
    refine fails_bind.mpr (.inr ⟨(), _, reads_expect_colon, fails_next_bind.mpr ?_⟩)
    exact fails_bind.mpr (.inl (fails_expect.mpr ⟨hindent, rfl⟩))
  · intro hnewline
    refine fails_bind.mpr (.inr ⟨(), _, reads_expect_colon, fails_next_bind.mpr ?_⟩)
    cases hkind : (firstToken context tokens).kind with
    | newline => exact absurd hkind hnewline
    | _ => simp

/-- A header and its body fail at the header or in the body. -/
theorem fails_header {step : Parse α} {block : Parse Block} {make : α → Block → β} :
    Fails (do let found ← step; let statements ← body block; pure (make found statements))
        context tokens error ↔
      Fails step context tokens error ∨
        ∃ found middle, Reads step context tokens found middle ∧
          Fails (body block) context middle error := by
  rw [fails_bind]
  simp [fails_bind]

-- ════════════════════════════════════════════════════════════════════════
-- Statements, blocks and arms
-- ════════════════════════════════════════════════════════════════════════

section Statement

variable {statements : Parse Block} {others : Parse Arms}

theorem fails_statement_do :
    Fails (statement statements others) context (⟨.keyword .«do», line⟩ :: tokens) error ↔
      Fails count context tokens error ∨
        ∃ value middle, Reads count context tokens value middle ∧
          Fails (body statements) context middle error := by
  rw [statement, fails_next_bind]
  exact fails_header

theorem fails_statement_while :
    Fails (statement statements others) context (⟨.keyword .«while», line⟩ :: tokens) error ↔
      Fails (condition .«while») context tokens error ∨
        ∃ test middle, Reads (condition .«while») context tokens test middle ∧
          Fails (body statements) context middle error := by
  rw [statement, fails_next_bind]
  exact fails_header

theorem fails_statement_define :
    Fails (statement statements others) context (⟨.keyword .define, line⟩ :: tokens) error ↔
      Fails (procedureName line) context tokens error ∨
        ∃ name middle, Reads (procedureName line) context tokens name middle ∧
          Fails (body statements) context middle error := by
  rw [statement, fails_next_bind]
  exact fails_header

theorem fails_statement_if :
    Fails (statement statements others) context (⟨.keyword .«if», line⟩ :: tokens) error ↔
      Fails (condition .«if») context tokens error ∨
        ∃ test middle, Reads (condition .«if») context tokens test middle ∧
          (Fails (body statements) context middle error ∨
            ∃ block behind, Reads (body statements) context middle block behind ∧
              Fails others context behind error) := by
  rw [statement, fails_next_bind]
  simp [fails_bind]

end Statement

theorem fails_block_newline :
    Fails (block (bound + 1)) context (⟨.newline, line⟩ :: tokens) error ↔
      Fails (block bound) context tokens error := by
  rw [block, fails_peek_bind]
  exact fails_next_bind

/-- Where a block goes on with a statement, it fails in the statement or behind it. -/
theorem fails_block_cons {token : Token} (further : token.kind.closesBlock = false)
    (shown : token.kind ≠ .newline) :
    Fails (block (bound + 1)) context (token :: tokens) error ↔
      Fails (statement (block bound) (arms bound)) context (token :: tokens) error ∨
        ∃ first middle,
          Reads (statement (block bound) (arms bound)) context (token :: tokens) first middle ∧
            Fails (block bound) context middle error := by
  obtain ⟨kind, line⟩ := token
  rw [block, fails_peek_bind]
  cases kind with
  | newline => exact absurd rfl shown
  | dedent | eof => cases further
  | _ => simp [fails_bind]

theorem fails_arms_elif {ahead : List Token}
    (next : tokens.dropWhile (·.kind = .newline) = ⟨.keyword .elif, line⟩ :: ahead) :
    Fails (arms (bound + 1)) context tokens error ↔
      Fails (condition .elif) context ahead error ∨
        ∃ test middle, Reads (condition .elif) context ahead test middle ∧
          (Fails (body (block bound)) context middle error ∨
            ∃ statements behind, Reads (body (block bound)) context middle statements behind ∧
              Fails (arms bound) context behind error) := by
  rw [arms, fails_newlines_bind, fails_peek_bind, next]
  exact fails_next_bind.trans (by simp [fails_bind])

theorem fails_arms_otherwise {ahead : List Token}
    (next : tokens.dropWhile (·.kind = .newline) = ⟨.keyword .«else», line⟩ :: ahead) :
    Fails (arms (bound + 1)) context tokens error ↔
      Fails (body (block bound)) context ahead error := by
  rw [arms, fails_newlines_bind, fails_peek_bind, next]
  exact fails_next_bind.trans (by simp [fails_bind])

end Karel.Parse
