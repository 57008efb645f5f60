import Karel.Parse

/-!
# Steps of reading

What each step of reading makes of the tokens before it. A step reads a value if it succeeds, and
a sequence of steps reads what its parts read one after the other. Each step of the parser has one
lemma, which says exactly when it reads what.

## Main definitions

- `Parse.Reads` — a step takes tokens to a value and leaves the others
- `Parse.SkipsNewlines` — what is left when `newline` tokens in front may be gone

## Main results

- `Parse.reads_bind` — two steps in a row
- `Parse.reads_body` — the body of a compound statement
- `Parse.reads_statement_identifier` and its companions — a statement, by its first token
- `Parse.reads_block_succ` — a block
- `Parse.reads_arms_succ` — the arms of an `if`
-/

namespace Karel

/-- The kinds of the tokens that end a block: the `dedent` that closes it, or the end of the
    input. -/
def TokenKind.closesBlock : TokenKind → Bool
  | dedent | eof => true
  | _ => false

/-- The kinds of the tokens that a statement may begin with. -/
def TokenKind.beginsStatement : TokenKind → Bool
  | identifier _ | keyword .«do» | keyword .«if» | keyword .«while» | keyword .define => true
  | _ => false

theorem TokenKind.ne_eof_of_beginsStatement (kind : TokenKind)
    (h : kind.beginsStatement = true) : kind ≠ .eof := by
  rintro rfl
  cases h

@[simp]
theorem Token.endOfInput_kind (line : Nat) : (Token.endOfInput line).kind = .eof :=
  rfl

end Karel

namespace Karel.Parse

variable {α β : Type} {context : ParseContext} {tokens rest : List Token}

/-- A step reads a value from the front of some tokens and leaves the rest of them. -/
def Reads (step : Parse α) (context : ParseContext) (tokens : List Token) (value : α)
    (rest : List Token) : Prop :=
  (step context tokens).result = .ok value ∧ (step context tokens).rest = rest

/-- What is left of some tokens when the `newline` tokens in front of them may be gone. -/
def SkipsNewlines (tokens rest : List Token) : Prop :=
  rest = tokens ∨ rest = tokens.dropWhile (·.kind = .newline)

theorem SkipsNewlines.length_le (h : SkipsNewlines tokens rest) :
    rest.length ≤ tokens.length := by
  rcases h with rfl | rfl
  · exact Nat.le_refl _
  · exact (List.dropWhile_suffix _).length_le

-- ════════════════════════════════════════════════════════════════════════
-- Sequences of steps
-- ════════════════════════════════════════════════════════════════════════

/-- A step reads at most one value, and leaves at most one rest. -/
theorem Reads.unique {step : Parse α} {first second : α} {rest' : List Token}
    (h : Reads step context tokens first rest) (h' : Reads step context tokens second rest') :
    first = second ∧ rest = rest' :=
  ⟨Except.ok.inj (h.1.symm.trans h'.1), h.2.symm.trans h'.2⟩

/-- Two steps read what the second reads from where the first has left. -/
theorem reads_bind {first : Parse α} {second : α → Parse β} {value : β} :
    Reads (first >>= second) context tokens value rest ↔
      ∃ found middle, Reads first context tokens found middle ∧
        Reads (second found) context middle value rest := by
  cases hfirst : (first context tokens).result with
  | ok found => simp [Reads, bind, Parse.bind, hfirst, and_assoc]
  | error error => simp [Reads, bind, Parse.bind, hfirst]

theorem reads_bind_unit {first : Parse Unit} {second : Unit → Parse β} {value : β} :
    Reads (first >>= second) context tokens value rest ↔
      ∃ middle, Reads first context tokens () middle ∧
        Reads (second ()) context middle value rest :=
  reads_bind.trans ⟨fun ⟨_, h⟩ => h, fun h => ⟨(), h⟩⟩

@[simp]
theorem reads_pure {value found : α} :
    Reads (pure found) context tokens value rest ↔ found = value ∧ tokens = rest := by
  simp [Reads, pure, Parse.pure]

@[simp]
theorem not_reads_fail {fault : ParseFault} {token : Token} {value : α} :
    ¬ Reads (fail fault token) context tokens value rest := by
  simp [Reads, fail]

@[simp]
theorem reads_peek_bind {second : Token → Parse β} {value : β} :
    Reads (peek >>= second) context tokens value rest ↔
      Reads (second (firstToken context tokens)) context tokens value rest := by
  simp [Reads, bind, Parse.bind, peek]

@[simp]
theorem reads_next {token : Token} :
    Reads next context tokens token rest ↔
      firstToken context tokens = token ∧ tokens.tail = rest := by
  simp [Reads, next]

@[simp]
theorem reads_next_bind {second : Token → Parse β} {value : β} :
    Reads (next >>= second) context tokens value rest ↔
      Reads (second (firstToken context tokens)) context tokens.tail value rest := by
  simp [Reads, bind, Parse.bind, next]

@[simp]
theorem reads_capabilities_bind {second : Capabilities → Parse β} {value : β} :
    Reads (capabilities >>= second) context tokens value rest ↔
      Reads (second context.capabilities) context tokens value rest := by
  simp [Reads, bind, Parse.bind, capabilities]

@[simp]
theorem reads_newlines_bind {second : Unit → Parse β} {value : β} :
    Reads (newlines >>= second) context tokens value rest ↔
      Reads (second ()) context (tokens.dropWhile (·.kind = .newline)) value rest := by
  simp [Reads, bind, Parse.bind, newlines]

@[simp]
theorem reads_report_bind {shadowing : Shadowing} {second : Unit → Parse β} {value : β} :
    Reads (report shadowing >>= second) context tokens value rest ↔
      Reads (second ()) context tokens value rest := by
  simp [Reads, bind, Parse.bind, report]

@[simp]
theorem firstToken_cons (token : Token) : firstToken context (token :: tokens) = token :=
  rfl

@[simp]
theorem firstToken_nil : firstToken context [] = Token.endOfInput context.endLine :=
  rfl

theorem eq_cons_of_firstToken_kind_ne (h : (firstToken context tokens).kind ≠ .eof) :
    tokens = firstToken context tokens :: tokens.tail := by
  cases tokens with
  | nil => exact absurd rfl h
  | cons token tokens => rfl

-- ════════════════════════════════════════════════════════════════════════
-- The pieces of a statement
-- ════════════════════════════════════════════════════════════════════════

/-- Expecting a token that is not the end of the input reads just that token. -/
theorem reads_expect {kind : TokenKind} {fault : ParseFault} (hkind : kind ≠ .eof) :
    Reads (expect kind fault) context tokens () rest ↔
      ∃ line, tokens = ⟨kind, line⟩ :: rest := by
  constructor
  · intro h
    rw [expect, reads_next_bind] at h
    split at h
    · next heq =>
      have hcons := eq_cons_of_firstToken_kind_ne (heq ▸ hkind)
      rw [reads_pure] at h
      rw [h.2] at hcons
      exact ⟨(firstToken context tokens).line, by rw [← heq]; exact hcons⟩
    · exact absurd h not_reads_fail
  · rintro ⟨line, rfl⟩
    simp [expect]

theorem reads_expect_bind {kind : TokenKind} {fault : ParseFault} (hkind : kind ≠ .eof)
    {second : Unit → Parse β} {value : β} :
    Reads (expect kind fault >>= second) context tokens value rest ↔
      ∃ line after, tokens = ⟨kind, line⟩ :: after ∧
        Reads (second ()) context after value rest := by
  rw [reads_bind_unit]
  constructor
  · rintro ⟨after, hexpect, h⟩
    obtain ⟨line, rfl⟩ := (reads_expect hkind).mp hexpect
    exact ⟨line, after, rfl, h⟩
  · rintro ⟨line, after, rfl, h⟩
    exact ⟨after, (reads_expect hkind).mpr ⟨line, rfl⟩, h⟩

/-- The end of the input is read as soon as it is the next token. -/
theorem reads_expect_eof {fault : ParseFault} :
    Reads (expect .eof fault) context tokens () rest ↔
      (firstToken context tokens).kind = .eof ∧ tokens.tail = rest := by
  rw [expect, reads_next_bind]
  split
  · next heq => simp [heq]
  · next hne => simp [hne]

/-- A simple statement ends in a `newline` that it reads, or before what closes its block. -/
theorem reads_endOfStatement :
    Reads endOfStatement context tokens () rest ↔
      (∃ line, tokens = ⟨.newline, line⟩ :: rest) ∨
        (firstToken context tokens).kind.closesBlock ∧ tokens = rest := by
  rw [endOfStatement, reads_peek_bind]
  rcases tokens with _ | ⟨⟨kind, line⟩, tokens⟩
  · simp [Token.endOfInput, TokenKind.closesBlock]
  · cases kind <;> simp [TokenKind.closesBlock]

/-- A name makes a statement as soon as it ends like one. -/
theorem reads_simple {name : String} {line : Nat} {statement : Statement} :
    Reads (simple name line) context tokens statement rest ↔
      Reads endOfStatement context tokens () rest ∧
        statement = if context.capabilities.isCommand name then .command (.command name) line
          else .call name line := by
  rw [simple, reads_capabilities_bind, reads_bind_unit]
  split <;> simp [eq_comm]

/-- The count of a `do` is the positive value of a number. -/
theorem reads_count {value : Nat} :
    Reads count context tokens value rest ↔
      ∃ digits line, tokens = ⟨.number digits, line⟩ :: rest ∧
        (TokenKind.number digits).value? = some value ∧ 0 < value := by
  rw [count, reads_next_bind]
  rcases tokens with _ | ⟨⟨kind, line⟩, tokens⟩
  · simp [Token.endOfInput, TokenKind.value?]
  · cases kind with
    | number digits =>
      -- a number has no value, the value zero, or a positive one
      rcases hvalue : (TokenKind.number digits).value? with _ | _ | found
      · simp [hvalue, and_assoc]
      · simp only [firstToken_cons, hvalue, not_reads_fail, false_iff]
        rintro ⟨_, _, hcons, hsome, hpos⟩
        cases hcons
        cases hvalue.symm.trans hsome
        exact absurd hpos (Nat.lt_irrefl 0)
      · simp only [firstToken_cons, hvalue, List.tail_cons, reads_pure]
        constructor
        · rintro ⟨rfl, rfl⟩
          exact ⟨digits, line, rfl, hvalue, Nat.succ_pos found⟩
        · rintro ⟨_, _, hcons, hsome, -⟩
          cases hcons
          exact ⟨Option.some.inj (hvalue.symm.trans hsome), rfl⟩
    | _ => simp [TokenKind.value?]

/-- A condition is a name that the capabilities list as one. -/
theorem reads_condition {after : Keyword} {test : Callable} :
    Reads (condition after) context tokens test rest ↔
      ∃ name line, tokens = ⟨.identifier name, line⟩ :: rest ∧
        name ∈ context.capabilities.conditions ∧ test = .condition name := by
  rw [condition, reads_next_bind]
  rcases tokens with _ | ⟨⟨kind, line⟩, tokens⟩
  · simp [Token.endOfInput]
  · cases kind with
    | identifier name =>
      by_cases hname : name ∈ context.capabilities.conditions
      · simp [Capabilities.isCondition, hname, and_assoc, and_comm, eq_comm]
      · simp [Capabilities.isCondition, hname, and_assoc]
    | _ => simp

/-- The name of a procedure may be any name, also one of a command. -/
theorem reads_procedureName {line : Nat} {name : String} :
    Reads (procedureName line) context tokens name rest ↔
      ∃ nameLine, tokens = ⟨.identifier name, nameLine⟩ :: rest := by
  rw [procedureName, reads_next_bind]
  rcases tokens with _ | ⟨⟨kind, nameLine⟩, tokens⟩
  · simp [Token.endOfInput]
  · cases kind with
    | identifier found =>
      by_cases hname : context.capabilities.isCommand found = true <;> simp [hname]
    | _ => simp

/-- A body is a block between an `indent` behind a header and the `dedent` that matches it. -/
theorem reads_body {block : Parse Block} {statements : Block} :
    Reads (body block) context tokens statements rest ↔
      ∃ colonLine newlineLine indentLine dedentLine inner,
        tokens = ⟨.colon, colonLine⟩ :: ⟨.newline, newlineLine⟩ :: ⟨.indent, indentLine⟩ :: inner ∧
          Reads block context inner statements (⟨.dedent, dedentLine⟩ :: rest) := by
  rw [body, reads_expect_bind (by decide)]
  constructor
  · rintro ⟨colonLine, after, rfl, h⟩
    rw [reads_next_bind] at h
    rcases after with _ | ⟨⟨kind, newlineLine⟩, after⟩
    · exact absurd h not_reads_fail
    · cases kind with
      | newline =>
        -- only a `newline` goes on, and any other token is a failure of its own
        simp only [firstToken_cons, List.tail_cons] at h
        rw [reads_expect_bind (by decide)] at h
        obtain ⟨indentLine, inner, rfl, h⟩ := h
        obtain ⟨found, middle, hinner, h⟩ := reads_bind.mp h
        rw [reads_expect_bind (by decide)] at h
        obtain ⟨dedentLine, _, rfl, h⟩ := h
        obtain ⟨rfl, rfl⟩ := reads_pure.mp h
        exact ⟨colonLine, newlineLine, indentLine, dedentLine, inner, rfl, hinner⟩
      | _ => exact absurd h not_reads_fail
  · rintro ⟨colonLine, newlineLine, indentLine, dedentLine, inner, rfl, hinner⟩
    refine ⟨colonLine, _, rfl, reads_next_bind.mpr ?_⟩
    refine (reads_expect_bind (by decide)).mpr ⟨indentLine, inner, rfl, ?_⟩
    refine reads_bind.mpr ⟨statements, _, hinner, ?_⟩
    exact (reads_expect_bind (by decide)).mpr ⟨dedentLine, rest, rfl, reads_pure.mpr ⟨rfl, rfl⟩⟩

-- ════════════════════════════════════════════════════════════════════════
-- Statements, blocks and arms
-- ════════════════════════════════════════════════════════════════════════

section Statement

variable {line : Nat} {statements : Parse Block} {others : Parse Arms} {found : Statement}

theorem reads_statement_identifier {name : String} :
    Reads (statement statements others) context (⟨.identifier name, line⟩ :: tokens) found rest ↔
      Reads (simple name line) context tokens found rest := by
  rw [statement, reads_next_bind]
  rfl

theorem reads_statement_do :
    Reads (statement statements others) context (⟨.keyword .«do», line⟩ :: tokens) found rest ↔
      ∃ value middle, Reads count context tokens value middle ∧
        ∃ block, Reads (body statements) context middle block rest ∧
          found = .doTimes .repetition value block line := by
  rw [statement, reads_next_bind]
  simp [reads_bind, eq_comm]

theorem reads_statement_if :
    Reads (statement statements others) context (⟨.keyword .«if», line⟩ :: tokens) found rest ↔
      ∃ test middle, Reads (condition .«if») context tokens test middle ∧
        ∃ block behind, Reads (body statements) context middle block behind ∧
          ∃ arms, Reads others context behind arms rest ∧ found = .ifElse test block arms line := by
  rw [statement, reads_next_bind]
  simp [reads_bind, eq_comm]

theorem reads_statement_while :
    Reads (statement statements others) context (⟨.keyword .«while», line⟩ :: tokens) found rest ↔
      ∃ test middle, Reads (condition .«while») context tokens test middle ∧
        ∃ block, Reads (body statements) context middle block rest ∧
          found = .whileDo test block line := by
  rw [statement, reads_next_bind]
  simp [reads_bind, eq_comm]

theorem reads_statement_define :
    Reads (statement statements others) context (⟨.keyword .define, line⟩ :: tokens) found rest ↔
      ∃ name middle, Reads (procedureName line) context tokens name middle ∧
        ∃ block, Reads (body statements) context middle block rest ∧
          found = .define name block line := by
  rw [statement, reads_next_bind]
  simp [reads_bind, eq_comm]

end Statement

/-- A block ends before a token that closes it, passes over a `newline`, and begins with a
    statement otherwise. -/
theorem reads_block_succ {bound : Nat} {found : Block} :
    Reads (block (bound + 1)) context tokens found rest ↔
      if (firstToken context tokens).kind.closesBlock then [] = found ∧ tokens = rest
      else if (firstToken context tokens).kind = .newline then
        Reads (block bound) context tokens.tail found rest
      else
        ∃ first middle, Reads (statement (block bound) (arms bound)) context tokens first middle ∧
          ∃ others, Reads (block bound) context middle others rest ∧ first :: others = found := by
  rw [block, reads_peek_bind]
  cases hkind : (firstToken context tokens).kind <;>
    simp [TokenKind.closesBlock, reads_bind, and_assoc]

/-- Where a statement begins, a block reads it and goes on with the statements behind it. -/
theorem reads_block_cons {bound : Nat} {token : Token} {found : Block}
    (hbegins : token.kind.beginsStatement = true) :
    Reads (block (bound + 1)) context (token :: tokens) found rest ↔
      ∃ first middle,
        Reads (statement (block bound) (arms bound)) context (token :: tokens) first middle ∧
        ∃ others, Reads (block bound) context middle others rest ∧ first :: others = found := by
  obtain ⟨kind, line⟩ := token
  rw [reads_block_succ]
  cases kind with
  | identifier | keyword => simp [TokenKind.closesBlock]
  | _ => cases hbegins

/-- Behind any `newline` tokens, arms begin with an `elif` or an `else`, or there are none. -/
theorem reads_arms_succ {bound : Nat} {found : Arms} :
    Reads (arms (bound + 1)) context tokens found rest ↔
      ∃ ahead, ahead = tokens.dropWhile (·.kind = .newline) ∧
        match (firstToken context ahead).kind with
        | .keyword .elif =>
          ∃ test middle, Reads (condition .elif) context ahead.tail test middle ∧
            ∃ statements behind, Reads (body (block bound)) context middle statements behind ∧
              ∃ others, Reads (arms bound) context behind others rest ∧
                .elif test (firstToken context ahead).line statements others = found
        | .keyword .«else» =>
          ∃ statements, Reads (body (block bound)) context ahead.tail statements rest ∧
            .otherwise statements = found
        | _ => .done = found ∧ ahead = rest := by
  rw [arms, reads_newlines_bind, reads_peek_bind, exists_eq_left]
  generalize tokens.dropWhile _ = ahead
  cases (firstToken context ahead).kind with
  | keyword reserved => cases reserved <;> simp [reads_bind, and_assoc]
  | _ => simp

end Karel.Parse
