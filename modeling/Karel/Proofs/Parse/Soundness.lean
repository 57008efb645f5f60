import Karel.Grammar
import Karel.Proofs.Parse.Steps

/-!
# What is read can be derived

Whatever the parser reads from some tokens, the grammar derives from them. The arms of an `if` are
read up to the next token that is no `newline`, even if there is no arm, so a reading may leave
less than the derivation of the same phrase does. What it leaves less of is only `newline` tokens,
and a block may take those in at any place.

## Main definitions

- `ParseContext.ended` — some tokens ahead, with the end of the input

## Main results

- `Parse.blockSound_and_armsSound` — blocks and arms that are read are derived
-/

namespace Karel

/-- Some tokens ahead, with the token that ends the input behind them. -/
def ParseContext.ended (context : ParseContext) (tokens : List Token) : List Token :=
  tokens ++ [Token.endOfInput context.endLine]

end Karel

namespace Karel.Parse

open Grammar

variable {context : ParseContext} {tokens middle rest : List Token}

/-- A block may begin with the `newline` tokens that were passed over before it. -/
theorem SkipsNewlines.blockDerivation {capabilities : Capabilities} {block : Block}
    {behind : List Token} (h : SkipsNewlines tokens rest)
    (derivation : Nonempty (BlockDerivation capabilities (context.ended rest) block behind)) :
    Nonempty (BlockDerivation capabilities (context.ended tokens) block behind) := by
  rcases h with rfl | rfl
  · exact derivation
  · induction tokens with
    | nil => exact derivation
    | cons token tokens ih =>
      rw [List.dropWhile_cons] at derivation
      split at derivation
      · next hnewline =>
        obtain ⟨inner⟩ := ih derivation
        obtain ⟨kind, line⟩ := token
        obtain rfl : kind = .newline := by simpa using hnewline
        exact ⟨.newline inner⟩
      · exact derivation

/-- What ends a simple statement for the parser ends it in the grammar. -/
theorem endsStatement_of_reads (h : Reads endOfStatement context tokens () rest) :
    EndsStatement (context.ended tokens) (context.ended rest) := by
  rcases reads_endOfStatement.mp h with ⟨line, rfl⟩ | ⟨hcloses, rfl⟩
  · exact .newline line (context.ended rest)
  · rcases tokens with _ | ⟨⟨kind, line⟩, tokens⟩
    · exact .eof context.endLine []
    · cases kind with
      | dedent => exact .dedent line (context.ended tokens)
      | eof => exact .eof line (context.ended tokens)
      | _ => exact absurd hcloses Bool.false_ne_true

/-- A block step that reads only what the grammar derives. -/
def BlockSound (context : ParseContext) (block : Parse Block) : Prop :=
  ∀ {tokens found rest}, Reads block context tokens found rest →
    Nonempty (BlockDerivation context.capabilities (context.ended tokens) found
      (context.ended rest))

/-- A step for arms that reads only what the grammar derives, up to `newline` tokens behind it. -/
def ArmsSound (context : ParseContext) (arms : Parse Arms) : Prop :=
  ∀ {tokens found rest}, Reads arms context tokens found rest →
    ∃ middle, SkipsNewlines middle rest ∧
      Nonempty (ArmsDerivation context.capabilities (context.ended tokens) found
        (context.ended middle))

variable {block : Parse Block} {arms : Parse Arms}

theorem BlockSound.body (hblock : BlockSound context block) {statements : Block}
    (h : Reads (body block) context tokens statements rest) :
    Nonempty (BodyDerivation context.capabilities (context.ended tokens) statements
      (context.ended rest)) := by
  obtain ⟨colonLine, newlineLine, indentLine, dedentLine, inner, rfl, hinner⟩ := reads_body.mp h
  obtain ⟨derivation⟩ := hblock hinner
  exact ⟨.intro derivation⟩

theorem statementDerivation_of_reads_simple {name : String} {line : Nat} {found : Statement}
    (h : Reads (simple name line) context tokens found rest) :
    Nonempty (StatementDerivation context.capabilities
      (⟨.identifier name, line⟩ :: context.ended tokens) found (context.ended rest)) := by
  obtain ⟨hend, rfl⟩ := reads_simple.mp h
  have hends := endsStatement_of_reads hend
  split
  · next hcommand => exact ⟨.command (List.contains_iff_mem.mp hcommand) hends⟩
  · next hcall => exact ⟨.call (fun hmem => hcall (List.contains_iff_mem.mpr hmem)) hends⟩

/-- A statement that is read is derived if the blocks and the arms inside it are, up to `newline`
    tokens behind it. -/
theorem statementDerivation_of_reads (hblock : BlockSound context block)
    (harms : ArmsSound context arms) {found : Statement}
    (h : Reads (statement block arms) context tokens found rest) :
    ∃ middle, SkipsNewlines middle rest ∧
      Nonempty (StatementDerivation context.capabilities (context.ended tokens) found
        (context.ended middle)) := by
  rcases tokens with _ | ⟨⟨kind, line⟩, tokens⟩
  · exact absurd (reads_next_bind.mp h) not_reads_fail
  · cases kind with
    | identifier name =>
      exact ⟨rest, .inl rfl, statementDerivation_of_reads_simple (reads_statement_identifier.mp h)⟩
    | keyword reserved =>
      cases reserved with
      | «do» =>
        obtain ⟨value, middle, hcount, statements, hbody, rfl⟩ := reads_statement_do.mp h
        obtain ⟨digits, numberLine, rfl, hvalue, hpositive⟩ := reads_count.mp hcount
        obtain ⟨body⟩ := hblock.body hbody
        exact ⟨rest, .inl rfl, ⟨.doTimes hvalue hpositive body⟩⟩
      | «if» =>
        obtain ⟨test, middle, htest, statements, behind, hbody, others, hothers, rfl⟩ :=
          reads_statement_if.mp h
        obtain ⟨name, nameLine, rfl, hknown, rfl⟩ := reads_condition.mp htest
        obtain ⟨body⟩ := hblock.body hbody
        obtain ⟨left, hskips, ⟨derivation⟩⟩ := harms hothers
        exact ⟨left, hskips, ⟨.ifElse hknown body derivation⟩⟩
      | «while» =>
        obtain ⟨test, middle, htest, statements, hbody, rfl⟩ := reads_statement_while.mp h
        obtain ⟨name, nameLine, rfl, hknown, rfl⟩ := reads_condition.mp htest
        obtain ⟨body⟩ := hblock.body hbody
        exact ⟨rest, .inl rfl, ⟨.whileDo hknown body⟩⟩
      | define =>
        obtain ⟨name, middle, hname, statements, hbody, rfl⟩ := reads_statement_define.mp h
        obtain ⟨nameLine, rfl⟩ := reads_procedureName.mp hname
        obtain ⟨body⟩ := hblock.body hbody
        exact ⟨rest, .inl rfl, ⟨.define body⟩⟩
      | elif | «else» => exact absurd (reads_next_bind.mp h) not_reads_fail
    | _ => exact absurd (reads_next_bind.mp h) not_reads_fail

/-- Arms that are read behind the `newline` tokens in front are derived with those in front. -/
theorem armsDerivation_of_dropWhile {found : Arms} (hfound : found ≠ .done) {behind : List Token}
    (derivation : Nonempty (ArmsDerivation context.capabilities
      (context.ended (tokens.dropWhile (·.kind = .newline))) found behind)) :
    Nonempty (ArmsDerivation context.capabilities (context.ended tokens) found behind) := by
  induction tokens with
  | nil => exact derivation
  | cons token tokens ih =>
    rw [List.dropWhile_cons] at derivation
    split at derivation
    · next hnewline =>
      obtain ⟨inner⟩ := ih derivation
      obtain ⟨kind, line⟩ := token
      obtain rfl : kind = .newline := by simpa using hnewline
      exact ⟨.newline hfound inner⟩
    · exact derivation

theorem armsSound_succ {bound : Nat} (hblock : BlockSound context (Parse.block bound))
    (harms : ArmsSound context (Parse.arms bound)) :
    ArmsSound context (Parse.arms (bound + 1)) := by
  intro tokens found rest h
  obtain ⟨ahead, hahead, h⟩ := reads_arms_succ.mp h
  rcases ahead with _ | ⟨⟨kind, line⟩, ahead⟩
  · obtain ⟨rfl, rfl⟩ := h
    -- no arm follows, so the `newline` tokens that were passed over are left to the block
    exact ⟨tokens, .inr hahead, ⟨.done _⟩⟩
  · cases kind with
    | keyword reserved =>
      cases reserved with
      | elif =>
        obtain ⟨test, middle, htest, statements, behind, hbody, others, hothers, rfl⟩ := h
        obtain ⟨name, nameLine, hcons, hknown, rfl⟩ := reads_condition.mp htest
        obtain ⟨body⟩ := hblock.body hbody
        obtain ⟨left, hskips, ⟨next⟩⟩ := harms hothers
        refine ⟨left, hskips, armsDerivation_of_dropWhile (by simp) ?_⟩
        rw [← hahead]
        obtain rfl : ahead = ⟨.identifier name, nameLine⟩ :: middle := hcons
        exact ⟨.elif hknown body next⟩
      | «else» =>
        obtain ⟨statements, hbody, rfl⟩ := h
        obtain ⟨body⟩ := hblock.body hbody
        refine ⟨rest, .inl rfl, armsDerivation_of_dropWhile (by simp) ?_⟩
        rw [← hahead]
        exact ⟨.otherwise body⟩
      | _ =>
        obtain ⟨rfl, rfl⟩ := h
        exact ⟨tokens, .inr hahead, ⟨.done _⟩⟩
    | _ =>
      obtain ⟨rfl, rfl⟩ := h
      exact ⟨tokens, .inr hahead, ⟨.done _⟩⟩

theorem blockSound_succ {bound : Nat} (hblock : BlockSound context (Parse.block bound))
    (harms : ArmsSound context (Parse.arms bound)) :
    BlockSound context (Parse.block (bound + 1)) := by
  intro tokens found rest h
  rw [reads_block_succ] at h
  split at h
  · obtain ⟨rfl, rfl⟩ := h
    exact ⟨.nil _⟩
  · split at h
    · next hnewline =>
      obtain ⟨inner⟩ := hblock h
      rcases tokens with _ | ⟨⟨kind, line⟩, tokens⟩
      · cases hnewline
      · obtain rfl : kind = .newline := hnewline
        exact ⟨.newline inner⟩
    · obtain ⟨first, middle, hfirst, others, hothers, rfl⟩ := h
      obtain ⟨left, hskips, ⟨statement⟩⟩ := statementDerivation_of_reads hblock harms hfirst
      obtain ⟨block⟩ := hskips.blockDerivation (hblock hothers)
      exact ⟨.cons statement block⟩

/-- Within any bound, blocks and arms that are read are derived. A bound that is used up reads
    nothing, which is a block without statements and an `if` without arms. -/
theorem blockSound_and_armsSound (context : ParseContext) (bound : Nat) :
    BlockSound context (Parse.block bound) ∧ ArmsSound context (Parse.arms bound) := by
  induction bound with
  | zero =>
    constructor
    · intro tokens found rest h
      obtain ⟨rfl, rfl⟩ := reads_pure.mp h
      exact ⟨.nil _⟩
    · intro tokens found rest h
      obtain ⟨rfl, rfl⟩ := reads_pure.mp h
      exact ⟨tokens, .inl rfl, ⟨.done _⟩⟩
  | succ bound ih => exact ⟨blockSound_succ ih.1 ih.2, armsSound_succ ih.1 ih.2⟩

end Karel.Parse
