import Karel.Proofs.Parse.Consumption
import Karel.Proofs.Parse.Steps

/-!
# What can be derived is read

Whatever the grammar derives, the parser reads, provided that the phrase goes as far as the parser
would: a block up to a token that closes it, and the arms of an `if` up to where no arm follows.
Where a derivation leaves `newline` tokens behind an `if`, the parser has passed over them.

## Main definitions

- `Parse.StartsArm` — an arm of an `if` is next

## Main results

- `Grammar.BlockDerivation.reads` and its companions — a derived phrase is read
-/

namespace Karel.Parse

open Grammar

variable {context : ParseContext} {tokens rest : List Token}

/-- An arm of an `if` is next, behind any number of `newline` tokens. -/
def StartsArm (context : ParseContext) (tokens : List Token) : Prop :=
  (firstToken context (tokens.dropWhile (·.kind = .newline))).kind = .keyword .elif ∨
    (firstToken context (tokens.dropWhile (·.kind = .newline))).kind = .keyword .«else»

theorem startsArm_newline {line : Nat} :
    StartsArm context (⟨.newline, line⟩ :: tokens) ↔ StartsArm context tokens := by
  simp [StartsArm]

theorem not_startsArm_of_closesBlock
    (h : (firstToken context tokens).kind.closesBlock = true) : ¬ StartsArm context tokens := by
  rcases tokens with _ | ⟨⟨kind, line⟩, tokens⟩
  · simp [StartsArm]
  · cases kind <;> simp_all [StartsArm, TokenKind.closesBlock]

theorem not_startsArm_of_beginsStatement {token : Token}
    (h : token.kind.beginsStatement = true) : ¬ StartsArm context (token :: tokens) := by
  obtain ⟨kind, line⟩ := token
  cases kind with
  | keyword reserved => cases reserved <;> simp_all [StartsArm, TokenKind.beginsStatement]
  | _ => simp_all [StartsArm, TokenKind.beginsStatement]

/-- A block that is read from some tokens is also read behind the `newline` tokens in front. -/
theorem reads_block_of_skipsNewlines {left : List Token} {found : Block}
    (h : ∀ bound, tokens.length < bound → Reads (block bound) context tokens found rest)
    (hskips : SkipsNewlines tokens left) :
    ∀ bound, left.length < bound → Reads (block bound) context left found rest := by
  rcases hskips with rfl | rfl
  · exact h
  · induction tokens with
    | nil => exact h
    | cons token tokens ih =>
      obtain ⟨kind, line⟩ := token
      by_cases hkind : kind = .newline
      · subst hkind
        -- with one more step of the bound the block passes over this `newline` itself
        rw [List.dropWhile_cons_of_pos (by simp)]
        refine ih fun bound hbound => ?_
        have hnext := h (bound + 1) (by simpa using hbound)
        rw [reads_block_succ] at hnext
        simpa [TokenKind.closesBlock] using hnext
      · rw [List.dropWhile_cons_of_neg (by simpa using hkind)]
        exact h

end Karel.Parse

namespace Karel.Grammar

open Parse

variable {context : ParseContext} {tokens rest : List Token}

theorem firstToken_beforeEnd_cons (token : Token) :
    (firstToken context (beforeEnd (token :: tokens))).kind = token.kind := by
  by_cases hkind : token.kind = .eof
  · simp [beforeEnd, hkind, Token.endOfInput]
  · rw [beforeEnd_cons hkind, firstToken_cons]

/-- A block that reaches to what closes it does not begin with an arm. -/
theorem BlockDerivation.not_startsArm {capabilities : Capabilities} {tokens rest : List Token}
    {block : Block} (hclosed : (firstToken context (beforeEnd rest)).kind.closesBlock = true) :
    BlockDerivation capabilities tokens block rest → ¬ StartsArm context (beforeEnd tokens)
  | .nil tokens => not_startsArm_of_closesBlock hclosed
  | .newline others => by
    rw [beforeEnd_cons (by simp), startsArm_newline]
    exact others.not_startsArm hclosed
  | .cons first others => by
    obtain ⟨token, behind, rfl, hbegins, -, -⟩ := first.exists_cons
    rw [beforeEnd_cons (token.kind.ne_eof_of_beginsStatement hbegins)]
    exact not_startsArm_of_beginsStatement hbegins

/-- What ends a simple statement in the grammar ends it for the parser. -/
theorem EndsStatement.reads (h : EndsStatement tokens rest) :
    Reads endOfStatement context (beforeEnd tokens) () (beforeEnd rest) := by
  rw [reads_endOfStatement]
  cases h with
  | newline line rest => exact .inl ⟨line, beforeEnd_cons (by simp)⟩
  | dedent line rest | eof line rest =>
    refine .inr ⟨?_, rfl⟩
    rw [firstToken_beforeEnd_cons]
    rfl

mutual

theorem BlockDerivation.reads {tokens rest : List Token} {block : Block}
    (hclosed : (firstToken context (beforeEnd rest)).kind.closesBlock = true) :
    BlockDerivation context.capabilities tokens block rest →
      ∀ bound, (beforeEnd tokens).length < bound →
        Reads (Parse.block bound) context (beforeEnd tokens) block (beforeEnd rest)
  | .nil tokens, bound + 1, _ => by
    rw [reads_block_succ, if_pos hclosed]
    exact ⟨rfl, rfl⟩
  | .newline others, bound + 1, hbound => by
    rw [beforeEnd_cons (by simp)] at hbound ⊢
    rw [reads_block_succ]
    exact others.reads hclosed bound (Nat.lt_of_succ_lt_succ hbound)
  | .cons first others, bound + 1, hbound => by
    -- the statement may have passed over `newline` tokens that the derivation leaves to the block
    obtain ⟨left, hfirst, hskips⟩ :=
      first.reads (others.not_startsArm hclosed) bound (Nat.le_of_lt_succ hbound)
    have hshorter := first.length_beforeEnd_lt
    have hleft := hskips.length_le
    have hothers := reads_block_of_skipsNewlines (others.reads hclosed) hskips bound (by omega)
    obtain ⟨token, behind, rfl, hbegins, -, -⟩ := first.exists_cons
    rw [beforeEnd_cons (token.kind.ne_eof_of_beginsStatement hbegins)] at hfirst ⊢
    rw [reads_block_cons hbegins]
    exact ⟨_, left, hfirst, _, hothers, rfl⟩

theorem StatementDerivation.reads {tokens rest : List Token} {statement : Statement} :
    StatementDerivation context.capabilities tokens statement rest →
      ¬ StartsArm context (beforeEnd rest) →
      ∀ bound, (beforeEnd tokens).length ≤ bound →
        ∃ left, Reads (Parse.statement (Parse.block bound) (arms bound)) context
          (beforeEnd tokens) statement left ∧ SkipsNewlines (beforeEnd rest) left
  | .command known ends, _, bound, _ => by
    refine ⟨_, ?_, .inl rfl⟩
    rw [beforeEnd_cons (by simp), reads_statement_identifier, reads_simple]
    exact ⟨ends.reads, by simp [Capabilities.isCommand, known]⟩
  | .call unknown ends, _, bound, _ => by
    refine ⟨_, ?_, .inl rfl⟩
    rw [beforeEnd_cons (by simp), reads_statement_identifier, reads_simple]
    exact ⟨ends.reads, by simp [Capabilities.isCommand, unknown]⟩
  | .doTimes value positive body, _, bound, hbound => by
    refine ⟨_, ?_, .inl rfl⟩
    rw [beforeEnd_cons (by simp), beforeEnd_cons (by simp)] at hbound ⊢
    rw [reads_statement_do]
    have hbody := body.reads bound (by grind)
    exact ⟨_, _, reads_count.mpr ⟨_, _, rfl, value, positive⟩, _, hbody, rfl⟩
  | .ifElse known body others, hrest, bound, hbound => by
    rw [beforeEnd_cons (by simp), beforeEnd_cons (by simp)] at hbound ⊢
    have hbody := body.reads bound (by grind)
    have hlength := body.consumes.length_beforeEnd_le
    obtain ⟨left, harms, hskips⟩ := others.reads hrest bound (by grind)
    refine ⟨left, ?_, hskips⟩
    rw [reads_statement_if]
    exact ⟨_, _, reads_condition.mpr ⟨_, _, rfl, known, rfl⟩, _, _, hbody, _, harms, rfl⟩
  | .whileDo known body, _, bound, hbound => by
    refine ⟨_, ?_, .inl rfl⟩
    rw [beforeEnd_cons (by simp), beforeEnd_cons (by simp)] at hbound ⊢
    rw [reads_statement_while]
    have hbody := body.reads bound (by grind)
    exact ⟨_, _, reads_condition.mpr ⟨_, _, rfl, known, rfl⟩, _, hbody, rfl⟩
  | .define body, _, bound, hbound => by
    refine ⟨_, ?_, .inl rfl⟩
    rw [beforeEnd_cons (by simp), beforeEnd_cons (by simp)] at hbound ⊢
    rw [reads_statement_define]
    have hbody := body.reads bound (by grind)
    exact ⟨_, _, reads_procedureName.mpr ⟨_, rfl⟩, _, hbody, rfl⟩

theorem ArmsDerivation.reads {tokens rest : List Token} {found : Arms} :
    ArmsDerivation context.capabilities tokens found rest →
      ¬ StartsArm context (beforeEnd rest) →
      ∀ bound, (beforeEnd tokens).length < bound →
        ∃ left, Reads (arms bound) context (beforeEnd tokens) found left ∧
          SkipsNewlines (beforeEnd rest) left
  | .done tokens, hrest, bound + 1, _ => by
    refine ⟨_, ?_, .inr rfl⟩
    rw [reads_arms_succ]
    refine ⟨_, rfl, ?_⟩
    split
    · next hkind => exact absurd (Or.inl hkind) hrest
    · next hkind => exact absurd (Or.inr hkind) hrest
    · exact ⟨rfl, rfl⟩
  | .newline precedes others, hrest, bound + 1, hbound => by
    rw [beforeEnd_cons (by simp)] at hbound ⊢
    obtain ⟨left, harms, hskips⟩ := others.reads hrest (bound + 1) (Nat.lt_of_succ_lt hbound)
    refine ⟨left, ?_, hskips⟩
    rw [reads_arms_succ] at harms ⊢
    rwa [List.dropWhile_cons_of_pos (by simp)]
  | .elif known body others, hrest, bound + 1, hbound => by
    rw [beforeEnd_cons (by simp), beforeEnd_cons (by simp)] at hbound ⊢
    have hbody := body.reads bound (by grind)
    have hlength := body.consumes.length_beforeEnd_le
    obtain ⟨left, harms, hskips⟩ := others.reads hrest bound (by grind)
    refine ⟨left, ?_, hskips⟩
    rw [reads_arms_succ]
    refine ⟨_, rfl, ?_⟩
    rw [List.dropWhile_cons_of_neg (by simp)]
    exact ⟨_, _, reads_condition.mpr ⟨_, _, rfl, known, rfl⟩, _, _, hbody, _, harms, rfl⟩
  | .otherwise body, _, bound + 1, hbound => by
    rw [beforeEnd_cons (by simp)] at hbound ⊢
    have hbody := body.reads bound (by grind)
    refine ⟨_, ?_, .inl rfl⟩
    rw [reads_arms_succ]
    refine ⟨_, rfl, ?_⟩
    rw [List.dropWhile_cons_of_neg (by simp)]
    exact ⟨_, hbody, rfl⟩

theorem BodyDerivation.reads {tokens rest : List Token} {block : Block} :
    BodyDerivation context.capabilities tokens block rest →
      ∀ bound, (beforeEnd tokens).length ≤ bound →
        Reads (Parse.body (Parse.block bound)) context (beforeEnd tokens) block (beforeEnd rest)
  | .intro inner, bound, hbound => by
    rw [beforeEnd_cons (by simp), beforeEnd_cons (by simp), beforeEnd_cons (by simp)] at hbound ⊢
    have hinner := inner.reads (by simp [firstToken_beforeEnd_cons, TokenKind.closesBlock])
      bound (by grind)
    rw [beforeEnd_cons (by simp)] at hinner
    exact reads_body.mpr ⟨_, _, _, _, _, rfl, hinner⟩

end

end Karel.Grammar
