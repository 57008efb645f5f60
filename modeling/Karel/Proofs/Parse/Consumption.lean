import Karel.Grammar
import Karel.Proofs.Parse.Steps

/-!
# What a phrase takes in

A derivation takes in some tokens from the front of a list, none of them the end of the input. The
parser never sees the token that ends the input among the tokens ahead, so its view of a list
stops before that token.

## Main definitions

- `Grammar.Consumes` — a list loses some tokens in front, none of which ends the input
- `Grammar.beforeEnd` — the tokens of a list before the end of the input

## Main results

- `Grammar.BlockDerivation.consumes` and its companions — derivations consume
- `Grammar.StatementDerivation.length_beforeEnd_lt` — a statement has at least one token
-/

namespace Karel.Grammar

/-- A list of tokens loses some in front, none of which is the end of the input. -/
def Consumes (tokens rest : List Token) : Prop :=
  ∃ used, tokens = used ++ rest ∧ ∀ token ∈ used, token.kind ≠ .eof

variable {tokens middle rest : List Token}

namespace Consumes

theorem refl (tokens : List Token) : Consumes tokens tokens :=
  ⟨[], rfl, by simp⟩

theorem trans (h : Consumes tokens middle) (h' : Consumes middle rest) :
    Consumes tokens rest := by
  obtain ⟨first, rfl, hfirst⟩ := h
  obtain ⟨second, rfl, hsecond⟩ := h'
  refine ⟨first ++ second, (List.append_assoc ..).symm, fun token hmem => ?_⟩
  rcases List.mem_append.mp hmem with hmem | hmem
  · exact hfirst token hmem
  · exact hsecond token hmem

theorem cons {token : Token} (h : Consumes tokens rest) (hkind : token.kind ≠ .eof) :
    Consumes (token :: tokens) rest := by
  obtain ⟨used, rfl, hused⟩ := h
  refine ⟨token :: used, rfl, fun other hmem => ?_⟩
  rcases List.mem_cons.mp hmem with rfl | hmem
  · exact hkind
  · exact hused other hmem

end Consumes

theorem EndsStatement.consumes (h : EndsStatement tokens rest) : Consumes tokens rest := by
  cases h with
  | newline => exact (Consumes.refl rest).cons (by simp)
  | dedent | eof => exact Consumes.refl _

variable {capabilities : Capabilities}

mutual

theorem BlockDerivation.consumes {tokens rest : List Token} {block : Block} :
    BlockDerivation capabilities tokens block rest → Consumes tokens rest
  | .nil tokens => Consumes.refl tokens
  | .newline others => others.consumes.cons (by simp)
  | .cons first others => first.consumes.trans others.consumes

theorem StatementDerivation.consumes {tokens rest : List Token} {statement : Statement} :
    StatementDerivation capabilities tokens statement rest → Consumes tokens rest
  | .command _ ends | .call _ ends => ends.consumes.cons (by simp)
  | .doTimes _ _ body => (body.consumes.cons (by simp)).cons (by simp)
  | .ifElse _ body arms => ((body.consumes.trans arms.consumes).cons (by simp)).cons (by simp)
  | .whileDo _ body => (body.consumes.cons (by simp)).cons (by simp)
  | .define body => (body.consumes.cons (by simp)).cons (by simp)

theorem ArmsDerivation.consumes {tokens rest : List Token} {arms : Arms} :
    ArmsDerivation capabilities tokens arms rest → Consumes tokens rest
  | .done tokens => Consumes.refl tokens
  | .newline _ others => others.consumes.cons (by simp)
  | .elif _ body others => ((body.consumes.trans others.consumes).cons (by simp)).cons (by simp)
  | .otherwise body => body.consumes.cons (by simp)

theorem BodyDerivation.consumes {tokens rest : List Token} {block : Block} :
    BodyDerivation capabilities tokens block rest → Consumes tokens rest
  | .intro inner =>
    (((inner.consumes.trans ((Consumes.refl _).cons (by simp))).cons (by simp)).cons
      (by simp)).cons (by simp)

end

/-- The tokens of a list before the end of the input. -/
def beforeEnd (tokens : List Token) : List Token :=
  tokens.takeWhile (·.kind ≠ .eof)

theorem beforeEnd_cons {token : Token} (hkind : token.kind ≠ .eof) :
    beforeEnd (token :: tokens) = token :: beforeEnd tokens := by
  simp [beforeEnd, hkind]

theorem beforeEnd_append (h : ∀ token ∈ tokens, token.kind ≠ .eof) (line : Nat) :
    beforeEnd (tokens ++ [Token.endOfInput line]) = tokens := by
  rw [beforeEnd, List.takeWhile_append_of_pos (by simpa using h)]
  simp [Token.endOfInput]

theorem Consumes.length_beforeEnd_le (h : Consumes tokens rest) :
    (beforeEnd rest).length ≤ (beforeEnd tokens).length := by
  obtain ⟨used, rfl, hused⟩ := h
  rw [beforeEnd, beforeEnd, List.takeWhile_append_of_pos (by simpa using hused)]
  simp

/-- A statement begins with a token of its own, and consumes more behind it. -/
theorem StatementDerivation.exists_cons {statement : Statement}
    (derivation : StatementDerivation capabilities tokens statement rest) :
    ∃ token behind, tokens = token :: behind ∧ token.kind.beginsStatement = true ∧
      token.line = statement.line ∧ Consumes behind rest := by
  cases derivation with
  | command _ ends | call _ ends => exact ⟨_, _, rfl, rfl, rfl, ends.consumes⟩
  | doTimes _ _ body => exact ⟨_, _, rfl, rfl, rfl, body.consumes.cons (by simp)⟩
  | ifElse _ body arms =>
    exact ⟨_, _, rfl, rfl, rfl, (body.consumes.trans arms.consumes).cons (by simp)⟩
  | whileDo _ body => exact ⟨_, _, rfl, rfl, rfl, body.consumes.cons (by simp)⟩
  | define body => exact ⟨_, _, rfl, rfl, rfl, body.consumes.cons (by simp)⟩

theorem StatementDerivation.length_beforeEnd_lt {statement : Statement}
    (derivation : StatementDerivation capabilities tokens statement rest) :
    (beforeEnd rest).length < (beforeEnd tokens).length := by
  obtain ⟨token, behind, rfl, hbegins, -, hconsumes⟩ := derivation.exists_cons
  rw [beforeEnd_cons (token.kind.ne_eof_of_beginsStatement hbegins), List.length_cons]
  exact Nat.lt_succ_of_le hconsumes.length_beforeEnd_le

end Karel.Grammar
