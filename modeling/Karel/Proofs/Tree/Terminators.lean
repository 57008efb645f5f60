import Karel.Proofs.Tree.Gaps

/-!
# The end of the last statement

The last statement of a block may end in a `newline`, or else with the block. So a `newline` in
front of a token that closes a block means nothing: the grammar derives the same tree with it, and
where the grammar objects to it, it objects to the token behind it as well.

## Main definitions

- `Grammar.Terminated` — tokens with a `newline` in front of some that close a block

## Main results

- `Grammar.BlockDerivation.replay_terminated` and its companions — a derivation with such a `newline`
- `Grammar.Outlook.run_of_terminated` — a run without it
-/

namespace Karel.Grammar

/-- The second tokens are the first ones, with a `newline` in front of some of the tokens that close
    a block. Those may stand on another line, too. -/
inductive Terminated : List Token → List Token → Prop where
  | nil : Terminated [] []
  | inner {token : Token} {tokens told : List Token} (inner : token.kind.closesBlock = false)
      (others : Terminated tokens told) : Terminated (token :: tokens) (token :: told)
  | closing {kind : TokenKind} {tokens told : List Token} (closes : kind.closesBlock = true)
      (line toldLine : Nat) (others : Terminated tokens told) :
    Terminated (⟨kind, line⟩ :: tokens) (⟨kind, toldLine⟩ :: told)
  | newline {kind : TokenKind} {tokens told : List Token} (closes : kind.closesBlock = true)
      (line toldLine newlineLine : Nat) (others : Terminated tokens told) :
    Terminated (⟨kind, line⟩ :: tokens) (⟨.newline, newlineLine⟩ :: ⟨kind, toldLine⟩ :: told)

variable {tokens told rest : List Token} {kind second : TokenKind} {line secondLine : Nat}

namespace Terminated

theorem exists_of_inner (h : Terminated (⟨kind, line⟩ :: tokens) told)
    (hkind : kind.closesBlock = false) :
    ∃ behind, told = ⟨kind, line⟩ :: behind ∧ Terminated tokens behind := by
  cases h with
  | inner _ others => exact ⟨_, rfl, others⟩
  | closing closes | newline closes =>
    rw [hkind] at closes
    cases closes

/-- A header has no `newline` put in. -/
theorem exists_of_header (h : Terminated (⟨kind, line⟩ :: ⟨second, secondLine⟩ :: tokens) told)
    (hkind : kind.closesBlock = false) (hsecond : second.closesBlock = false) :
    ∃ behind, told = ⟨kind, line⟩ :: ⟨second, secondLine⟩ :: behind ∧
      Terminated tokens behind := by
  obtain ⟨others, rfl, hothers⟩ := h.exists_of_inner hkind
  obtain ⟨behind, rfl, hbehind⟩ := hothers.exists_of_inner hsecond
  exact ⟨behind, rfl, hbehind⟩

/-- A token that closes a block has a `newline` in front or not. -/
theorem exists_of_closes (h : Terminated (⟨kind, line⟩ :: tokens) told)
    (hkind : kind.closesBlock = true) :
    ∃ toldLine behind, Terminated tokens behind ∧
      (told = ⟨kind, toldLine⟩ :: behind ∨
        ∃ newlineLine, told = ⟨.newline, newlineLine⟩ :: ⟨kind, toldLine⟩ :: behind) := by
  cases h with
  | inner inner =>
    rw [hkind] at inner
    cases inner
  | closing _ _ toldLine others => exact ⟨toldLine, _, others, .inl rfl⟩
  | newline _ _ toldLine newlineLine others => exact ⟨toldLine, _, others, .inr ⟨newlineLine, rfl⟩⟩

theorem append (h : Terminated tokens told) (front : List Token) :
    Terminated (front ++ tokens) (front ++ told) := by
  induction front with
  | nil => exact h
  | cons token front ih =>
    cases hcloses : token.kind.closesBlock with
    | false => exact .inner hcloses ih
    | true => exact .closing hcloses token.line token.line ih

/-- The tokens that end an input may stand on another line. -/
theorem ended (count line toldLine : Nat) :
    Terminated (List.replicate count ⟨.dedent, line⟩ ++ [Token.endOfInput line])
      (List.replicate count ⟨.dedent, toldLine⟩ ++ [Token.endOfInput toldLine]) := by
  induction count with
  | zero => exact .closing rfl line toldLine .nil
  | succ count ih => exact .closing rfl line toldLine ih

/-- They may also have a `newline` in front. -/
theorem newline_ended (count line toldLine newlineLine : Nat) :
    Terminated (List.replicate count ⟨.dedent, line⟩ ++ [Token.endOfInput line])
      (⟨.newline, newlineLine⟩ ::
        (List.replicate count ⟨.dedent, toldLine⟩ ++ [Token.endOfInput toldLine])) := by
  cases count with
  | zero => exact .newline rfl line toldLine newlineLine .nil
  | succ count => exact .newline rfl line toldLine newlineLine (ended count line toldLine)

end Terminated

-- ════════════════════════════════════════════════════════════════════════
-- Derivations
-- ════════════════════════════════════════════════════════════════════════

/-- A simple statement ends in the `newline` that is put in. -/
theorem EndsStatement.replay_terminated (ends : EndsStatement tokens rest)
    (h : Terminated tokens told) :
    ∃ behind, Terminated rest behind ∧ EndsStatement told behind := by
  cases ends with
  | newline line rest =>
    obtain ⟨behind, rfl, hbehind⟩ := h.exists_of_inner rfl
    exact ⟨behind, hbehind, .newline line behind⟩
  | dedent line rest =>
    obtain ⟨toldLine, behind, hbehind, rfl | ⟨newlineLine, rfl⟩⟩ := h.exists_of_closes rfl
    · exact ⟨_, h, .dedent toldLine behind⟩
    · exact ⟨_, .closing rfl line toldLine hbehind, .newline newlineLine _⟩
  | eof line rest =>
    obtain ⟨toldLine, behind, hbehind, rfl | ⟨newlineLine, rfl⟩⟩ := h.exists_of_closes rfl
    · exact ⟨_, h, .eof toldLine behind⟩
    · exact ⟨_, .closing rfl line toldLine hbehind, .newline newlineLine _⟩

variable {capabilities : Capabilities}

-- The induction is on the derivation. A `newline` that is put in belongs to a simple statement if
-- one ends there, and to the innermost block otherwise.
mutual

theorem BlockDerivation.replay_terminated {tokens told rest : List Token} {block : Block} :
    BlockDerivation capabilities tokens block rest → Terminated tokens told →
      ∃ behind, Terminated rest behind ∧
        Nonempty (BlockDerivation capabilities told block behind)
  | .nil _, h => ⟨told, h, ⟨.nil told⟩⟩
  | .newline others, h => by
    obtain ⟨told, rfl, hothers⟩ := h.exists_of_inner rfl
    obtain ⟨behind, hbehind, ⟨others⟩⟩ := others.replay_terminated hothers
    exact ⟨behind, hbehind, ⟨.newline others⟩⟩
  | .cons first others, h => by
    obtain ⟨middle, hmiddle, ⟨first⟩⟩ := first.replay_terminated h
    obtain ⟨behind, hbehind, ⟨others⟩⟩ := others.replay_terminated hmiddle
    exact ⟨behind, hbehind, ⟨.cons first others⟩⟩

theorem StatementDerivation.replay_terminated {tokens told rest : List Token}
    {statement : Statement} :
    StatementDerivation capabilities tokens statement rest → Terminated tokens told →
      ∃ behind, Terminated rest behind ∧
        Nonempty (StatementDerivation capabilities told statement behind)
  | .command known ends, h => by
    obtain ⟨told, rfl, hends⟩ := h.exists_of_inner rfl
    obtain ⟨behind, hbehind, ends⟩ := ends.replay_terminated hends
    exact ⟨behind, hbehind, ⟨.command known ends⟩⟩
  | .call unknown ends, h => by
    obtain ⟨told, rfl, hends⟩ := h.exists_of_inner rfl
    obtain ⟨behind, hbehind, ends⟩ := ends.replay_terminated hends
    exact ⟨behind, hbehind, ⟨.call unknown ends⟩⟩
  | .doTimes value positive body, h => by
    obtain ⟨told, rfl, hbody⟩ := h.exists_of_header rfl rfl
    obtain ⟨behind, hbehind, ⟨body⟩⟩ := body.replay_terminated hbody
    exact ⟨behind, hbehind, ⟨.doTimes value positive body⟩⟩
  | .ifElse known body arms, h => by
    obtain ⟨told, rfl, hbody⟩ := h.exists_of_header rfl rfl
    obtain ⟨middle, hmiddle, ⟨body⟩⟩ := body.replay_terminated hbody
    obtain ⟨behind, hbehind, ⟨arms⟩⟩ := arms.replay_terminated hmiddle
    exact ⟨behind, hbehind, ⟨.ifElse known body arms⟩⟩
  | .whileDo known body, h => by
    obtain ⟨told, rfl, hbody⟩ := h.exists_of_header rfl rfl
    obtain ⟨behind, hbehind, ⟨body⟩⟩ := body.replay_terminated hbody
    exact ⟨behind, hbehind, ⟨.whileDo known body⟩⟩
  | .define body, h => by
    obtain ⟨told, rfl, hbody⟩ := h.exists_of_header rfl rfl
    obtain ⟨behind, hbehind, ⟨body⟩⟩ := body.replay_terminated hbody
    exact ⟨behind, hbehind, ⟨.define body⟩⟩

theorem ArmsDerivation.replay_terminated {tokens told rest : List Token} {arms : Arms} :
    ArmsDerivation capabilities tokens arms rest → Terminated tokens told →
      ∃ behind, Terminated rest behind ∧
        Nonempty (ArmsDerivation capabilities told arms behind)
  | .done _, h => ⟨told, h, ⟨.done told⟩⟩
  | .newline precedes others, h => by
    obtain ⟨told, rfl, hothers⟩ := h.exists_of_inner rfl
    obtain ⟨behind, hbehind, ⟨others⟩⟩ := others.replay_terminated hothers
    exact ⟨behind, hbehind, ⟨.newline precedes others⟩⟩
  | .elif known body others, h => by
    obtain ⟨told, rfl, hbody⟩ := h.exists_of_header rfl rfl
    obtain ⟨middle, hmiddle, ⟨body⟩⟩ := body.replay_terminated hbody
    obtain ⟨behind, hbehind, ⟨others⟩⟩ := others.replay_terminated hmiddle
    exact ⟨behind, hbehind, ⟨.elif known body others⟩⟩
  | .otherwise body, h => by
    obtain ⟨told, rfl, hbody⟩ := h.exists_of_inner rfl
    obtain ⟨behind, hbehind, ⟨body⟩⟩ := body.replay_terminated hbody
    exact ⟨behind, hbehind, ⟨.otherwise body⟩⟩

theorem BodyDerivation.replay_terminated {tokens told rest : List Token} {block : Block} :
    BodyDerivation capabilities tokens block rest → Terminated tokens told →
      ∃ behind, Terminated rest behind ∧
        Nonempty (BodyDerivation capabilities told block behind)
  | .intro inner, h => by
    obtain ⟨told, rfl, hindent⟩ := h.exists_of_header rfl rfl
    obtain ⟨told, rfl, hinner⟩ := hindent.exists_of_inner rfl
    obtain ⟨middle, hmiddle, ⟨inner⟩⟩ := inner.replay_terminated hinner
    obtain ⟨dedentLine, behind, hbehind, rfl | ⟨newlineLine, rfl⟩⟩ := hmiddle.exists_of_closes rfl
    · exact ⟨behind, hbehind, ⟨.intro inner⟩⟩
    · exact ⟨behind, hbehind, ⟨.intro inner.appendNewline⟩⟩

end

/-- A program has the same tree with a `newline` in front of some tokens that close a block. -/
theorem ProgramDerivation.replay_terminated {block : Block}
    (derivation : ProgramDerivation capabilities tokens block) (h : Terminated tokens told) :
    Nonempty (ProgramDerivation capabilities told block) := by
  obtain ⟨behind, hbehind, ⟨root⟩⟩ := derivation.root.replay_terminated h
  obtain ⟨toldLine, others, hothers, rfl | ⟨newlineLine, rfl⟩⟩ := hbehind.exists_of_closes rfl
  all_goals obtain _ | _ := hothers
  · exact ⟨{ endLine := toldLine, root }⟩
  · exact ⟨{ endLine := toldLine, root := root.appendNewline }⟩

-- ════════════════════════════════════════════════════════════════════════
-- Outlooks
-- ════════════════════════════════════════════════════════════════════════

namespace Outlook

variable {outlook middle next : Outlook}

/-- Where a block may be closed behind a `newline`, it may be closed at once. -/
theorem step_of_step_newline (hcloses : kind.closesBlock = true)
    (hnewline : outlook.step capabilities .newline = .ok middle)
    (h : middle.step capabilities kind = .ok next) :
    outlook.step capabilities kind = .ok next := by
  obtain ⟨bodies, awaited⟩ := outlook
  cases awaited with
  | statement arms =>
    obtain rfl := Except.ok.inj hnewline
    exact h
  | ending =>
    obtain rfl := Except.ok.inj hnewline
    cases kind with
    | dedent | eof => exact h
    | _ => cases hcloses
  | newline arms =>
    -- behind a header a block has to be opened first
    obtain rfl := Except.ok.inj hnewline
    cases kind with
    | dedent | eof => cases h
    | _ => cases hcloses
  | _ => cases hnewline

theorem run_of_terminated (h : Terminated tokens told)
    (hrun : outlook.run capabilities told = .ok next) :
    outlook.run capabilities tokens = .ok next := by
  induction h generalizing outlook with
  | nil => exact hrun
  | inner _ _ ih | closing _ _ _ _ ih =>
    obtain ⟨behind, hstep, hbehind⟩ := exists_of_run_cons hrun
    refine (run_cons_of_ok ?_).trans (ih hbehind)
    exact hstep
  | newline closes _ _ _ _ ih =>
    obtain ⟨middle, hnewline, hmiddle⟩ := exists_of_run_cons hrun
    obtain ⟨behind, hstep, hbehind⟩ := exists_of_run_cons hmiddle
    refine (run_cons_of_ok ?_).trans (ih hbehind)
    exact step_of_step_newline closes hnewline hstep

end Outlook

end Karel.Grammar
