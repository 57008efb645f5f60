import Karel.Proofs.Layout.Kinds
import Karel.Proofs.Parse.Consumption

/-!
# Replaying a derivation

A derivation looks at the kinds of tokens, and its tree has the lines of visible tokens only. So it
can be replayed on other tokens of the same kinds, and at the root on tokens that do not end where
the first ones did but go on. The tree is the same up to its lines.

## Main definitions

- `Block.mapLines` — a tree with other line numbers
- `Grammar.Retells` — tokens of the same kinds, which go on behind the end of the first ones

## Main results

- `Grammar.BlockDerivation.replay` and its companions — a derivation on other tokens
- `Grammar.BlockDerivation.replay_root` — the same of a whole program
-/

namespace Karel

mutual

/-- A statement with a function applied to all line numbers in it. -/
def Statement.mapLines (moved : Nat → Nat) : Statement → Statement
  | .command callable line => .command callable (moved line)
  | .call name line => .call name (moved line)
  | .doTimes callable count body line =>
    .doTimes callable count (Block.mapLines moved body) (moved line)
  | .ifElse callable body arms line =>
    .ifElse callable (Block.mapLines moved body) (arms.mapLines moved) (moved line)
  | .whileDo callable body line => .whileDo callable (Block.mapLines moved body) (moved line)
  | .define name body line => .define name (Block.mapLines moved body) (moved line)

/-- The arms of an `if` with a function applied to all line numbers in them. -/
def Arms.mapLines (moved : Nat → Nat) : Arms → Arms
  | .done => .done
  | .otherwise body => .otherwise (Block.mapLines moved body)
  | .elif callable line body next =>
    .elif callable (moved line) (Block.mapLines moved body) (next.mapLines moved)

/-- A block with a function applied to all line numbers in it. -/
def Block.mapLines (moved : Nat → Nat) : List Statement → List Statement
  | [] => []
  | statement :: rest => statement.mapLines moved :: Block.mapLines moved rest

end

mutual

theorem Statement.mapLines_id : (statement : Statement) → statement.mapLines id = statement
  | .command _ _ | .call _ _ => rfl
  | .doTimes _ _ body _ | .whileDo _ body _ | .define _ body _ => by
    rw [Statement.mapLines, Block.mapLines_id body]
    rfl
  | .ifElse _ body arms _ => by
    rw [Statement.mapLines, Block.mapLines_id body, Arms.mapLines_id arms]
    rfl

theorem Arms.mapLines_id : (arms : Arms) → arms.mapLines id = arms
  | .done => rfl
  | .otherwise body => by rw [Arms.mapLines, Block.mapLines_id body]
  | .elif _ _ body next => by
    rw [Arms.mapLines, Block.mapLines_id body, Arms.mapLines_id next]
    rfl

theorem Block.mapLines_id : (block : List Statement) → Block.mapLines id block = block
  | [] => rfl
  | statement :: rest => by
    rw [Block.mapLines, Statement.mapLines_id statement, Block.mapLines_id rest]

end

theorem Arms.mapLines_ne_done {moved : Nat → Nat} {arms : Arms} (h : arms ≠ .done) :
    arms.mapLines moved ≠ .done := by
  cases arms with
  | done => exact absurd rfl h
  | otherwise body | elif callable line body next => simp [Arms.mapLines]

namespace Grammar

/-- The second tokens have the kinds of the first ones, and their visible tokens the lines, moved.
    Where the first tokens end, the second ones go on with a tail. -/
inductive Retells (moved : Nat → Nat) (tail : List Token) : List Token → List Token → Prop where
  | ended (line : Nat) : Retells moved tail [⟨.eof, line⟩] tail
  | layout {kind : TokenKind} (hidden : kind.isVisible = false) (inner : kind ≠ .eof)
      (line toldLine : Nat) {tokens told : List Token} (others : Retells moved tail tokens told) :
    Retells moved tail (⟨kind, line⟩ :: tokens) (⟨kind, toldLine⟩ :: told)
  /-- A simple statement that ends with the first tokens has to end in front of the tail, too. -/
  | visible {kind : TokenKind} (shown : kind.isVisible = true) (line : Nat)
      {tokens told : List Token}
      (stops : ∀ last, tokens = [⟨.eof, last⟩] → EndsStatement tail tail)
      (others : Retells moved tail tokens told) :
    Retells moved tail (⟨kind, line⟩ :: tokens) (⟨kind, moved line⟩ :: told)

variable {moved : Nat → Nat} {tail tokens told rest : List Token} {kind : TokenKind} {line : Nat}

namespace Retells

theorem exists_of_visible (h : Retells moved tail (⟨kind, line⟩ :: tokens) told)
    (hkind : kind.isVisible = true) :
    ∃ behind, told = ⟨kind, moved line⟩ :: behind ∧ Retells moved tail tokens behind ∧
      ∀ last, tokens = [⟨.eof, last⟩] → EndsStatement tail tail := by
  cases h with
  | ended => cases hkind
  | layout hidden =>
    rw [hidden] at hkind
    cases hkind
  | visible _ _ stops others => exact ⟨_, rfl, others, stops⟩

theorem exists_of_layout (h : Retells moved tail (⟨kind, line⟩ :: tokens) told)
    (hkind : kind.isVisible = false) (hinner : kind ≠ .eof) :
    ∃ toldLine behind, told = ⟨kind, toldLine⟩ :: behind ∧ Retells moved tail tokens behind := by
  cases h with
  | ended => exact absurd rfl hinner
  | layout _ _ _ toldLine others => exact ⟨toldLine, _, rfl, others⟩
  | visible shown =>
    rw [hkind] at shown
    cases shown

theorem eq_tail (h : Retells moved tail [⟨.eof, line⟩] told) : told = tail := by
  cases h with
  | ended => rfl
  | layout _ inner => exact absurd rfl inner
  | visible shown => cases shown

theorem dedents (h : Retells moved tail tokens told) (count line toldLine : Nat) :
    Retells moved tail (List.replicate count ⟨.dedent, line⟩ ++ tokens)
      (List.replicate count ⟨.dedent, toldLine⟩ ++ told) := by
  induction count with
  | zero => exact h
  | succ count ih => exact .layout rfl (by simp) line toldLine ih

/-- Tokens may be put in front. If the last of them is visible, a simple statement may end with
    it. -/
theorem append (h : Retells moved tail tokens told) (front : List Token)
    (hfront : ∀ token ∈ front, token.kind ≠ .eof)
    (hstops : EndsStatement tail tail ∨ ∀ last ∈ front.getLast?, last.kind.isVisible = false) :
    Retells moved tail (front ++ tokens)
      (front.map (Token.mapLine moved) ++ told) := by
  induction front with
  | nil => exact h
  | cons token front ih =>
    have hlater : ∀ last ∈ front.getLast?, last ∈ (token :: front).getLast? := by
      intro last hmem
      rw [List.getLast?_cons, Option.mem_def.mp hmem]
      rfl
    have hothers := ih (fun other hmem => hfront other (List.mem_cons_of_mem token hmem))
      (hstops.imp_right fun hlast last hmem => hlast last (hlater last hmem))
    cases hvisible : token.kind.isVisible with
    | false => exact .layout hvisible (hfront token List.mem_cons_self) token.line _ hothers
    | true =>
      refine .visible hvisible token.line (fun last hend => ?_) hothers
      refine hstops.resolve_right fun hlast => ?_
      cases front with
      | nil =>
        rw [hlast token rfl] at hvisible
        cases hvisible
      | cons next front =>
        have hnext := hfront next (List.mem_cons_of_mem token List.mem_cons_self)
        rw [(List.cons.inj hend).1] at hnext
        exact hnext rfl

end Retells

theorem EndsStatement.replay (ends : EndsStatement tokens rest)
    (h : Retells moved tail tokens told)
    (stops : ∀ last, tokens = [⟨.eof, last⟩] → EndsStatement tail tail) :
    ∃ behind, Retells moved tail rest behind ∧ EndsStatement told behind := by
  cases ends with
  | newline line rest =>
    obtain ⟨toldLine, behind, rfl, hbehind⟩ := h.exists_of_layout rfl (by simp)
    exact ⟨behind, hbehind, .newline toldLine behind⟩
  | dedent line rest =>
    obtain ⟨toldLine, behind, rfl, -⟩ := h.exists_of_layout rfl (by simp)
    exact ⟨_, h, .dedent toldLine behind⟩
  | eof line rest =>
    cases h with
    | ended => exact ⟨tail, .ended line, stops line rfl⟩
    | layout _ inner => exact absurd rfl inner
    | visible shown => cases shown

variable {capabilities : Capabilities}

-- The induction is on the derivation. What it leaves of the first tokens is retold by what the
-- new derivation leaves of the second ones.
mutual

theorem BlockDerivation.replay {tokens told rest : List Token} {block : Block} :
    BlockDerivation capabilities tokens block rest → Retells moved tail tokens told →
      ∃ behind, Retells moved tail rest behind ∧
        Nonempty (BlockDerivation capabilities told (Block.mapLines moved block) behind)
  | .nil _, h => ⟨told, h, ⟨.nil told⟩⟩
  | .newline others, h => by
    obtain ⟨toldLine, told, rfl, hothers⟩ := h.exists_of_layout rfl (by simp)
    obtain ⟨behind, hbehind, ⟨others⟩⟩ := others.replay hothers
    exact ⟨behind, hbehind, ⟨.newline others⟩⟩
  | .cons first others, h => by
    obtain ⟨middle, hmiddle, ⟨first⟩⟩ := first.replay h
    obtain ⟨behind, hbehind, ⟨others⟩⟩ := others.replay hmiddle
    exact ⟨behind, hbehind, ⟨.cons first others⟩⟩

theorem StatementDerivation.replay {tokens told rest : List Token} {statement : Statement} :
    StatementDerivation capabilities tokens statement rest → Retells moved tail tokens told →
      ∃ behind, Retells moved tail rest behind ∧
        Nonempty (StatementDerivation capabilities told (statement.mapLines moved) behind)
  | .command known ends, h => by
    obtain ⟨told, rfl, hends, stops⟩ := h.exists_of_visible rfl
    obtain ⟨behind, hbehind, ends⟩ := ends.replay hends stops
    exact ⟨behind, hbehind, ⟨.command known ends⟩⟩
  | .call unknown ends, h => by
    obtain ⟨told, rfl, hends, stops⟩ := h.exists_of_visible rfl
    obtain ⟨behind, hbehind, ends⟩ := ends.replay hends stops
    exact ⟨behind, hbehind, ⟨.call unknown ends⟩⟩
  | .doTimes value positive body, h => by
    obtain ⟨told, rfl, hname, -⟩ := h.exists_of_visible rfl
    obtain ⟨told, rfl, hbody, -⟩ := hname.exists_of_visible rfl
    obtain ⟨behind, hbehind, ⟨body⟩⟩ := body.replay hbody
    exact ⟨behind, hbehind, ⟨.doTimes value positive body⟩⟩
  | .ifElse known body arms, h => by
    obtain ⟨told, rfl, hname, -⟩ := h.exists_of_visible rfl
    obtain ⟨told, rfl, hbody, -⟩ := hname.exists_of_visible rfl
    obtain ⟨middle, hmiddle, ⟨body⟩⟩ := body.replay hbody
    obtain ⟨behind, hbehind, ⟨arms⟩⟩ := arms.replay hmiddle
    exact ⟨behind, hbehind, ⟨.ifElse known body arms⟩⟩
  | .whileDo known body, h => by
    obtain ⟨told, rfl, hname, -⟩ := h.exists_of_visible rfl
    obtain ⟨told, rfl, hbody, -⟩ := hname.exists_of_visible rfl
    obtain ⟨behind, hbehind, ⟨body⟩⟩ := body.replay hbody
    exact ⟨behind, hbehind, ⟨.whileDo known body⟩⟩
  | .define body, h => by
    obtain ⟨told, rfl, hname, -⟩ := h.exists_of_visible rfl
    obtain ⟨told, rfl, hbody, -⟩ := hname.exists_of_visible rfl
    obtain ⟨behind, hbehind, ⟨body⟩⟩ := body.replay hbody
    exact ⟨behind, hbehind, ⟨.define body⟩⟩

theorem ArmsDerivation.replay {tokens told rest : List Token} {arms : Arms} :
    ArmsDerivation capabilities tokens arms rest → Retells moved tail tokens told →
      ∃ behind, Retells moved tail rest behind ∧
        Nonempty (ArmsDerivation capabilities told (arms.mapLines moved) behind)
  | .done _, h => ⟨told, h, ⟨.done told⟩⟩
  | .newline precedes others, h => by
    obtain ⟨toldLine, told, rfl, hothers⟩ := h.exists_of_layout rfl (by simp)
    obtain ⟨behind, hbehind, ⟨others⟩⟩ := others.replay hothers
    exact ⟨behind, hbehind, ⟨.newline (Arms.mapLines_ne_done precedes) others⟩⟩
  | .elif known body others, h => by
    obtain ⟨told, rfl, hname, -⟩ := h.exists_of_visible rfl
    obtain ⟨told, rfl, hbody, -⟩ := hname.exists_of_visible rfl
    obtain ⟨middle, hmiddle, ⟨body⟩⟩ := body.replay hbody
    obtain ⟨behind, hbehind, ⟨others⟩⟩ := others.replay hmiddle
    exact ⟨behind, hbehind, ⟨.elif known body others⟩⟩
  | .otherwise body, h => by
    obtain ⟨told, rfl, hbody, -⟩ := h.exists_of_visible rfl
    obtain ⟨behind, hbehind, ⟨body⟩⟩ := body.replay hbody
    exact ⟨behind, hbehind, ⟨.otherwise body⟩⟩

theorem BodyDerivation.replay {tokens told rest : List Token} {block : Block} :
    BodyDerivation capabilities tokens block rest → Retells moved tail tokens told →
      ∃ behind, Retells moved tail rest behind ∧
        Nonempty (BodyDerivation capabilities told (Block.mapLines moved block) behind)
  | .intro inner, h => by
    obtain ⟨told, rfl, hnewline, -⟩ := h.exists_of_visible rfl
    obtain ⟨newlineLine, told, rfl, hindent⟩ := hnewline.exists_of_layout rfl (by simp)
    obtain ⟨indentLine, told, rfl, hinner⟩ := hindent.exists_of_layout rfl (by simp)
    obtain ⟨middle, hmiddle, ⟨inner⟩⟩ := inner.replay hinner
    obtain ⟨dedentLine, behind, rfl, hbehind⟩ := hmiddle.exists_of_layout rfl (by simp)
    exact ⟨behind, hbehind, ⟨.intro inner⟩⟩

end

/-- A block up to the end of the input is also derived from tokens that go on there. -/
theorem BlockDerivation.replay_root {block : Block}
    (derivation : BlockDerivation capabilities tokens block [Token.endOfInput line])
    (h : Retells moved tail tokens told) :
    Nonempty (BlockDerivation capabilities told (Block.mapLines moved block) tail) := by
  obtain ⟨behind, hbehind, hblock⟩ := derivation.replay h
  rwa [hbehind.eq_tail] at hblock

/-- A program is also derived from its tokens on other lines. -/
theorem BlockDerivation.replay_map {front : List Token} {last : Nat} {block : Block}
    (derivation : BlockDerivation capabilities (front ++ [Token.endOfInput last]) block
      [Token.endOfInput line])
    (hfront : ∀ token ∈ front, token.kind ≠ .eof) (moved : Nat → Nat) :
    Nonempty (BlockDerivation capabilities
      ((front ++ [Token.endOfInput last]).map (Token.mapLine moved)) (Block.mapLines moved block)
      [Token.endOfInput (moved last)]) := by
  have hretells : Retells moved [Token.endOfInput (moved last)]
      (front ++ [Token.endOfInput last])
      (front.map (Token.mapLine moved) ++ [Token.endOfInput (moved last)]) :=
    Retells.append (.ended last) front hfront (.inl (.eof _ []))
  rw [List.map_append]
  exact derivation.replay_root hretells

/-- Two blocks in a row are one. -/
def BlockDerivation.append {tokens middle rest : List Token} {block others : Block} :
    BlockDerivation capabilities tokens block middle →
      BlockDerivation capabilities middle others rest →
        BlockDerivation capabilities tokens (block ++ others) rest
  | .nil _, second => second
  | .newline behind, second => .newline (behind.append second)
  | .cons first behind, second => .cons first (behind.append second)

end Grammar

end Karel
