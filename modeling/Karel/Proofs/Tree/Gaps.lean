import Karel.Proofs.Parse.Outlook
import Karel.Proofs.Tree.Replay

/-!
# Gaps between lines

Blank lines above a line with code become one `newline`, behind the tokens that close and open
blocks and before the text of the line. Wherever that is, the grammar takes the `newline` in, or it
is what the grammar objects to, in place of the token behind it, which stands on the same line.

## Main definitions

- `Grammar.Gapped` — tokens with gaps put in
- `Grammar.Outlook.FailsLike` — tokens with a fault on a given line

## Main results

- `Grammar.BlockDerivation.replay_gapped` and its companions — a derivation with a gap
- `Grammar.Outlook.run_gapped` — a fault with a gap before it or in its place
- `Grammar.Outlook.run_map_mapLine` — a fault on another line
-/

namespace Karel.Grammar

/-- The second tokens are the first ones with gaps put in. A gap is a `newline` on the line of the
    token behind it, which is no `indent`, and it stands behind no visible token: it may stand in
    front of all tokens if the index says so. -/
inductive Gapped : Bool → List Token → List Token → Prop where
  | nil (free : Bool) : Gapped free [] []
  | gap {token : Token} {tokens told : List Token} (level : token.kind ≠ .indent)
      (others : Gapped false (token :: tokens) told) :
    Gapped true (token :: tokens) (⟨.newline, token.line⟩ :: told)
  | visible {free : Bool} {token : Token} {tokens told : List Token}
      (shown : token.kind.isVisible = true) (others : Gapped false tokens told) :
    Gapped free (token :: tokens) (token :: told)
  | layout {free : Bool} {token : Token} {tokens told : List Token}
      (hidden : token.kind.isVisible = false) (others : Gapped true tokens told) :
    Gapped free (token :: tokens) (token :: told)

variable {tokens told rest : List Token} {token : Token} {kind : TokenKind} {line : Nat}
  {free : Bool}

namespace Gapped

theorem refl (free : Bool) (tokens : List Token) : Gapped free tokens tokens := by
  induction tokens generalizing free with
  | nil => exact .nil free
  | cons token tokens ih =>
    cases hvisible : token.kind.isVisible with
    | true => exact .visible hvisible (ih false)
    | false => exact .layout hvisible (ih true)

theorem mono (h : Gapped false tokens told) : Gapped true tokens told := by
  cases h with
  | nil => exact .nil true
  | visible shown others => exact .visible shown others
  | layout hidden others => exact .layout hidden others

/-- At the beginning of a line, tokens have a gap in front or not. -/
theorem eq_or (h : Gapped true tokens told) :
    Gapped false tokens told ∨
      ∃ token behind, tokens.head? = some token ∧ token.kind ≠ .indent ∧
        told = ⟨.newline, token.line⟩ :: behind ∧ Gapped false tokens behind := by
  cases h with
  | nil => exact .inl (.nil false)
  | gap level others => exact .inr ⟨_, _, rfl, level, rfl, others⟩
  | visible shown others => exact .inl (.visible shown others)
  | layout hidden others => exact .inl (.layout hidden others)

theorem exists_of_visible (h : Gapped false (⟨kind, line⟩ :: tokens) told)
    (hkind : kind.isVisible = true) :
    ∃ behind, told = ⟨kind, line⟩ :: behind ∧ Gapped false tokens behind := by
  cases h with
  | visible _ others => exact ⟨_, rfl, others⟩
  | layout hidden =>
    rw [hkind] at hidden
    cases hidden

theorem exists_of_layout (h : Gapped false (⟨kind, line⟩ :: tokens) told)
    (hkind : kind.isVisible = false) :
    ∃ behind, told = ⟨kind, line⟩ :: behind ∧ Gapped true tokens behind := by
  cases h with
  | visible shown =>
    rw [hkind] at shown
    cases shown
  | layout _ others => exact ⟨_, rfl, others⟩

/-- No gap stands between the two words of a header. -/
theorem exists_of_header {second : TokenKind} {secondLine : Nat}
    (h : Gapped false (⟨kind, line⟩ :: ⟨second, secondLine⟩ :: tokens) told)
    (hkind : kind.isVisible = true) (hsecond : second.isVisible = true) :
    ∃ behind, told = ⟨kind, line⟩ :: ⟨second, secondLine⟩ :: behind ∧
      Gapped false tokens behind := by
  obtain ⟨others, rfl, hothers⟩ := h.exists_of_visible hkind
  obtain ⟨behind, rfl, hbehind⟩ := hothers.exists_of_visible hsecond
  exact ⟨behind, rfl, hbehind⟩

/-- No gap stands before an `indent`. -/
theorem exists_of_indent (h : Gapped true (⟨.indent, line⟩ :: tokens) told) :
    ∃ behind, told = ⟨.indent, line⟩ :: behind ∧ Gapped true tokens behind := by
  rcases h.eq_or with h | ⟨token, behind, hhead, hlevel, -⟩
  · exact h.exists_of_layout rfl
  · obtain rfl := Option.some.inj hhead
    exact absurd rfl hlevel

/-- Tokens that end in a hidden one may be put in front. -/
theorem append (h : Gapped true tokens told) (front : List Token)
    (hlast : ∀ last ∈ front.getLast?, last.kind.isVisible = false)
    (hfree : front = [] → free = true) : Gapped free (front ++ tokens) (front ++ told) := by
  induction front generalizing free with
  | nil =>
    rw [hfree rfl]
    exact h
  | cons token front ih =>
    have hlater : ∀ last ∈ front.getLast?, last.kind.isVisible = false := by
      intro last hmem
      refine hlast last ?_
      rw [List.getLast?_cons, Option.mem_def.mp hmem]
      rfl
    cases hvisible : token.kind.isVisible with
    | false => exact .layout hvisible (ih hlater fun _ => rfl)
    | true =>
      refine .visible hvisible (ih hlater ?_)
      rintro rfl
      rw [hlast token rfl] at hvisible
      cases hvisible

end Gapped

-- ════════════════════════════════════════════════════════════════════════
-- Derivations
-- ════════════════════════════════════════════════════════════════════════

theorem EndsStatement.replay_gapped (ends : EndsStatement tokens rest)
    (h : Gapped false tokens told) :
    ∃ behind, Gapped true rest behind ∧ EndsStatement told behind := by
  cases ends with
  | newline line rest =>
    obtain ⟨behind, rfl, hbehind⟩ := h.exists_of_layout rfl
    exact ⟨behind, hbehind, .newline line behind⟩
  | dedent line rest =>
    obtain ⟨behind, rfl, -⟩ := h.exists_of_layout rfl
    exact ⟨_, h.mono, .dedent line behind⟩
  | eof line rest =>
    obtain ⟨behind, rfl, -⟩ := h.exists_of_layout rfl
    exact ⟨_, h.mono, .eof line behind⟩

variable {capabilities : Capabilities}

/-- A `newline` behind a block belongs to it as well. -/
def BlockDerivation.appendNewline {tokens rest : List Token} {block : Block} {line : Nat}
    (derivation : BlockDerivation capabilities tokens block (⟨.newline, line⟩ :: rest)) :
    BlockDerivation capabilities tokens block rest :=
  block.append_nil ▸ derivation.append (.newline (.nil rest))

-- The induction is on the derivation. A block and the arms of an `if` may begin with a gap, as
-- they begin on a line of their own. A statement and a body go on with a line.
mutual

theorem BlockDerivation.replay_gapped {tokens told rest : List Token} {block : Block} :
    BlockDerivation capabilities tokens block rest → Gapped true tokens told →
      ∃ behind, Gapped true rest behind ∧
        Nonempty (BlockDerivation capabilities told block behind)
  | .nil _, h => ⟨told, h, ⟨.nil told⟩⟩
  | .newline others, h => by
    rcases h.eq_or with hplain | ⟨token, told, -, -, rfl, hplain⟩
    all_goals
      obtain ⟨told, rfl, hothers⟩ := hplain.exists_of_layout rfl
      obtain ⟨behind, hbehind, ⟨others⟩⟩ := others.replay_gapped hothers
    · exact ⟨behind, hbehind, ⟨.newline others⟩⟩
    · exact ⟨behind, hbehind, ⟨.newline (.newline others)⟩⟩
  | .cons first others, h => by
    rcases h.eq_or with hplain | ⟨token, told, -, -, rfl, hplain⟩
    all_goals
      obtain ⟨middle, hmiddle, ⟨first⟩⟩ := first.replay_gapped hplain
      obtain ⟨behind, hbehind, ⟨others⟩⟩ := others.replay_gapped hmiddle
    · exact ⟨behind, hbehind, ⟨.cons first others⟩⟩
    · exact ⟨behind, hbehind, ⟨.newline (.cons first others)⟩⟩

theorem StatementDerivation.replay_gapped {tokens told rest : List Token} {statement : Statement} :
    StatementDerivation capabilities tokens statement rest → Gapped false tokens told →
      ∃ behind, Gapped true rest behind ∧
        Nonempty (StatementDerivation capabilities told statement behind)
  | .command known ends, h => by
    obtain ⟨told, rfl, hends⟩ := h.exists_of_visible rfl
    obtain ⟨behind, hbehind, ends⟩ := ends.replay_gapped hends
    exact ⟨behind, hbehind, ⟨.command known ends⟩⟩
  | .call unknown ends, h => by
    obtain ⟨told, rfl, hends⟩ := h.exists_of_visible rfl
    obtain ⟨behind, hbehind, ends⟩ := ends.replay_gapped hends
    exact ⟨behind, hbehind, ⟨.call unknown ends⟩⟩
  | .doTimes value positive body, h => by
    obtain ⟨told, rfl, hbody⟩ := h.exists_of_header rfl rfl
    obtain ⟨behind, hbehind, ⟨body⟩⟩ := body.replay_gapped hbody
    exact ⟨behind, hbehind, ⟨.doTimes value positive body⟩⟩
  | .ifElse known body arms, h => by
    obtain ⟨told, rfl, hbody⟩ := h.exists_of_header rfl rfl
    obtain ⟨middle, hmiddle, ⟨body⟩⟩ := body.replay_gapped hbody
    obtain ⟨behind, hbehind, ⟨arms⟩⟩ := arms.replay_gapped hmiddle
    exact ⟨behind, hbehind, ⟨.ifElse known body arms⟩⟩
  | .whileDo known body, h => by
    obtain ⟨told, rfl, hbody⟩ := h.exists_of_header rfl rfl
    obtain ⟨behind, hbehind, ⟨body⟩⟩ := body.replay_gapped hbody
    exact ⟨behind, hbehind, ⟨.whileDo known body⟩⟩
  | .define body, h => by
    obtain ⟨told, rfl, hbody⟩ := h.exists_of_header rfl rfl
    obtain ⟨behind, hbehind, ⟨body⟩⟩ := body.replay_gapped hbody
    exact ⟨behind, hbehind, ⟨.define body⟩⟩

theorem ArmsDerivation.replay_gapped {tokens told rest : List Token} {arms : Arms} :
    ArmsDerivation capabilities tokens arms rest → Gapped true tokens told →
      ∃ behind, Gapped true rest behind ∧
        Nonempty (ArmsDerivation capabilities told arms behind)
  | .done _, h => ⟨told, h, ⟨.done told⟩⟩
  | .newline precedes others, h => by
    rcases h.eq_or with hplain | ⟨token, told, -, -, rfl, hplain⟩
    all_goals
      obtain ⟨told, rfl, hothers⟩ := hplain.exists_of_layout rfl
      obtain ⟨behind, hbehind, ⟨others⟩⟩ := others.replay_gapped hothers
    · exact ⟨behind, hbehind, ⟨.newline precedes others⟩⟩
    · exact ⟨behind, hbehind, ⟨.newline precedes (.newline precedes others)⟩⟩
  | .elif known body others, h => by
    rcases h.eq_or with hplain | ⟨token, told, -, -, rfl, hplain⟩
    all_goals
      obtain ⟨told, rfl, hbody⟩ := hplain.exists_of_header rfl rfl
      obtain ⟨middle, hmiddle, ⟨body⟩⟩ := body.replay_gapped hbody
      obtain ⟨behind, hbehind, ⟨others⟩⟩ := others.replay_gapped hmiddle
    · exact ⟨behind, hbehind, ⟨.elif known body others⟩⟩
    · exact ⟨behind, hbehind, ⟨.newline (by simp) (.elif known body others)⟩⟩
  | .otherwise body, h => by
    rcases h.eq_or with hplain | ⟨token, told, -, -, rfl, hplain⟩
    all_goals
      obtain ⟨told, rfl, hbody⟩ := hplain.exists_of_visible rfl
      obtain ⟨behind, hbehind, ⟨body⟩⟩ := body.replay_gapped hbody
    · exact ⟨behind, hbehind, ⟨.otherwise body⟩⟩
    · exact ⟨behind, hbehind, ⟨.newline (by simp) (.otherwise body)⟩⟩

theorem BodyDerivation.replay_gapped {tokens told rest : List Token} {block : Block} :
    BodyDerivation capabilities tokens block rest → Gapped false tokens told →
      ∃ behind, Gapped true rest behind ∧
        Nonempty (BodyDerivation capabilities told block behind)
  | .intro inner, h => by
    obtain ⟨told, rfl, hnewline⟩ := h.exists_of_visible rfl
    obtain ⟨told, rfl, hindent⟩ := hnewline.exists_of_layout rfl
    obtain ⟨told, rfl, hinner⟩ := hindent.exists_of_indent
    obtain ⟨middle, hmiddle, ⟨inner⟩⟩ := inner.replay_gapped hinner
    rcases hmiddle.eq_or with hplain | ⟨token, middle, -, -, rfl, hplain⟩
    all_goals obtain ⟨behind, rfl, hbehind⟩ := hplain.exists_of_layout rfl
    · exact ⟨behind, hbehind, ⟨.intro inner⟩⟩
    · exact ⟨behind, hbehind, ⟨.intro inner.appendNewline⟩⟩

end

/-- A block up to the end of the input is also derived with gaps put in. -/
theorem BlockDerivation.replay_root_gapped {block : Block}
    (derivation : BlockDerivation capabilities tokens block [Token.endOfInput line])
    (h : Gapped true tokens told) :
    Nonempty (BlockDerivation capabilities told block [Token.endOfInput line]) := by
  obtain ⟨behind, hbehind, ⟨derivation⟩⟩ := derivation.replay_gapped h
  rcases hbehind.eq_or with hplain | ⟨token, behind, -, -, rfl, hplain⟩
  all_goals
    obtain ⟨others, rfl, hothers⟩ := hplain.exists_of_layout rfl
    obtain _ | _ := hothers
  · exact ⟨derivation⟩
  · exact ⟨derivation.appendNewline⟩

-- ════════════════════════════════════════════════════════════════════════
-- Outlooks
-- ════════════════════════════════════════════════════════════════════════

namespace Outlook

variable {outlook next : Outlook} {error : ParseError}

/-- What may be awaited at the beginning of a line: a statement, the `indent` of a body, or nothing
    behind the end of the input. -/
def AtLineStart (outlook : Outlook) : Prop :=
  match outlook.awaited with
  | .statement _ | .indent _ | .nothing => True
  | _ => False

/-- A token that does not show leads to the beginning of a line. -/
theorem atLineStart_of_step (hkind : kind.isVisible = false)
    (h : outlook.step capabilities kind = .ok next) : next.AtLineStart := by
  have hleave (bodies : List Bool) (h : leave bodies kind = .ok next) : next.AtLineStart := by
    unfold leave at h
    split at h
    · obtain rfl := Except.ok.inj h
      trivial
    · obtain rfl := Except.ok.inj h
      trivial
    · cases h
  obtain ⟨bodies, awaited⟩ := outlook
  cases kind with
  | newline =>
    cases awaited with
    | statement | ending | newline =>
      obtain rfl := Except.ok.inj h
      trivial
    | _ => cases h
  | indent =>
    cases awaited with
    | indent =>
      obtain rfl := Except.ok.inj h
      trivial
    | _ => cases h
  | dedent | eof =>
    cases awaited with
    | statement | ending => exact hleave bodies h
    | _ => cases h
  | _ => cases hkind

/-- Some tokens have the fault of an error, and on its line, though it may be at another token. -/
def FailsLike (capabilities : Capabilities) (outlook : Outlook) (tokens : List Token)
    (error : ParseError) : Prop :=
  ∃ other, outlook.run capabilities tokens = .error other ∧ other.fault = error.fault ∧
    other.found.line = error.found.line

/-- A token in front is at fault itself, or leads to an outlook from which the others fail. -/
theorem FailsLike.cons (hrun : outlook.run capabilities (token :: tokens) = .error error)
    (hothers : ∀ next, outlook.step capabilities token.kind = .ok next →
      next.run capabilities tokens = .error error → FailsLike capabilities next told error) :
    FailsLike capabilities outlook (token :: told) error := by
  cases hstep : outlook.step capabilities token.kind with
  | ok next =>
    rw [run_cons_of_ok hstep] at hrun
    rw [FailsLike, run_cons_of_ok hstep]
    exact hothers next hstep hrun
  | error fault =>
    rw [run_cons_of_error hstep] at hrun
    exact ⟨error, (run_cons_of_error hstep).trans hrun, rfl, rfl⟩

/-- Gaps in the tokens do not hide a fault: it is found at the same token, or at the gap in front of
    that token, which stands on the same line. -/
theorem run_gapped (h : Gapped free tokens told) (hfree : free = true → outlook.AtLineStart)
    (hrun : outlook.run capabilities tokens = .error error) :
    FailsLike capabilities outlook told error := by
  induction h generalizing outlook with
  | nil => cases hrun
  | visible shown others ih =>
    exact .cons hrun fun next _ hrun => ih (by simp) hrun
  | layout hidden others ih =>
    exact .cons hrun fun next hstep hrun => ih (fun _ => atLineStart_of_step hidden hstep) hrun
  | @gap token tokens told level others ih =>
    obtain ⟨bodies, awaited⟩ := outlook
    have hstart := hfree rfl
    cases awaited with
    | statement arms => exact ih (by simp) hrun
    | indent arms =>
      -- the block is missing in the same line, whether the gap or the token behind it shows that
      have hmissing : step capabilities ⟨bodies, .indent arms⟩ token.kind = .error .expectedBlock :=
        if_neg level
      rw [run_cons_of_error hmissing] at hrun
      obtain rfl := Except.error.inj hrun
      exact ⟨_, run_cons_of_error rfl, rfl, rfl⟩
    | nothing =>
      obtain rfl := Except.error.inj hrun
      exact ⟨_, run_cons_of_error rfl, rfl, rfl⟩
    | _ => cases hstart

/-- Tokens on other lines have their fault on another line. -/
theorem run_map_mapLine (moved : Nat → Nat)
    (h : outlook.run capabilities tokens = .error error) :
    outlook.run capabilities (tokens.map (Token.mapLine moved)) =
      .error { error with found := error.found.mapLine moved } := by
  induction tokens generalizing outlook with
  | nil => cases h
  | cons token tokens ih =>
    have hkind : (token.mapLine moved).kind = token.kind := rfl
    cases hstep : outlook.step capabilities token.kind with
    | ok next =>
      rw [run_cons_of_ok hstep] at h
      rw [List.map_cons, run_cons_of_ok (hkind ▸ hstep), ih h]
    | error fault =>
      rw [run_cons_of_error hstep] at h
      rw [List.map_cons, run_cons_of_error (hkind ▸ hstep), ← Except.error.inj h]

end Outlook

end Karel.Grammar
