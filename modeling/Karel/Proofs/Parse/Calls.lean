import Karel.Proofs.Parse.Balance
import Karel.Proofs.Parse.Progress

/-!
# Faults of calls

Nothing is tried again. If a step fails that the parser calls while it reads a program, then
whatever called it fails with the same error, and so does the program.

## Main definitions

- `Parse.Phrase.Fails` — a step that the parser calls ends in an error

## Main results

- `Parse.Reaches.fails_program` — a program fails if a step does that is called for it
- `Parse.Reaches.suffix` — a step is called on an end of the tokens
- `Parse.Reaches.width_lt_of_indent` — a body is wider than its header
-/

namespace Karel.Parse

variable {context : ParseContext} {start tokens rest : List Token} {error : ParseError}
  {phrase : Phrase} {bound line : Nat}

/-- A step that the parser calls within a bound ends in an error. -/
def Phrase.Fails (bound : Nat) (context : ParseContext) (tokens : List Token)
    (error : ParseError) : Phrase → Prop
  | block => Parse.Fails (Parse.block bound) context tokens error
  | statement => Parse.Fails (Parse.statement (Parse.block bound) (Parse.arms bound)) context tokens
    error
  | arms => Parse.Fails (Parse.arms bound) context tokens error
  | body => Parse.Fails (Parse.body (Parse.block bound)) context tokens error

/-- A failure of a step that is called is one of the block that is the program. -/
theorem Reaches.fails_block (h : Reaches context start phrase bound tokens)
    (hfails : phrase.Fails bound context tokens error) :
    Fails (block (start.length + 1)) context start error := by
  induction h with
  | program => exact hfails
  | newline call ih => exact ih (fails_block_newline.mpr hfails)
  | statement call further shown ih =>
    exact ih ((fails_block_cons further shown).mpr (.inl hfails))
  | others call further shown reads ih =>
    exact ih ((fails_block_cons further shown).mpr (.inr ⟨_, _, reads, hfails⟩))
  | doTimes call counted ih => exact ih (fails_statement_do.mpr (.inr ⟨_, _, counted, hfails⟩))
  | ifElse call tested ih =>
    exact ih (fails_statement_if.mpr (.inr ⟨_, _, tested, .inl hfails⟩))
  | arms call tested reads ih =>
    exact ih (fails_statement_if.mpr (.inr ⟨_, _, tested, .inr ⟨_, _, reads, hfails⟩⟩))
  | whileDo call tested ih => exact ih (fails_statement_while.mpr (.inr ⟨_, _, tested, hfails⟩))
  | define call named ih => exact ih (fails_statement_define.mpr (.inr ⟨_, _, named, hfails⟩))
  | elif call next tested ih =>
    exact ih ((fails_arms_elif next).mpr (.inr ⟨_, _, tested, .inl hfails⟩))
  | furtherArms call next tested reads ih =>
    exact ih ((fails_arms_elif next).mpr (.inr ⟨_, _, tested, .inr ⟨_, _, reads, hfails⟩⟩))
  | otherwise call next ih => exact ih ((fails_arms_otherwise next).mpr hfails)
  | inner call ih => exact ih (fails_body_of_fails_block hfails)

/-- A program fails with the error of any step that is called for it. -/
theorem Reaches.fails_program (h : Reaches context start phrase bound tokens)
    (hfails : phrase.Fails bound context tokens error) :
    Fails Parse.program context start error :=
  fails_bind.mpr (.inl (h.fails_block hfails))

/-- Steps are called on ends of the tokens of the program. -/
theorem Reaches.suffix (h : Reaches context start phrase bound tokens) : tokens <:+ start := by
  have hbody (bound : Nat) : IsForward (Parse.body (block bound)) :=
    (isForward_block_and_isForward_arms bound).1.body
  have hdrop {tokens ahead : List Token} {token : Token}
      (next : tokens.dropWhile (·.kind = .newline) = token :: ahead) : ahead <:+ tokens := by
    have hsuffix := List.dropWhile_suffix (l := tokens) (·.kind = .newline)
    rw [next] at hsuffix
    exact (List.suffix_cons token ahead).trans hsuffix
  induction h with
  | program => exact List.suffix_rfl
  | newline call ih => exact (List.suffix_cons _ _).trans ih
  | statement call further shown ih => exact ih
  | @others bound token tokens middle first call further shown reads ih =>
    obtain ⟨hblock, harms⟩ := isForward_block_and_isForward_arms bound
    have htail : middle <:+ tokens := reads.2 ▸ rest_statement hblock harms
    exact htail.trans ((List.suffix_cons token tokens).trans ih)
  | doTimes call counted ih =>
    exact (isForward_count.suffix_of_reads counted).trans ((List.suffix_cons _ _).trans ih)
  | ifElse call tested ih | whileDo call tested ih =>
    exact ((isForward_condition _).suffix_of_reads tested).trans ((List.suffix_cons _ _).trans ih)
  | @arms bound _ _ _ _ _ _ call tested reads ih =>
    have htest := (isForward_condition _).suffix_of_reads tested
    exact ((hbody bound).suffix_of_reads reads).trans
      (htest.trans ((List.suffix_cons _ _).trans ih))
  | define call named ih =>
    have hname := (isForward_procedureName _).suffix_of_reads named
    exact hname.trans ((List.suffix_cons _ _).trans ih)
  | elif call next tested ih =>
    exact ((isForward_condition _).suffix_of_reads tested).trans ((hdrop next).trans ih)
  | @furtherArms bound _ _ _ _ _ _ _ call next tested reads ih =>
    have htest := (isForward_condition _).suffix_of_reads tested
    exact ((hbody bound).suffix_of_reads reads).trans (htest.trans ((hdrop next).trans ih))
  | otherwise call next ih => exact (hdrop next).trans ih
  | inner call ih =>
    exact ((List.suffix_cons _ _).trans ((List.suffix_cons _ _).trans (List.suffix_cons _ _))).trans
      ih

/-- An `indent` behind a header stands on a line that is wider than that of the header. -/
theorem Reaches.width_lt_of_indent {width : Nat → Nat} {newlineLine : Nat}
    (hstart : Levelled width [] (context.ended start))
    (h : Reaches context start .body bound (⟨.colon, line⟩ :: ⟨.newline, newlineLine⟩ :: tokens))
    (hkind : (firstToken context tokens).kind = .indent) :
    width line < width (firstToken context tokens).line := by
  obtain ⟨levels, hcolon, hlevels⟩ := h.exists_levelled hstart
  have hlevels : Levelled width levels (context.ended tokens) := hlevels
  obtain ⟨behind, hended⟩ := exists_ended_eq context tokens
  rw [hended, Levelled, hkind] at hlevels
  exact hcolon.trans_lt hlevels.1

end Karel.Parse
