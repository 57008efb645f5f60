import Karel.Proofs.Parse.Calls

/-!
# Rounds

The statements of a block, the further arms of an `if` and the new lines that are skipped are read
in rounds. A round either ends the reading or goes on, and then it has consumed a token. A body is
entered behind its header. So the tokens that are left bound how often the parser goes round and how
deep it goes, and any greater bound is as good as none.

## Main definitions

- `Parse.Round`, `Parse.loop` — what a round answers, and a reading in rounds
- `Parse.blockRound`, `Parse.armsRound`, `Parse.newlinesRound` — the rounds of the parser
- `Parse.unboundedBlock`, `Parse.unboundedArms` — the recursive steps without a bound
- `Parse.Shrinks` — a round that goes on leaves fewer tokens
- `Parse.AgreesBelow` — steps that do the same on few tokens

## Main results

- `Parse.block_succ`, `Parse.arms_succ`, `Parse.newlines_eq_loop` — the readings in rounds
- `Parse.agreesBelow_block_and_arms` — a bound above the number of tokens makes no difference
- `Parse.unboundedBlock_eq_loop`, `Parse.unboundedArms_eq_loop` — the rounds without a bound
- `Parse.rounds_and_bodies_shrink` — the tokens that are left behind rounds, statements and blocks
-/

namespace Karel.Parse

/-- The answer of a round: the result of the reading, or how what is read further changes. -/
inductive Round (α : Type) where
  | leave (result : α)
  | again (change : α → α)

/-- A reading in rounds: one round, and further ones if that goes on. -/
def loop {α : Type} (round : Parse (Round α)) (further : Parse α) : Parse α := do
  match ← round with
  | .leave result => pure result
  | .again change => change <$> further

/-- One round of a block: a new line, or a statement, unless the block ends. -/
def blockRound (block : Parse Block) (arms : Parse Arms) : Parse (Round Block) := do
  let token ← peek
  match token.kind with
  | .dedent | .eof => pure (.leave [])
  | .newline => do
    let _ ← next
    pure (.again id)
  | _ => do
    let first ← statement block arms
    pure (.again (first :: ·))

/-- One round of the arms of an `if`: an `elif`, unless the arms end, perhaps with an `else`. -/
def armsRound (block : Parse Block) : Parse (Round Arms) := do
  newlines
  let token ← peek
  match token.kind with
  | .keyword .elif => do
    let _ ← next
    let test ← condition .elif
    let statements ← body block
    pure (.again (.elif test token.line statements))
  | .keyword .«else» => do
    let _ ← next
    let statements ← body block
    pure (.leave (.otherwise statements))
  | _ => pure (.leave .done)

/-- One round of skipping new lines. -/
def newlinesRound : Parse (Round Unit) := do
  let token ← peek
  if token.kind = .newline then do
    let _ ← next
    pure (.again id)
  else pure (.leave ())

/-- A block, without a bound. -/
def unboundedBlock : Parse Block := fun context tokens =>
  block (tokens.length + 1) context tokens

/-- The arms of an `if`, without a bound. -/
def unboundedArms : Parse Arms := fun context tokens =>
  arms (tokens.length + 1) context tokens

/-- A round that goes on leaves fewer tokens. -/
def Shrinks {α : Type} (round : Parse (Round α)) : Prop :=
  ∀ context tokens change rest, Reads round context tokens (.again change) rest →
    rest.length < tokens.length

/-- Two steps do the same as long as there are fewer tokens than the limit. -/
def AgreesBelow {α : Type} (limit : Nat) (first second : Parse α) : Prop :=
  ∀ context tokens, tokens.length < limit → first context tokens = second context tokens

variable {α β : Type} {context : ParseContext} {tokens rest : List Token} {limit bound : Nat}
  {block block' : Parse Block} {arms arms' : Parse Arms}

-- ════════════════════════════════════════════════════════════════════════
-- Readings in rounds
-- ════════════════════════════════════════════════════════════════════════

theorem map_id_eq (step : Parse α) : id <$> step = step := by
  funext context tokens
  rcases hreply : step context tokens with ⟨_ | _, _, _⟩
  · simp [Functor.map, Parse.bind, hreply]
  · simp [Functor.map, Parse.bind, Parse.pure, hreply]

theorem pure_bind_eq (value : α) (step : α → Parse β) : pure value >>= step = step value := by
  funext context tokens
  simp [bind, pure, Parse.bind, Parse.pure]

theorem bind_bind_eq {γ : Type} (first : Parse α) (second : α → Parse β) (third : β → Parse γ) :
    first >>= second >>= third = first >>= fun value => second value >>= third := by
  funext context tokens
  rcases hreply : first context tokens with ⟨_ | value, rest, _⟩
  · simp [bind, Parse.bind, hreply]
  · rcases hnext : second value context rest with ⟨_ | _, _, _⟩
    · simp [bind, Parse.bind, hreply, hnext]
    · simp [bind, Parse.bind, hreply, hnext]

instance : LawfulMonad Parse :=
  LawfulMonad.mk' Parse map_id_eq pure_bind_eq bind_bind_eq

theorem block_succ (bound : Nat) :
    Parse.block (bound + 1) =
      loop (blockRound (Parse.block bound) (Parse.arms bound)) (Parse.block bound) := by
  rw [Parse.block, loop, blockRound, bind_assoc]
  congr 1
  funext token
  cases token.kind <;> simp

theorem arms_succ (bound : Nat) :
    Parse.arms (bound + 1) = loop (armsRound (Parse.block bound)) (Parse.arms bound) := by
  rw [Parse.arms, loop, armsRound]
  simp only [bind_assoc]
  congr 1
  funext _
  congr 1
  funext token
  cases token.kind with
  | keyword reserved => cases reserved <;> simp
  | _ => simp

theorem newlines_eq_loop : newlines = loop newlinesRound newlines := by
  funext context tokens
  rcases tokens with _ | ⟨token, tokens⟩
  · rfl
  · by_cases hkind : token.kind = .newline
    · simp [newlines, loop, newlinesRound, bind, Parse.bind, peek, next, pure, Parse.pure, hkind]
    · simp [newlines, loop, newlinesRound, bind, Parse.bind, peek, pure, Parse.pure, hkind]

theorem program_eq_unboundedBlock :
    program = (do
      let statements ← unboundedBlock
      expect .eof .expectedStatement
      pure statements) :=
  rfl

-- ════════════════════════════════════════════════════════════════════════
-- Tokens that are left
-- ════════════════════════════════════════════════════════════════════════

theorem length_lt_of_reads_next {found value : α} {token : Token}
    (h : Reads (do let _ ← next; pure found) context (token :: tokens) value rest) :
    rest.length < (token :: tokens).length := by
  rw [reads_next_bind] at h
  obtain ⟨-, rfl⟩ := reads_pure.mp h
  exact Nat.lt_succ_self _

/-- A statement consumes at least one token. -/
theorem length_lt_of_reads_statement {found : Statement} (hblock : IsForward block)
    (harms : IsForward arms) (h : Reads (statement block arms) context tokens found rest) :
    rest.length < tokens.length := by
  have hsuffix : rest <:+ tokens.tail := h.2 ▸ rest_statement hblock harms
  cases tokens with
  | nil =>
    rw [statement, reads_next_bind] at h
    exact absurd h not_reads_fail
  | cons token tokens => exact Nat.lt_succ_of_le hsuffix.length_le

theorem shrinks_blockRound (hblock : IsForward block) (harms : IsForward arms) :
    Shrinks (blockRound block arms) := by
  intro context tokens change rest h
  have hstatement (h : Reads (do let first ← statement block arms; pure (.again (first :: ·)))
      context tokens (Round.again change) rest) : rest.length < tokens.length := by
    obtain ⟨first, middle, hreads, h⟩ := reads_bind.mp h
    obtain ⟨-, rfl⟩ := reads_pure.mp h
    exact length_lt_of_reads_statement hblock harms hreads
  rw [blockRound, reads_peek_bind] at h
  rcases tokens with _ | ⟨⟨kind, line⟩, tokens⟩
  · cases (reads_pure.mp h).1
  · cases kind with
    | dedent | eof => cases (reads_pure.mp h).1
    | newline => exact length_lt_of_reads_next h
    | _ => exact hstatement h

theorem shrinks_armsRound (hblock : IsForward block) : Shrinks (armsRound block) := by
  intro context tokens change rest h
  rw [armsRound, reads_newlines_bind, reads_peek_bind] at h
  have hdrop := (List.dropWhile_suffix (l := tokens) (·.kind = .newline)).length_le
  generalize tokens.dropWhile (·.kind = .newline) = ahead at h hdrop
  rcases ahead with _ | ⟨⟨kind, line⟩, ahead⟩
  · cases (reads_pure.mp h).1
  · cases kind with
    | keyword reserved =>
      cases reserved with
      | elif =>
        replace h := reads_next_bind.mp h
        obtain ⟨test, middle, htest, h⟩ := reads_bind.mp h
        obtain ⟨statements, behind, hbody, h⟩ := reads_bind.mp h
        obtain ⟨-, rfl⟩ := reads_pure.mp h
        have hmiddle := ((isForward_condition _).suffix_of_reads htest).length_le
        have hbehind := (hblock.body.suffix_of_reads hbody).length_le
        exact Nat.lt_of_lt_of_le (Nat.lt_succ_of_le (hbehind.trans hmiddle)) hdrop
      | «else» =>
        replace h := reads_next_bind.mp h
        obtain ⟨statements, behind, -, h⟩ := reads_bind.mp h
        cases (reads_pure.mp h).1
      | _ => cases (reads_pure.mp h).1
    | _ => cases (reads_pure.mp h).1

theorem shrinks_newlinesRound : Shrinks newlinesRound := by
  intro context tokens change rest h
  rw [newlinesRound, reads_peek_bind] at h
  rcases tokens with _ | ⟨token, tokens⟩
  · cases (reads_pure.mp h).1
  · split at h
    · exact length_lt_of_reads_next h
    · cases (reads_pure.mp h).1

/-- A body that is entered while a block is read has fewer tokens ahead than that block. -/
theorem Reaches.length_inner_lt {colonLine newlineLine indentLine : Nat} {inner : List Token}
    (h : Reaches context tokens .body bound
      (⟨.colon, colonLine⟩ :: ⟨.newline, newlineLine⟩ :: ⟨.indent, indentLine⟩ :: inner)) :
    inner.length < tokens.length := by
  have hlength := h.suffix.length_le
  simp only [List.length_cons] at hlength
  omega

/-- A block ends in front of a `dedent` or the end of the input. -/
theorem kind_behind_unboundedBlock {statements : Block}
    (h : Reads unboundedBlock context tokens statements rest) :
    rest <:+ tokens ∧
      ((firstToken context rest).kind = .dedent ∨ (firstToken context rest).kind = .eof) := by
  have hfollows : Follows (Parse.block (tokens.length + 1)) context tokens ⟨[], .statement false⟩
      ⟨[], .statement false⟩ (fun rest => (firstToken context rest).kind.closesBlock = true) :=
    (blockFollows_and_armsFollow context (tokens.length + 1)).1 (Nat.lt_succ_self _)
  obtain ⟨hsuffix, hcloses⟩ := hfollows.suffix h
  refine ⟨hsuffix, ?_⟩
  cases hkind : (firstToken context rest).kind with
  | dedent => exact .inl rfl
  | eof => exact .inr rfl
  | _ => simp [hkind, TokenKind.closesBlock] at hcloses

-- ════════════════════════════════════════════════════════════════════════
-- Bounds
-- ════════════════════════════════════════════════════════════════════════

theorem reads_peek {token : Token} :
    Reads peek context tokens token rest ↔ firstToken context tokens = token ∧ tokens = rest := by
  simp [Reads, peek]

theorem bind_congr_of_reads {first first' : Parse α} {second second' : α → Parse β}
    (hfirst : first context tokens = first' context tokens)
    (hsecond : ∀ value rest, Reads first context tokens value rest →
      second value context rest = second' value context rest) :
    (first >>= second) context tokens = (first' >>= second') context tokens := by
  cases hresult : (first context tokens).result with
  | error error => simp [bind, Parse.bind, ← hfirst, hresult]
  | ok value =>
    have hnext := hsecond value _ ⟨hresult, rfl⟩
    simp [bind, Parse.bind, ← hfirst, hresult, hnext]

namespace AgreesBelow

theorem refl (step : Parse α) : AgreesBelow limit step step :=
  fun _ _ _ => rfl

theorem bind {first first' : Parse α} {second second' : α → Parse β} (hforward : IsForward first)
    (hfirst : AgreesBelow limit first first')
    (hsecond : ∀ value, AgreesBelow limit (second value) (second' value)) :
    AgreesBelow limit (first >>= second) (first' >>= second') := by
  intro context tokens hlength
  apply bind_congr_of_reads (hfirst context tokens hlength)
  intro value rest hreads
  exact hsecond value context rest
    (Nat.lt_of_le_of_lt (hforward.suffix_of_reads hreads).length_le hlength)

/-- The same step in front of two that agree. -/
theorem bind_left {first : Parse α} {second second' : α → Parse β} (hforward : IsForward first)
    (hsecond : ∀ value, AgreesBelow limit (second value) (second' value)) :
    AgreesBelow limit (first >>= second) (first >>= second') :=
  (refl first).bind hforward hsecond

/-- The same step behind two that agree. -/
theorem bind_right {first first' : Parse α} {second : α → Parse β}
    (hfirst : AgreesBelow limit first first') :
    AgreesBelow limit (first >>= second) (first' >>= second) := by
  intro context tokens hlength
  exact bind_congr_of_reads (hfirst context tokens hlength) fun _ _ _ => rfl

theorem body (h : AgreesBelow limit block block') :
    AgreesBelow limit (Parse.body block) (Parse.body block') := by
  refine bind_left (isForward_expect _ _) fun _ => bind_left isForward_next fun token => ?_
  cases token.kind with
  | newline => exact bind_left (isForward_expect _ _) fun _ => h.bind_right
  | _ => exact refl _

/-- Headers agree together with their bodies. -/
theorem header {step : Parse α} {make : α → Block → β} (hstep : IsForward step)
    (h : AgreesBelow limit block block') :
    AgreesBelow limit
      (do let found ← step; let statements ← Parse.body block; pure (make found statements))
      (do let found ← step; let statements ← Parse.body block'; pure (make found statements)) :=
  bind_left hstep fun _ => h.body.bind_right

theorem next_bind_cons {second second' : Token → Parse β} {token : Token}
    (hlength : (token :: tokens).length < limit + 1)
    (hsecond : ∀ token, AgreesBelow limit (second token) (second' token)) :
    (next >>= second) context (token :: tokens) = (next >>= second') context (token :: tokens) := by
  apply bind_congr_of_reads rfl
  intro found rest hreads
  obtain ⟨rfl, rfl⟩ := reads_next.mp hreads
  exact hsecond token context tokens (Nat.lt_of_succ_lt_succ hlength)

/-- A token in front of steps that agree is one more token on which they agree. -/
theorem next_bind {second second' : Token → Parse β}
    (hnil : ∀ line, second (Token.endOfInput line) = second' (Token.endOfInput line))
    (hcons : ∀ token, AgreesBelow limit (second token) (second' token)) :
    AgreesBelow (limit + 1) (next >>= second) (next >>= second') := by
  intro context tokens hlength
  cases tokens with
  | nil =>
    apply bind_congr_of_reads rfl
    intro found rest hreads
    obtain ⟨rfl, rfl⟩ := reads_next.mp hreads
    exact congrFun₂ (hnil context.endLine) context []
  | cons token tokens => exact next_bind_cons hlength hcons

theorem statement (hblock : IsForward block) (h : AgreesBelow limit block block')
    (harms : AgreesBelow limit arms arms') :
    AgreesBelow (limit + 1) (Parse.statement block arms) (Parse.statement block' arms') := by
  apply next_bind
  · intro line
    rfl
  · rintro ⟨kind, line⟩
    cases kind with
    | keyword reserved =>
      cases reserved with
      | «do» => exact h.header isForward_count
      | «while» => exact h.header (isForward_condition _)
      | define => exact h.header (isForward_procedureName _)
      | «if» =>
        refine bind_left (isForward_condition _) fun test => ?_
        exact h.body.bind hblock.body fun statements => harms.bind_right
      | elif | «else» => exact refl _
    | _ => exact refl _

/-- Readings in rounds agree on one more token than what is read further. -/
theorem loop {round round' : Parse (Round α)} {further further' : Parse α}
    (hshrinks : Shrinks round) (hround : AgreesBelow (limit + 1) round round')
    (hfurther : AgreesBelow limit further further') :
    AgreesBelow (limit + 1) (Parse.loop round further) (Parse.loop round' further') := by
  intro context tokens hlength
  apply bind_congr_of_reads (hround context tokens hlength)
  rintro (result | change) rest hreads
  · rfl
  · have hrest : rest.length < limit :=
      Nat.lt_of_lt_of_le (hshrinks context tokens change rest hreads) (Nat.le_of_lt_succ hlength)
    exact bind_congr_of_reads (hfurther context rest hrest) fun _ _ _ => rfl

theorem blockRound (hblock : IsForward block) (h : AgreesBelow limit block block')
    (harms : AgreesBelow limit arms arms') :
    AgreesBelow (limit + 1) (Parse.blockRound block arms) (Parse.blockRound block' arms') := by
  refine bind_left isForward_peek fun token => ?_
  cases token.kind with
  | dedent | eof | newline => exact refl _
  | _ => exact (h.statement hblock harms).bind_right

theorem armsRound (h : AgreesBelow limit block block') :
    AgreesBelow (limit + 1) (Parse.armsRound block) (Parse.armsRound block') := by
  refine bind_left isForward_newlines fun _ => ?_
  intro context tokens hlength
  apply bind_congr_of_reads rfl
  intro token rest hreads
  obtain ⟨rfl, rfl⟩ := reads_peek.mp hreads
  rcases tokens with _ | ⟨⟨kind, line⟩, tokens⟩
  · rfl
  · cases kind with
    | keyword reserved =>
      cases reserved with
      | elif => exact next_bind_cons hlength fun _ => h.header (isForward_condition _)
      | «else» => exact next_bind_cons hlength fun _ => h.body.bind_right
      | _ => rfl
    | _ => rfl

end AgreesBelow

theorem isForward_unboundedBlock : IsForward unboundedBlock :=
  fun context tokens => (isForward_block_and_isForward_arms (tokens.length + 1)).1 context tokens

theorem isForward_unboundedArms : IsForward unboundedArms :=
  fun context tokens => (isForward_block_and_isForward_arms (tokens.length + 1)).2 context tokens

/-- Bounds above the number of tokens make no difference. -/
theorem agreesBelow_block_and_arms (limit : Nat) {bound bound' : Nat} (h : limit ≤ bound)
    (h' : limit ≤ bound') :
    AgreesBelow limit (Parse.block bound) (Parse.block bound') ∧
      AgreesBelow limit (Parse.arms bound) (Parse.arms bound') := by
  induction limit generalizing bound bound' with
  | zero =>
    constructor
    · intro context tokens hlength
      exact absurd hlength (Nat.not_lt_zero _)
    · intro context tokens hlength
      exact absurd hlength (Nat.not_lt_zero _)
  | succ limit ih =>
    obtain ⟨bound, rfl⟩ := Nat.exists_eq_succ_of_ne_zero (Nat.ne_zero_of_lt h)
    obtain ⟨bound', rfl⟩ := Nat.exists_eq_succ_of_ne_zero (Nat.ne_zero_of_lt h')
    obtain ⟨hblock, harms⟩ := ih (Nat.le_of_succ_le_succ h) (Nat.le_of_succ_le_succ h')
    obtain ⟨hforward, hforwardArms⟩ := isForward_block_and_isForward_arms bound
    have hshrinks := shrinks_blockRound hforward hforwardArms
    rw [block_succ, block_succ, arms_succ, arms_succ]
    exact ⟨(hblock.blockRound hforward harms).loop hshrinks hblock,
      hblock.armsRound.loop (shrinks_armsRound hforward) harms⟩

theorem agreesBelow_unbounded (limit : Nat) :
    AgreesBelow limit (Parse.block limit) unboundedBlock ∧
      AgreesBelow limit (Parse.arms limit) unboundedArms := by
  have hagrees {tokens : List Token} (hlength : tokens.length < limit) :=
    agreesBelow_block_and_arms (tokens.length + 1) hlength (Nat.le_refl _)
  constructor
  · exact fun context tokens hlength => (hagrees hlength).1 context tokens (Nat.lt_succ_self _)
  · exact fun context tokens hlength => (hagrees hlength).2 context tokens (Nat.lt_succ_self _)

theorem unboundedBlock_eq_loop :
    unboundedBlock = loop (blockRound unboundedBlock unboundedArms) unboundedBlock := by
  funext context tokens
  obtain ⟨hblock, harms⟩ := agreesBelow_unbounded tokens.length
  obtain ⟨hforward, hforwardArms⟩ := isForward_block_and_isForward_arms tokens.length
  have hshrinks := shrinks_blockRound hforward hforwardArms
  rw [unboundedBlock, block_succ]
  exact (hblock.blockRound hforward harms).loop hshrinks hblock context tokens (Nat.lt_succ_self _)

theorem unboundedArms_eq_loop :
    unboundedArms = loop (armsRound unboundedBlock) unboundedArms := by
  funext context tokens
  obtain ⟨hblock, harms⟩ := agreesBelow_unbounded tokens.length
  have hshrinks := shrinks_armsRound (isForward_block_and_isForward_arms tokens.length).1
  rw [unboundedArms, arms_succ]
  exact hblock.armsRound.loop hshrinks harms context tokens (Nat.lt_succ_self _)

/-- The loops and the recursion of the parser come to an end on any tokens in front of the end of
    the input. Blocks, arms and skipped new lines are read in rounds. Whenever a round goes on,
    whenever a statement is read, and whenever a body is entered inside a block, fewer of the tokens
    are left. A block ends in front of a `dedent` or the end of the input, which it leaves. -/
theorem rounds_and_bodies_shrink (context : ParseContext) (tokens : List Token) :
    (unboundedBlock = loop (blockRound unboundedBlock unboundedArms) unboundedBlock ∧
      unboundedArms = loop (armsRound unboundedBlock) unboundedArms ∧
      newlines = loop newlinesRound newlines ∧
      program = unboundedBlock >>= fun statements =>
        expect .eof .expectedStatement >>= fun _ => pure statements) ∧
    (∀ change rest, Reads (blockRound unboundedBlock unboundedArms) context tokens (.again change)
      rest → rest.length < tokens.length) ∧
    (∀ change rest, Reads (armsRound unboundedBlock) context tokens (.again change) rest →
      rest.length < tokens.length) ∧
    (∀ change rest, Reads newlinesRound context tokens (.again change) rest →
      rest.length < tokens.length) ∧
    (∀ found rest, Reads (statement unboundedBlock unboundedArms) context tokens found rest →
      rest.length < tokens.length) ∧
    (∀ bound colonLine newlineLine indentLine inner, Reaches context tokens .body bound
        (⟨.colon, colonLine⟩ :: ⟨.newline, newlineLine⟩ :: ⟨.indent, indentLine⟩ :: inner) →
      inner.length < tokens.length ∧
        Parse.block bound context inner = unboundedBlock context inner) ∧
    ∀ statements rest, Reads unboundedBlock context tokens statements rest → rest <:+ tokens ∧
      ((firstToken context rest).kind = .dedent ∨ (firstToken context rest).kind = .eof) := by
  refine ⟨⟨unboundedBlock_eq_loop, unboundedArms_eq_loop, newlines_eq_loop,
    program_eq_unboundedBlock⟩, ?_, ?_, ?_, ?_, ?_, ?_⟩
  · exact shrinks_blockRound isForward_unboundedBlock isForward_unboundedArms context tokens
  · exact shrinks_armsRound isForward_unboundedBlock context tokens
  · exact shrinks_newlinesRound context tokens
  · intro found rest
    exact length_lt_of_reads_statement isForward_unboundedBlock isForward_unboundedArms
  · intro bound colonLine newlineLine indentLine inner h
    exact ⟨h.length_inner_lt, (agreesBelow_unbounded bound).1 context inner h.inner.length_lt⟩
  · intro statements rest
    exact kind_behind_unboundedBlock

/-- In `do 2:` with the body `move`, that body is entered with three tokens ahead, reads two of them
    in one round, and stops at the third. -/
theorem rounds_and_bodies_shrink_in_repetition :
    let context : ParseContext := { capabilities := Capabilities.standard, endLine := 2 }
    let inner : List Token := [⟨.identifier "move", 1⟩, ⟨.newline, 1⟩, ⟨.dedent, 2⟩]
    let tokens : List Token := ⟨.keyword .«do», 0⟩ :: ⟨.number "2", 0⟩ :: ⟨.colon, 0⟩ ::
      ⟨.newline, 0⟩ :: ⟨.indent, 1⟩ :: inner
    inner.length < tokens.length ∧
      ∃ rest, (unboundedBlock context inner).rest = rest ∧ rest <:+ inner ∧
        ((firstToken context rest).kind = .dedent ∨ (firstToken context rest).kind = .eof) := by
  intro context inner tokens
  have hcount : Reads count context tokens.tail 2 (tokens.drop 2) :=
    reads_count.mpr ⟨"2", 0, rfl, by decide, by decide⟩
  have hcall : Reaches context tokens .statement tokens.length tokens :=
    Reaches.program.statement rfl (by decide)
  have hbody : Reaches context tokens .body tokens.length (tokens.drop 2) := hcall.doTimes hcount
  have hblock : Reads unboundedBlock context inner [.command (.command "move") 1]
      [⟨.dedent, 2⟩] := ⟨rfl, rfl⟩
  obtain ⟨-, -, -, -, -, hbodies, -⟩ := rounds_and_bodies_shrink context tokens
  obtain ⟨-, -, -, -, -, -, hends⟩ := rounds_and_bodies_shrink context inner
  exact ⟨(hbodies _ _ _ _ _ hbody).1, _, hblock.2, hends _ _ hblock⟩

end Karel.Parse
