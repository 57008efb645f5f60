import Karel.Proofs.Outline.Headings

/-!
# Printed trees are unambiguous

The printed form of a tree shows all there is to it: which statements stand in which block, their
names and counts, and their lines. Depths alone tell where a block ends, as what follows a block
stands at a lower depth. What follows an `if` at its own depth is another arm or another
statement, and their headings differ.

## Main definitions

- `Block.WellSorted` — trees in which commands run, conditions are tested, and `do` repeats
- `LeavesBlock`, `LeavesArms` — lines with which a block, or the arms of an `if`, cannot go on

## Main results

- `Block.eq_of_outline_append_eq` and its companions — a tree is known from its headings, and so is
  where it ends
- `treeText_unambiguous` — a tree is known from its printed form
-/

namespace Karel

mutual

/-- A statement whose callables are of the right sort, whichever robot offers them. -/
def Statement.WellSorted : Statement → Prop
  | .command callable _ => ∃ name, callable = .command name
  | .call _ _ => True
  | .doTimes callable _ body _ => callable = .repetition ∧ Block.WellSorted body
  | .ifElse callable body arms _ =>
    (∃ name, callable = .condition name) ∧ Block.WellSorted body ∧ arms.WellSorted
  | .whileDo callable body _ => (∃ name, callable = .condition name) ∧ Block.WellSorted body
  | .define _ body _ => Block.WellSorted body

/-- Arms under conditions, with well-sorted blocks. -/
def Arms.WellSorted : Arms → Prop
  | .done => True
  | .otherwise body => Block.WellSorted body
  | .elif callable _ body next =>
    (∃ name, callable = .condition name) ∧ Block.WellSorted body ∧ next.WellSorted

/-- A block of well-sorted statements. -/
def Block.WellSorted : List Statement → Prop
  | [] => True
  | statement :: rest => statement.WellSorted ∧ Block.WellSorted rest

end

section

variable {capabilities : Capabilities} {callable : Callable}

theorem Callable.IsCommandOf.exists_eq (h : callable.IsCommandOf capabilities) :
    ∃ name, callable = .command name := by
  cases callable with
  | command name => exact ⟨name, rfl⟩
  | condition name => exact h.elim
  | repetition => exact h.elim

theorem Callable.IsConditionOf.exists_eq (h : callable.IsConditionOf capabilities) :
    ∃ name, callable = .condition name := by
  cases callable with
  | command name => exact h.elim
  | condition name => exact ⟨name, rfl⟩
  | repetition => exact h.elim

mutual

theorem Statement.WellFormed.wellSorted : (statement : Statement) →
    statement.WellFormed capabilities → statement.WellSorted
  | .command _ _, h => h.exists_eq
  | .call _ _, _ => trivial
  | .doTimes _ _ body _, ⟨hcallable, _, _, hbody⟩ =>
    ⟨hcallable, Block.WellFormed.wellSorted body hbody⟩
  | .ifElse _ body arms _, ⟨hcallable, hbody, harms⟩ =>
    ⟨hcallable.exists_eq, Block.WellFormed.wellSorted body hbody,
      Arms.WellFormed.wellSorted arms harms⟩
  | .whileDo _ body _, ⟨hcallable, hbody⟩ =>
    ⟨hcallable.exists_eq, Block.WellFormed.wellSorted body hbody⟩
  | .define _ body _, ⟨_, hbody⟩ => Block.WellFormed.wellSorted body hbody

theorem Arms.WellFormed.wellSorted : (arms : Arms) →
    arms.WellFormed capabilities → arms.WellSorted
  | .done, _ => trivial
  | .otherwise body, hbody => Block.WellFormed.wellSorted body hbody
  | .elif _ _ body next, ⟨hcallable, hbody, hnext⟩ =>
    ⟨hcallable.exists_eq, Block.WellFormed.wellSorted body hbody,
      Arms.WellFormed.wellSorted next hnext⟩

/-- A tree that is bound to the capabilities of some robot is well sorted. -/
theorem Block.WellFormed.wellSorted : (block : List Statement) →
    Block.WellFormed capabilities block → Block.WellSorted block
  | [], _ => trivial
  | statement :: rest, ⟨hstatement, hrest⟩ =>
    ⟨Statement.WellFormed.wellSorted statement hstatement,
      Block.WellFormed.wellSorted rest hrest⟩

end

end

-- ════════════════════════════════════════════════════════════════════════
-- Ends of blocks
-- ════════════════════════════════════════════════════════════════════════

/-- The heading of an arm of an `if`. -/
def Heading.isArm : Heading → Bool
  | elif .. | otherwise => true
  | command .. | call .. | doTimes .. | ifElse .. | whileDo .. | define .. => false

namespace Statement

/-- The heading of a statement. -/
def heading : Statement → Heading
  | command callable line => .command callable.name line
  | call name line => .call name line
  | doTimes _ count _ line => .doTimes count line
  | ifElse callable _ _ line => .ifElse callable.name line
  | whileDo callable _ line => .whileDo callable.name line
  | define name _ line => .define name line

/-- The headings below the heading of a statement. -/
def inner (depth : Nat) : Statement → List (Nat × Heading)
  | command .. | call .. => []
  | doTimes _ _ body _ | whileDo _ body _ | define _ body _ => Block.outline (depth + 1) body
  | ifElse _ body arms _ => Block.outline (depth + 1) body ++ arms.outline depth

theorem outline_eq (statement : Statement) (depth : Nat) :
    statement.outline depth = (depth, statement.heading) :: statement.inner depth := by
  cases statement <;> rfl

theorem isArm_heading (statement : Statement) : statement.heading.isArm = false := by
  cases statement <;> rfl

end Statement

/-- Lines with which no block at a depth goes on: the first one stands at a lower depth. -/
def LeavesBlock (depth : Nat) (entries : List (Nat × Heading)) : Prop :=
  ∀ entry ∈ entries.head?, entry.1 < depth

/-- Lines with which no `if` at a depth goes on: the first one stands at a lower depth, or at this
    one and is no arm. -/
def LeavesArms (depth : Nat) (entries : List (Nat × Heading)) : Prop :=
  ∀ entry ∈ entries.head?, entry.1 < depth ∨ entry.1 = depth ∧ entry.2.isArm = false

variable {depth : Nat} {rest more : List (Nat × Heading)} {heading : Heading}

theorem LeavesBlock.ne_cons (h : LeavesBlock depth rest) (heading : Heading)
    (more : List (Nat × Heading)) : rest ≠ (depth, heading) :: more := by
  rintro rfl
  exact Nat.lt_irrefl depth (h _ rfl)

theorem LeavesArms.ne_cons (h : LeavesArms depth rest) (harm : heading.isArm = true)
    (more : List (Nat × Heading)) : rest ≠ (depth, heading) :: more := by
  rintro rfl
  rcases h _ rfl with hlt | ⟨-, hnot⟩
  · exact Nat.lt_irrefl depth hlt
  · rw [harm] at hnot
    cases hnot

theorem LeavesArms.leavesBlock (h : LeavesArms depth rest) : LeavesBlock (depth + 1) rest := by
  intro entry hmem
  rcases h entry hmem with hlt | ⟨heq, -⟩
  · omega
  · omega

theorem leavesBlock_arms (arms : Arms) (h : LeavesArms depth rest) :
    LeavesBlock (depth + 1) (arms.outline depth ++ rest) := by
  cases arms with
  | done => exact h.leavesBlock
  | otherwise body =>
    rintro entry ⟨⟩
    exact Nat.lt_succ_self depth
  | elif callable line body next =>
    rintro entry ⟨⟩
    exact Nat.lt_succ_self depth

theorem leavesArms_block (block : Block) (h : LeavesBlock depth rest) :
    LeavesArms depth (Block.outline depth block ++ rest) := by
  cases block with
  | nil => exact fun entry hmem => .inl (h entry hmem)
  | cons statement others =>
    rw [Block.outline, statement.outline_eq]
    rintro entry ⟨⟩
    exact .inr ⟨rfl, statement.isArm_heading⟩

-- ════════════════════════════════════════════════════════════════════════
-- Trees
-- ════════════════════════════════════════════════════════════════════════

theorem Statement.heading_eq_of_outline_append_eq {first second : Statement}
    (h : first.outline depth ++ rest = second.outline depth ++ more) :
    first.heading = second.heading ∧ first.inner depth ++ rest = second.inner depth ++ more := by
  rw [first.outline_eq, second.outline_eq] at h
  obtain ⟨hhead, hinner⟩ := List.cons.inj h
  exact ⟨(Prod.mk.inj hhead).2, hinner⟩

-- The induction is on the first tree. The headings decide its form, and then the parts of both
-- trees are compared from left to right, each with what follows it.
mutual

theorem Statement.eq_of_outline_append_eq {depth : Nat} {rest more : List (Nat × Heading)}
    (hrest : LeavesArms depth rest) (hmore : LeavesArms depth more) :
    (first : Statement) → (second : Statement) → first.WellSorted → second.WellSorted →
      first.outline depth ++ rest = second.outline depth ++ more → first = second ∧ rest = more
  | .command _ line, second, ⟨name, hname⟩, hsecond, h => by
    obtain ⟨hheading, hinner⟩ := Statement.heading_eq_of_outline_append_eq h
    cases second with
    | command callable other =>
      obtain ⟨other, rfl⟩ := hsecond
      subst hname
      obtain ⟨rfl, rfl⟩ := Heading.command.inj hheading
      exact ⟨rfl, hinner⟩
    | _ => cases hheading
  | .call name line, second, _, _, h => by
    obtain ⟨hheading, hinner⟩ := Statement.heading_eq_of_outline_append_eq h
    cases second with
    | call other =>
      obtain ⟨rfl, rfl⟩ := Heading.call.inj hheading
      exact ⟨rfl, hinner⟩
    | _ => cases hheading
  | .doTimes _ count body line, second, ⟨hcallable, hbody⟩, hsecond, h => by
    obtain ⟨hheading, hinner⟩ := Statement.heading_eq_of_outline_append_eq h
    cases second with
    | doTimes callable other otherBody =>
      obtain ⟨rfl, hother⟩ := hsecond
      subst hcallable
      obtain ⟨rfl, rfl⟩ := Heading.doTimes.inj hheading
      obtain ⟨rfl, rfl⟩ := Block.eq_of_outline_append_eq hrest.leavesBlock hmore.leavesBlock
        body otherBody hbody hother hinner
      exact ⟨rfl, rfl⟩
    | _ => cases hheading
  | .ifElse _ body arms line, second, ⟨⟨name, hname⟩, hbody, harms⟩, hsecond, h => by
    obtain ⟨hheading, hinner⟩ := Statement.heading_eq_of_outline_append_eq h
    cases second with
    | ifElse callable otherBody otherArms =>
      -- the body is followed by the arms, and those by the other lines
      obtain ⟨⟨other, rfl⟩, hother, hothers⟩ := hsecond
      subst hname
      obtain ⟨rfl, rfl⟩ := Heading.ifElse.inj hheading
      rw [Statement.inner, Statement.inner, List.append_assoc, List.append_assoc] at hinner
      obtain ⟨rfl, htail⟩ := Block.eq_of_outline_append_eq (leavesBlock_arms arms hrest)
        (leavesBlock_arms otherArms hmore) body otherBody hbody hother hinner
      obtain ⟨rfl, rfl⟩ :=
        Arms.eq_of_outline_append_eq hrest hmore arms otherArms harms hothers htail
      exact ⟨rfl, rfl⟩
    | _ => cases hheading
  | .whileDo _ body line, second, ⟨⟨name, hname⟩, hbody⟩, hsecond, h => by
    obtain ⟨hheading, hinner⟩ := Statement.heading_eq_of_outline_append_eq h
    cases second with
    | whileDo callable otherBody =>
      obtain ⟨⟨other, rfl⟩, hother⟩ := hsecond
      subst hname
      obtain ⟨rfl, rfl⟩ := Heading.whileDo.inj hheading
      obtain ⟨rfl, rfl⟩ := Block.eq_of_outline_append_eq hrest.leavesBlock hmore.leavesBlock
        body otherBody hbody hother hinner
      exact ⟨rfl, rfl⟩
    | _ => cases hheading
  | .define name body line, second, hbody, hsecond, h => by
    obtain ⟨hheading, hinner⟩ := Statement.heading_eq_of_outline_append_eq h
    cases second with
    | define other otherBody =>
      obtain ⟨rfl, rfl⟩ := Heading.define.inj hheading
      obtain ⟨rfl, rfl⟩ := Block.eq_of_outline_append_eq hrest.leavesBlock hmore.leavesBlock
        body otherBody hbody hsecond hinner
      exact ⟨rfl, rfl⟩
    | _ => cases hheading

theorem Arms.eq_of_outline_append_eq {depth : Nat} {rest more : List (Nat × Heading)}
    (hrest : LeavesArms depth rest) (hmore : LeavesArms depth more) :
    (first : Arms) → (second : Arms) → first.WellSorted → second.WellSorted →
      first.outline depth ++ rest = second.outline depth ++ more → first = second ∧ rest = more
  | .done, second, _, _, h => by
    cases second with
    | done => exact ⟨rfl, h⟩
    | otherwise body => exact absurd h (hrest.ne_cons rfl _)
    | elif callable line body next => exact absurd h (hrest.ne_cons rfl _)
  | .otherwise body, second, hbody, hsecond, h => by
    cases second with
    | done => exact absurd h.symm (hmore.ne_cons rfl _)
    | otherwise otherBody =>
      obtain ⟨-, htail⟩ := List.cons.inj h
      obtain ⟨rfl, rfl⟩ := Block.eq_of_outline_append_eq hrest.leavesBlock hmore.leavesBlock
        body otherBody hbody hsecond htail
      exact ⟨rfl, rfl⟩
    | elif callable line otherBody next => cases (List.cons.inj h).1
  | .elif _ line body next, second, ⟨⟨name, hname⟩, hbody, hnext⟩, hsecond, h => by
    cases second with
    | done => exact absurd h.symm (hmore.ne_cons rfl _)
    | otherwise otherBody => cases (List.cons.inj h).1
    | elif callable other otherBody otherNext =>
      obtain ⟨⟨otherName, rfl⟩, hother, hothers⟩ := hsecond
      subst hname
      rw [Arms.outline, Arms.outline, List.cons_append, List.cons_append, List.append_assoc,
        List.append_assoc] at h
      obtain ⟨hhead, htail⟩ := List.cons.inj h
      obtain ⟨rfl, rfl⟩ := Heading.elif.inj (Prod.mk.inj hhead).2
      obtain ⟨rfl, hends⟩ := Block.eq_of_outline_append_eq (leavesBlock_arms next hrest)
        (leavesBlock_arms otherNext hmore) body otherBody hbody hother htail
      obtain ⟨rfl, rfl⟩ :=
        Arms.eq_of_outline_append_eq hrest hmore next otherNext hnext hothers hends
      exact ⟨rfl, rfl⟩

/-- A block and the lines behind it are known from the lines of both. -/
theorem Block.eq_of_outline_append_eq {depth : Nat} {rest more : List (Nat × Heading)}
    (hrest : LeavesBlock depth rest) (hmore : LeavesBlock depth more) :
    (first : List Statement) → (second : List Statement) →
      Block.WellSorted first → Block.WellSorted second →
      Block.outline depth first ++ rest = Block.outline depth second ++ more →
        first = second ∧ rest = more
  | [], second, _, _, h => by
    cases second with
    | nil => exact ⟨rfl, h⟩
    | cons statement others =>
      rw [Block.outline, Block.outline, statement.outline_eq] at h
      exact absurd h (hrest.ne_cons _ _)
  | statement :: others, second, ⟨hstatement, hothers⟩, hsecond, h => by
    cases second with
    | nil =>
      rw [Block.outline, Block.outline, statement.outline_eq] at h
      exact absurd h.symm (hmore.ne_cons _ _)
    | cons otherStatement otherOthers =>
      obtain ⟨hother, hmoreOthers⟩ := hsecond
      rw [Block.outline, Block.outline, List.append_assoc, List.append_assoc] at h
      obtain ⟨rfl, htail⟩ := Statement.eq_of_outline_append_eq (leavesArms_block others hrest)
        (leavesArms_block otherOthers hmore) statement otherStatement hstatement hother h
      obtain ⟨rfl, rfl⟩ :=
        Block.eq_of_outline_append_eq hrest hmore others otherOthers hothers hmoreOthers htail
      exact ⟨rfl, rfl⟩

end

/-- A well-sorted tree whose names are identifiers is known from its printed form. -/
theorem Block.eq_of_treeText_eq {first second : Block} (hfirst : Block.WellSorted first)
    (hsecond : Block.WellSorted second) (hnames : ∀ name ∈ Block.names first, IsIdentifier name)
    (hothers : ∀ name ∈ Block.names second, IsIdentifier name)
    (h : Block.treeText first = Block.treeText second) : first = second := by
  have houtline := Block.outline_eq_of_treeText_eq hnames hothers h
  have hends : LeavesBlock 0 [] := by
    rintro entry ⟨⟩
  rw [← List.append_nil (Block.outline 0 first), ← List.append_nil (Block.outline 0 second)]
    at houtline
  exact (Block.eq_of_outline_append_eq hends hends first second hfirst hsecond houtline).1

/-- Well-sorted trees whose names are identifiers are equal if they are printed alike, up to their
    lines and counts. So are the trees of any two source texts, read against any two robots. -/
theorem treeText_unambiguous :
    (∀ first second : Block, Block.WellSorted first → Block.WellSorted second →
      (∀ name ∈ Block.names first, IsIdentifier name) →
      (∀ name ∈ Block.names second, IsIdentifier name) →
      Block.treeText first = Block.treeText second → first = second) ∧
    ∀ (capabilities others : Capabilities) (source other : String) (first second : Block),
      parseProgram capabilities source = .ok first → parseProgram others other = .ok second →
      Block.treeText first = Block.treeText second → first = second := by
  constructor
  · intro first second hfirst hsecond hnames hothers
    exact Block.eq_of_treeText_eq hfirst hsecond hnames hothers
  · intro capabilities others source other first second hfirst hsecond
    obtain ⟨hfirst, hnames⟩ := wellFormed_of_parseProgram hfirst
    obtain ⟨hsecond, hothers⟩ := wellFormed_of_parseProgram hsecond
    exact Block.eq_of_treeText_eq (Block.WellFormed.wellSorted first hfirst)
      (Block.WellFormed.wellSorted second hsecond) hnames hothers

/-- Two source texts that lay out the same program differently. -/
theorem treeText_unambiguous_two_layouts :
    ∃ first second : Block,
      parseProgram Capabilities.standard
        "do 2:\n  if facing_east:\n    go\n  else:\n    move" = .ok first ∧
      parseProgram Capabilities.standard
        "do 002:\n\tif facing_east:\n\t\tgo # on\n\telse:\n\t\tmove\n\n" = .ok second ∧
      Block.WellSorted first ∧ Block.WellSorted second ∧
      (∀ name ∈ ["facing_east", "go", "move"], IsIdentifier name) ∧
      Block.treeText first = Block.treeText second ∧ first = second := by
  have hsource : parseProgram Capabilities.standard
      "do 2:\n  if facing_east:\n    go\n  else:\n    move" =
        .ok [.doTimes .repetition 2 [.ifElse (.condition "facing_east") [.call "go" 2]
          (.otherwise [.command (.command "move") 4]) 1] 0] := rfl
  have hother : parseProgram Capabilities.standard
      "do 002:\n\tif facing_east:\n\t\tgo # on\n\telse:\n\t\tmove\n\n" =
        .ok [.doTimes .repetition 2 [.ifElse (.condition "facing_east") [.call "go" 2]
          (.otherwise [.command (.command "move") 4]) 1] 0] := rfl
  have hwell := wellFormed_of_parseProgram hsource
  have hsorted := Block.WellFormed.wellSorted _ hwell.1
  refine ⟨_, _, hsource, hother, hsorted, hsorted, hwell.2, rfl, ?_⟩
  exact treeText_unambiguous.1 _ _ hsorted hsorted hwell.2 hwell.2 rfl

end Karel
