import Karel.Proofs.SourceText.Headers
import Karel.WellFormed

/-!
# Line numbers of a program text

Renumbering a tree changes its line numbers and nothing else, and the new ones are the lines of its
program text: from top to bottom, the lines that are neither an `else:` nor a lone semicolon are
the statements and the `elif` arms in source order.

## Main definitions

- `Block.withoutLines` — a tree with all line numbers zero
- `Block.numbered` — the headers of the statements and `elif` arms of a tree, with their lines

## Main results

- `Block.withoutLines_renumber` — renumbering keeps everything but the line numbers
- `Block.numbered_renumber` — a renumbered tree has the line numbers of its program text
- `Block.isHeader_of_mem_code` — each line of a program text is a header
-/

namespace Karel

mutual

/-- A statement with all line numbers zero. -/
def Statement.withoutLines : Statement → Statement
  | .command callable _ => .command callable 0
  | .call name _ => .call name 0
  | .doTimes callable count body _ => .doTimes callable count (Block.withoutLines body) 0
  | .ifElse callable body arms _ =>
    .ifElse callable (Block.withoutLines body) arms.withoutLines 0
  | .whileDo callable body _ => .whileDo callable (Block.withoutLines body) 0
  | .define name body _ => .define name (Block.withoutLines body) 0

/-- The arms of an `if` with all line numbers zero. -/
def Arms.withoutLines : Arms → Arms
  | .done => .done
  | .otherwise body => .otherwise (Block.withoutLines body)
  | .elif callable _ body next =>
    .elif callable 0 (Block.withoutLines body) next.withoutLines

/-- A block with all line numbers zero. -/
def Block.withoutLines : List Statement → List Statement
  | [] => []
  | statement :: rest => statement.withoutLines :: Block.withoutLines rest

end

mutual

/-- A statement at a depth and what is inside it, each statement and each `elif` with its depth,
    its header and its line. -/
def Statement.numbered (depth : Nat) : Statement → List ((Nat × String) × Nat)
  | .command callable line => [((depth, callable.name), line)]
  | .call name line => [((depth, name), line)]
  | .doTimes _ count body line =>
    ((depth, s!"do {count}:"), line) :: Block.numbered (depth + 1) body
  | .ifElse callable body arms line =>
    ((depth, s!"if {callable.name}:"), line)
      :: (Block.numbered (depth + 1) body ++ arms.numbered depth)
  | .whileDo callable body line =>
    ((depth, s!"while {callable.name}:"), line) :: Block.numbered (depth + 1) body
  | .define name body line =>
    ((depth, s!"define {name}:"), line) :: Block.numbered (depth + 1) body

/-- The `elif` arms at a depth and what is inside the arms. A tree has no line for an `else`. -/
def Arms.numbered (depth : Nat) : Arms → List ((Nat × String) × Nat)
  | .done => []
  | .otherwise body => Block.numbered (depth + 1) body
  | .elif callable line body next =>
    ((depth, s!"elif {callable.name}:"), line)
      :: (Block.numbered (depth + 1) body ++ next.numbered depth)

/-- The statements of a block at a depth and what is inside them. -/
def Block.numbered (depth : Nat) : List Statement → List ((Nat × String) × Nat)
  | [] => []
  | statement :: rest => statement.numbered depth ++ Block.numbered depth rest

end

-- ════════════════════════════════════════════════════════════════════════
-- Renumbering
-- ════════════════════════════════════════════════════════════════════════

mutual

theorem Statement.withoutLines_renumber (line : Nat) :
    (statement : Statement) → (statement.renumber line).withoutLines = statement.withoutLines
  | .command _ _ | .call _ _ => rfl
  | .doTimes _ _ body _ | .whileDo _ body _ | .define _ body _ => by
    simp only [Statement.renumber, Statement.withoutLines,
      Block.withoutLines_renumber (line + 1) body]
  | .ifElse _ body arms _ => by
    simp only [Statement.renumber, Statement.withoutLines,
      Block.withoutLines_renumber (line + 1) body, Arms.withoutLines_renumber _ arms]

theorem Arms.withoutLines_renumber (line : Nat) :
    (arms : Arms) → (arms.renumber line).withoutLines = arms.withoutLines
  | .done => rfl
  | .otherwise body => by
    simp only [Arms.renumber, Arms.withoutLines, Block.withoutLines_renumber (line + 1) body]
  | .elif _ _ body next => by
    simp only [Arms.renumber, Arms.withoutLines, Block.withoutLines_renumber (line + 1) body,
      Arms.withoutLines_renumber _ next]

/-- Renumbering a tree changes nothing but its line numbers. -/
theorem Block.withoutLines_renumber (line : Nat) :
    (block : List Statement) →
      Block.withoutLines (Block.renumber line block) = Block.withoutLines block
  | [] => rfl
  | statement :: rest => by
    simp only [Block.renumber, Block.withoutLines, Statement.withoutLines_renumber line statement,
      Block.withoutLines_renumber _ rest]

end

mutual

theorem Statement.length_code (depth other : Nat) :
    (statement : Statement) → (statement.code depth).length = (statement.code other).length
  | .command _ _ | .call _ _ => rfl
  | .doTimes _ _ body _ | .whileDo _ body _ | .define _ body _ => by
    simp only [Statement.code, List.length_cons,
      Block.length_innerCode (depth + 1) (other + 1) body]
  | .ifElse _ body arms _ => by
    simp only [Statement.code, List.length_cons, List.length_append,
      Block.length_innerCode (depth + 1) (other + 1) body, Arms.length_code depth other arms]

theorem Arms.length_code (depth other : Nat) :
    (arms : Arms) → (arms.code depth).length = (arms.code other).length
  | .done => rfl
  | .otherwise body => by
    simp only [Arms.code, List.length_cons, Block.length_innerCode (depth + 1) (other + 1) body]
  | .elif _ _ body next => by
    simp only [Arms.code, List.length_cons, List.length_append,
      Block.length_innerCode (depth + 1) (other + 1) body, Arms.length_code depth other next]

/-- A block inside a statement has as many lines at one depth as at another. -/
theorem Block.length_innerCode (depth other : Nat) :
    (block : List Statement) →
      (Block.innerCode depth block).length = (Block.innerCode other block).length
  | [] => rfl
  | statement :: rest => by
    simp only [Block.innerCode, List.length_append, Statement.length_code depth other statement,
      Block.length_code depth other rest]

theorem Block.length_code (depth other : Nat) :
    (block : List Statement) →
      (Block.code depth block).length = (Block.code other block).length
  | [] => rfl
  | statement :: rest => by
    simp only [Block.code, List.length_append, Statement.length_code depth other statement,
      Block.length_code depth other rest]

end

-- ════════════════════════════════════════════════════════════════════════
-- The lines of a well-formed tree
-- ════════════════════════════════════════════════════════════════════════

variable {capabilities : Capabilities}

theorem Callable.isName_of_isCommandOf {callable : Callable}
    (h : callable.IsCommandOf capabilities) : isName callable.name = true := by
  cases callable with
  | command name => exact capabilities.isName_of_mem_commands name h
  | condition name | repetition => exact h.elim

theorem Callable.isName_of_isConditionOf {callable : Callable}
    (h : callable.IsConditionOf capabilities) : isName callable.name = true := by
  cases callable with
  | condition name => exact capabilities.isName_of_mem_conditions name h
  | command name | repetition => exact h.elim

/-- The text of a well-formed statement begins with a header. -/
theorem Statement.exists_code_eq {statement : Statement} (depth : Nat)
    (h : statement.WellFormed capabilities) :
    ∃ text kinds entries, statement.code depth = (depth, text) :: entries ∧
      IsHeader text kinds := by
  cases statement with
  | command callable line =>
    exact ⟨_, _, _, rfl, isHeader_name (Callable.isName_of_isCommandOf h)⟩
  | call name line => exact ⟨_, _, _, rfl, isHeader_name h.1⟩
  | doTimes callable count body line =>
    exact ⟨_, _, _, Statement.code_doTimes, isHeader_keyword _ (isHeader_repr count)⟩
  | ifElse callable body arms line =>
    have hname := isHeader_name (Callable.isName_of_isConditionOf h.1)
    exact ⟨_, _, _, Statement.code_ifElse, isHeader_keyword _ hname⟩
  | whileDo callable body line =>
    have hname := isHeader_name (Callable.isName_of_isConditionOf h.1)
    exact ⟨_, _, _, Statement.code_whileDo, isHeader_keyword _ hname⟩
  | define name body line =>
    exact ⟨_, _, _, Statement.code_define, isHeader_keyword _ (isHeader_name h.1)⟩

theorem Block.exists_innerCode_eq {block : Block} (depth : Nat)
    (h : Block.WellFormed capabilities block) :
    ∃ text kinds entries, Block.innerCode depth block = (depth, text) :: entries ∧
      IsHeader text kinds := by
  cases block with
  | nil => exact ⟨_, _, _, rfl, isHeader_semicolon⟩
  | cons statement rest =>
    obtain ⟨text, kinds, entries, hcode, hheader⟩ := Statement.exists_code_eq depth h.1
    refine ⟨text, kinds, entries ++ Block.code depth rest, ?_, hheader⟩
    rw [Block.innerCode, hcode, List.cons_append]

theorem Block.isHeader_of_mem_innerCode {block : Block} {depth : Nat}
    (h : ∀ entry ∈ Block.code depth block, ∃ kinds, IsHeader entry.2 kinds) :
    ∀ entry ∈ Block.innerCode depth block, ∃ kinds, IsHeader entry.2 kinds := by
  cases block with
  | nil =>
    intro entry hmem
    obtain rfl := List.mem_singleton.mp hmem
    exact ⟨_, isHeader_semicolon⟩
  | cons statement rest => exact h

mutual

theorem Statement.isHeader_of_mem_code (depth : Nat) :
    (statement : Statement) → statement.WellFormed capabilities →
      ∀ entry ∈ statement.code depth, ∃ kinds, IsHeader entry.2 kinds
  | .command callable _, h => by
    have hname := isHeader_name (Callable.isName_of_isCommandOf h)
    exact List.forall_mem_singleton.mpr ⟨_, hname⟩
  | .call name _, h => List.forall_mem_singleton.mpr ⟨_, isHeader_name h.1⟩
  | .doTimes _ count body _, h => by
    have hbody := Block.isHeader_of_mem_code (depth + 1) body h.2.2.2
    rw [Statement.code_doTimes, List.forall_mem_cons]
    exact ⟨⟨_, isHeader_keyword _ (isHeader_repr count)⟩, Block.isHeader_of_mem_innerCode hbody⟩
  | .ifElse callable body arms _, h => by
    have hname := isHeader_name (Callable.isName_of_isConditionOf h.1)
    have hbody := Block.isHeader_of_mem_code (depth + 1) body h.2.1
    have harms := Arms.isHeader_of_mem_code depth arms h.2.2
    rw [Statement.code_ifElse, List.forall_mem_cons, List.forall_mem_append]
    exact ⟨⟨_, isHeader_keyword _ hname⟩, Block.isHeader_of_mem_innerCode hbody, harms⟩
  | .whileDo callable body _, h => by
    have hname := isHeader_name (Callable.isName_of_isConditionOf h.1)
    have hbody := Block.isHeader_of_mem_code (depth + 1) body h.2
    rw [Statement.code_whileDo, List.forall_mem_cons]
    exact ⟨⟨_, isHeader_keyword _ hname⟩, Block.isHeader_of_mem_innerCode hbody⟩
  | .define name body _, h => by
    have hbody := Block.isHeader_of_mem_code (depth + 1) body h.2
    rw [Statement.code_define, List.forall_mem_cons]
    exact ⟨⟨_, isHeader_keyword _ (isHeader_name h.1)⟩, Block.isHeader_of_mem_innerCode hbody⟩

theorem Arms.isHeader_of_mem_code (depth : Nat) :
    (arms : Arms) → arms.WellFormed capabilities →
      ∀ entry ∈ arms.code depth, ∃ kinds, IsHeader entry.2 kinds
  | .done, _ => fun _ hmem => absurd hmem List.not_mem_nil
  | .otherwise body, h => by
    have hbody := Block.isHeader_of_mem_code (depth + 1) body h
    rw [Arms.code, List.forall_mem_cons]
    exact ⟨⟨_, isHeader_else⟩, Block.isHeader_of_mem_innerCode hbody⟩
  | .elif callable _ body next, h => by
    have hname := isHeader_name (Callable.isName_of_isConditionOf h.1)
    have hbody := Block.isHeader_of_mem_code (depth + 1) body h.2.1
    have hnext := Arms.isHeader_of_mem_code depth next h.2.2
    rw [Arms.code_elif, List.forall_mem_cons, List.forall_mem_append]
    exact ⟨⟨_, isHeader_keyword _ hname⟩, Block.isHeader_of_mem_innerCode hbody, hnext⟩

/-- Each line of the text of a well-formed block is a header. -/
theorem Block.isHeader_of_mem_code (depth : Nat) :
    (block : List Statement) → Block.WellFormed capabilities block →
      ∀ entry ∈ Block.code depth block, ∃ kinds, IsHeader entry.2 kinds
  | [], _ => fun _ hmem => absurd hmem List.not_mem_nil
  | statement :: rest, h => by
    have hfirst := Statement.isHeader_of_mem_code depth statement h.1
    have hrest := Block.isHeader_of_mem_code depth rest h.2
    rw [Block.code, List.forall_mem_append]
    exact ⟨hfirst, hrest⟩

end

/-- The texts of the lines that hold no statement and no `elif`. -/
def isFiller (text : String) : Bool :=
  text = "else:" ∨ text = ";"

/-- A name is no filler, as it is a word. -/
theorem isFiller_of_isName {name : String} (h : isName name = true) : isFiller name = false := by
  have helse : name ≠ "else:" := by
    rintro rfl
    revert h
    decide
  have hsemicolon : name ≠ ";" := by
    rintro rfl
    revert h
    decide
  simp [isFiller, helse, hsemicolon]

/-- A header that begins with another reserved word than `else` is no filler. -/
theorem isFiller_of_keyword {reserved : Keyword} (h : reserved ≠ .«else») (text : String) :
    isFiller (reserved.header text) = false := by
  have helse : reserved.header text ≠ "else:" := by
    intro heq
    have hlist := congrArg String.toList heq
    cases reserved <;> simp [Keyword.header, Keyword.text] at hlist h
  have hsemicolon : reserved.header text ≠ ";" := by
    intro heq
    have hlist := congrArg String.toList heq
    cases reserved <;> simp [Keyword.header, Keyword.text] at hlist
  simp [isFiller, helse, hsemicolon]

/-- The lines of a text that hold a statement or an `elif`, with their indices. -/
def headerLines (entries : List (Nat × String)) (line : Nat) : List ((Nat × String) × Nat) :=
  (entries.zipIdx line).filter fun entry => !isFiller entry.1.2

theorem headerLines_cons {text : String} (h : isFiller text = false) (depth line : Nat)
    (entries : List (Nat × String)) :
    headerLines ((depth, text) :: entries) line =
      ((depth, text), line) :: headerLines entries (line + 1) := by
  rw [headerLines, List.zipIdx_cons, List.filter_cons_of_pos (by simp [h])]
  rfl

theorem headerLines_header {reserved : Keyword} (h : reserved ≠ .«else») (text : String)
    (depth line : Nat) (entries : List (Nat × String)) :
    headerLines ((depth, reserved.header text) :: entries) line =
      ((depth, reserved.header text), line) :: headerLines entries (line + 1) :=
  headerLines_cons (isFiller_of_keyword h text) depth line entries

theorem headerLines_append (first second : List (Nat × String)) (line : Nat) :
    headerLines (first ++ second) line =
      headerLines first line ++ headerLines second (line + first.length) := by
  rw [headerLines, List.zipIdx_append, List.filter_append]
  rfl

theorem headerLines_cons_filler {text : String} (h : isFiller text = true) (depth line : Nat)
    (entries : List (Nat × String)) :
    headerLines ((depth, text) :: entries) line = headerLines entries (line + 1) := by
  rw [headerLines, List.zipIdx_cons, List.filter_cons_of_neg (by simp [h])]
  rfl

/-- The semicolon of an empty block does not count, so a block inside a statement is numbered as
    it is anywhere. -/
theorem Block.headerLines_innerCode (depth line : Nat) (block : List Statement) :
    headerLines (Block.innerCode depth block) line = headerLines (Block.code depth block) line := by
  cases block with
  | nil => exact headerLines_cons_filler (by decide) depth line []
  | cons statement rest => rfl

mutual

theorem Statement.numbered_renumber (depth line : Nat) :
    (statement : Statement) → statement.WellFormed capabilities →
      (statement.renumber line).numbered depth = headerLines (statement.code depth) line
  | .command callable _, h => by
    have hname := isFiller_of_isName (Callable.isName_of_isCommandOf h)
    exact (headerLines_cons hname depth line []).symm
  | .call name _, h => (headerLines_cons (isFiller_of_isName h.1) depth line []).symm
  | .doTimes _ count body _, h => by
    have hbody := Block.numbered_renumber (depth + 1) (line + 1) body h.2.2.2
    rw [Statement.code_doTimes, headerLines_header (by decide), Block.headerLines_innerCode, ← hbody]
    rfl
  | .ifElse callable body arms _, h => by
    have hbody := Block.numbered_renumber (depth + 1) (line + 1) body h.2.1
    -- the arms begin behind the header and the block, which is as long at any depth
    have harms := Arms.numbered_renumber depth (line + 1 + (Block.innerCode 0 body).length) arms
      h.2.2
    rw [Statement.code_ifElse, headerLines_header (by decide), headerLines_append,
      Block.headerLines_innerCode, ← hbody, Block.length_innerCode (depth + 1) 0, ← harms]
    rfl
  | .whileDo callable body _, h => by
    have hbody := Block.numbered_renumber (depth + 1) (line + 1) body h.2
    rw [Statement.code_whileDo, headerLines_header (by decide), Block.headerLines_innerCode, ← hbody]
    rfl
  | .define name body _, h => by
    have hbody := Block.numbered_renumber (depth + 1) (line + 1) body h.2
    rw [Statement.code_define, headerLines_header (by decide), Block.headerLines_innerCode, ← hbody]
    rfl

theorem Arms.numbered_renumber (depth line : Nat) :
    (arms : Arms) → arms.WellFormed capabilities →
      (arms.renumber line).numbered depth = headerLines (arms.code depth) line
  | .done, _ => rfl
  | .otherwise body, h => by
    have hbody := Block.numbered_renumber (depth + 1) (line + 1) body h
    rw [Arms.code, headerLines_cons_filler (by decide), Block.headerLines_innerCode, ← hbody]
    rfl
  | .elif callable _ body next, h => by
    have hbody := Block.numbered_renumber (depth + 1) (line + 1) body h.2.1
    have hnext := Arms.numbered_renumber depth (line + 1 + (Block.innerCode 0 body).length) next
      h.2.2
    rw [Arms.code_elif, headerLines_header (by decide), headerLines_append,
      Block.headerLines_innerCode, ← hbody, Block.length_innerCode (depth + 1) 0, ← hnext]
    rfl

/-- The statements and `elif` arms of a renumbered tree are the lines of its program text that hold
    one, with their indices. -/
theorem Block.numbered_renumber (depth line : Nat) :
    (block : List Statement) → Block.WellFormed capabilities block →
      Block.numbered depth (Block.renumber line block) = headerLines (Block.code depth block) line
  | [], _ => rfl
  | statement :: rest, h => by
    have hfirst := Statement.numbered_renumber depth line statement h.1
    have hrest := Block.numbered_renumber depth (line + (statement.code 0).length) rest h.2
    rw [Block.code, headerLines_append, ← hfirst, Statement.length_code depth 0, ← hrest]
    rfl

end

end Karel
