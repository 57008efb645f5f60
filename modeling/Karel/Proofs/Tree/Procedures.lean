import Mathlib.Data.List.Lex
import Karel.Proofs.Tree.Addresses
import Karel.Proofs.Tree.StartLines

/-!
# Procedures of a tree

Which declaration of a procedure holds, and which calls have none. Both are told by addresses in the
tree, whatever the tree is and whoever made it: a declaration counts wherever it stands, and of
several declarations of one name the last one holds.

## Main definitions

- `Block.IsLastDeclaration` — the declaration of a name behind which there is no other

## Main results

- `Block.mem_definitions_iff` — the procedures that hold
- `undefinedCalls_declared_nowhere` — the calls without a declaration
- `definitions_are_last_declarations` — the declarations that hold, by address and by line
-/

namespace Karel

theorem Statement.procedure?_eq_some_iff {statement : Statement} {procedure : String × Block} :
    statement.procedure? = some procedure ↔
      ∃ line, statement = .define procedure.1 procedure.2 line := by
  cases statement with
  | define name body line =>
    constructor
    · intro h
      obtain rfl := Option.some.inj h
      exact ⟨line, rfl⟩
    · rintro ⟨line', h⟩
      obtain ⟨rfl, rfl, rfl⟩ := Statement.define.inj h
      rfl
  | _ => simp [Statement.procedure?]

theorem Statement.call?_eq_some_iff {statement : Statement} {call : String × Nat} :
    statement.call? = some call ↔ statement = .call call.1 call.2 := by
  cases statement with
  | call name line =>
    constructor
    · intro h
      obtain rfl := Option.some.inj h
      rfl
    · intro h
      obtain ⟨rfl, rfl⟩ := Statement.call.inj h
      rfl
  | _ => simp [Statement.call?]

namespace Block

variable {block : Block} {name : String} {body : Block}

/-- The procedures of a tree are listed by the addresses of their declarations. -/
theorem procedures_inPreorder (block : Block) :
    InPreorder (fun address procedure =>
        ∃ line, block.at? address = some (.define procedure.1 procedure.2 line))
      block.procedures := by
  apply (block.statements_inPreorder.filterMap Statement.procedure?).congr
  intro address procedure
  simp only [Statement.procedure?_eq_some_iff]
  constructor
  · rintro ⟨_, haddress, line, rfl⟩
    exact ⟨line, haddress⟩
  · rintro ⟨line, haddress⟩
    exact ⟨_, haddress, line, rfl⟩

/-- A name is declared if there is a declaration of it at some address. -/
theorem mem_map_fst_procedures_iff :
    name ∈ block.procedures.map Prod.fst ↔
      ∃ address body line, block.at? address = some (.define name body line) := by
  rw [List.mem_map]
  constructor
  · rintro ⟨⟨name, body⟩, hmem, rfl⟩
    obtain ⟨address, line, haddress⟩ := block.procedures_inPreorder.mem_iff.mp hmem
    exact ⟨address, body, line, haddress⟩
  · rintro ⟨address, body, line, haddress⟩
    exact ⟨(name, body), block.procedures_inPreorder.mem_iff.mpr ⟨address, line, haddress⟩, rfl⟩

/-- A declaration of a name at an address behind which there is no other declaration of it. -/
def IsLastDeclaration (block : Block) (name : String) (address : List Nat) (body : Block)
    (line : Nat) : Prop :=
  block.at? address = some (.define name body line) ∧
    ∀ other body' line', block.at? other = some (.define name body' line') → ¬ address < other

theorem find?_procedures_eq_some_iff {found : String × Block} :
    block.procedures.reverse.find? (fun procedure => procedure.1 == name) = some found ↔
      found.1 = name ∧ ∃ address line, block.IsLastDeclaration name address found.2 line := by
  rw [block.procedures_inPreorder.find?_reverse_eq_some_iff]
  simp only [beq_iff_eq]
  apply and_congr_right
  rintro rfl
  constructor
  · rintro ⟨address, ⟨line, haddress⟩, hlast⟩
    refine ⟨address, line, haddress, ?_⟩
    intro other body' line' hother
    exact hlast other (found.1, body') ⟨line', hother⟩ rfl
  · rintro ⟨address, line, haddress, hlast⟩
    refine ⟨address, ⟨line, haddress⟩, ?_⟩
    rintro other ⟨_, body'⟩ ⟨line', hother⟩ rfl
    exact hlast other body' line' hother

/-- The procedures that hold are those of the last declarations. -/
theorem mem_definitions_iff :
    (name, body) ∈ block.definitions ↔
      ∃ address line, block.IsLastDeclaration name address body line := by
  rw [definitions, List.mem_filterMap]
  simp only [find?_procedures_eq_some_iff, mem_nameSet, mem_map_fst_procedures_iff]
  constructor
  · rintro ⟨_, -, rfl, hlast⟩
    exact hlast
  · rintro ⟨address, line, hlast⟩
    exact ⟨name, ⟨address, body, line, hlast.1⟩, rfl, address, line, hlast⟩

/-- Each name has one body, and the names ascend. -/
theorem pairwise_map_fst_definitions (block : Block) :
    (block.definitions.map Prod.fst).Pairwise (· < ·) := by
  rw [List.pairwise_map]
  apply (pairwise_nameSet (block.procedures.map Prod.fst)).filterMap
  intro first second hlt procedure hprocedure other hother
  rw [(find?_procedures_eq_some_iff.mp hprocedure).1, (find?_procedures_eq_some_iff.mp hother).1]
  exact hlt

/-- Of the declarations of a name there is a last one. -/
theorem mem_map_fst_definitions_iff :
    name ∈ block.definitions.map Prod.fst ↔
      ∃ address body line, block.at? address = some (.define name body line) := by
  rw [List.mem_map]
  constructor
  · rintro ⟨⟨name, body⟩, hmem, rfl⟩
    obtain ⟨address, line, hlast⟩ := mem_definitions_iff.mp hmem
    exact ⟨address, body, line, hlast.1⟩
  · intro hdeclared
    have hname := mem_map_fst_procedures_iff.mpr hdeclared
    obtain ⟨procedure, hmem, hprocedure⟩ := List.mem_map.mp hname
    have hfind : (block.procedures.reverse.find? fun other => other.1 == name).isSome := by
      rw [List.find?_isSome]
      exact ⟨procedure, List.mem_reverse.mpr hmem, by simpa using hprocedure⟩
    obtain ⟨found, hfound⟩ := Option.isSome_iff_exists.mp hfind
    refine ⟨found, ?_, (find?_procedures_eq_some_iff.mp hfound).1⟩
    exact List.mem_filterMap.mpr ⟨name, mem_nameSet.mpr hname, hfound⟩

/-- A call of a procedure that no declaration in the tree names. -/
def IsUndefinedCall (block : Block) (address : List Nat) (call : String × Nat) : Prop :=
  block.at? address = some (.call call.1 call.2) ∧
    ∀ other body line, block.at? other ≠ some (.define call.1 body line)

theorem undefinedCalls_inPreorder (block : Block) :
    InPreorder block.IsUndefinedCall block.undefinedCalls := by
  have hcalls := (block.statements_inPreorder.filterMap Statement.call?).filterMap
    (Option.guard fun call => !(block.procedures.map Prod.fst).contains call.1)
  rw [List.filterMap_eq_filter] at hcalls
  apply hcalls.congr
  rintro address ⟨name, line⟩
  have hdeclared : (!(block.procedures.map Prod.fst).contains name) = true ↔
      ∀ other body line, block.at? other ≠ some (.define name body line) := by
    rw [Bool.not_eq_true', ← Bool.not_eq_true, List.contains_iff_mem, mem_map_fst_procedures_iff]
    simp only [not_exists, ne_eq]
  simp only [Statement.call?_eq_some_iff, Option.guard_eq_some_iff, IsUndefinedCall, ← hdeclared]
  constructor
  · rintro ⟨_, ⟨_, haddress, rfl⟩, rfl, hundeclared⟩
    exact ⟨haddress, hundeclared⟩
  · rintro ⟨haddress, hundeclared⟩
    exact ⟨(name, line), ⟨_, haddress, rfl⟩, rfl, hundeclared⟩

end Block

/-- The undefined calls of a tree are its calls of procedures that are declared nowhere in it, each
    of them once and before those behind it. There is none if each call is of a procedure that is
    declared somewhere in the tree: before it or behind it, around it or in another block. -/
theorem undefinedCalls_declared_nowhere (block : Block) :
    InPreorder (fun address call => block.at? address = some (.call call.1 call.2) ∧
        ∀ other body line, block.at? other ≠ some (.define call.1 body line))
      block.undefinedCalls ∧
    (block.undefinedCalls = [] ↔ ∀ address name line, block.at? address = some (.call name line) →
      ∃ other body line', block.at? other = some (.define name body line')) := by
  refine ⟨block.undefinedCalls_inPreorder, ?_⟩
  constructor
  · intro hnil address name line hcall
    by_contra hundeclared
    simp only [not_exists] at hundeclared
    have hmem : (name, line) ∈ block.undefinedCalls :=
      block.undefinedCalls_inPreorder.mem_iff.mpr ⟨address, hcall, hundeclared⟩
    rw [hnil] at hmem
    cases hmem
  · intro hdeclared
    rw [List.eq_nil_iff_forall_not_mem]
    intro call hmem
    obtain ⟨address, hcall, hundeclared⟩ := block.undefinedCalls_inPreorder.mem_iff.mp hmem
    obtain ⟨other, body, line, hother⟩ := hdeclared address call.1 call.2 hcall
    exact hundeclared other body line hother

/-- In the tree of a source text, what stands behind has a greater line. -/
theorem line_lt_line_of_at? {capabilities : Capabilities} {source : String} {block : Block}
    {first second : List Nat} {statement other : Statement}
    (h : parseProgram capabilities source = .ok block) (hfirst : block.at? first = some statement)
    (hsecond : block.at? second = some other) (hlt : first < second) :
    statement.line < other.line :=
  block.statements_inPreorder.rel_of_lt (pairwise_line_of_parseProgram h) hfirst hsecond hlt

/-- The procedures of a tree have the names that are declared in it at any depth, each once, and
    each has the body of its last declaration. So a declaration inside another one of the same name
    holds rather than that one. In the tree of a source text the last declaration of a name is the
    one with the greatest line. -/
theorem definitions_are_last_declarations (block : Block) :
    (block.definitions.map Prod.fst).Pairwise (· < ·) ∧
    (∀ name, name ∈ block.definitions.map Prod.fst ↔
      ∃ address body line, block.at? address = some (.define name body line)) ∧
    (∀ name body, (name, body) ∈ block.definitions ↔
      ∃ address line, block.IsLastDeclaration name address body line) ∧
    (∀ name address body line inside inner line', inside ≠ [] →
      block.at? (address ++ inside) = some (.define name inner line') →
      ¬ block.IsLastDeclaration name address body line) ∧
    ∀ capabilities source, parseProgram capabilities source = .ok block →
      ∀ name body, (name, body) ∈ block.definitions ↔
        ∃ address line, block.at? address = some (.define name body line) ∧
          ∀ other body' line', block.at? other = some (.define name body' line') →
            other ≠ address → line' < line := by
  refine ⟨block.pairwise_map_fst_definitions, fun name => Block.mem_map_fst_definitions_iff,
    fun name body => Block.mem_definitions_iff, ?_, ?_⟩
  · intro name address body line inside inner line' hinside hinner hlast
    obtain ⟨position, more, rfl⟩ := List.exists_cons_of_ne_nil hinside
    have hlt : address ++ [] < address ++ position :: more :=
      List.append_left_lt (List.nil_lt_cons position more)
    rw [List.append_nil] at hlt
    exact hlast.2 (address ++ position :: more) inner line' hinner hlt
  · intro capabilities source h name body
    rw [Block.mem_definitions_iff]
    constructor
    · rintro ⟨address, line, haddress, hlast⟩
      refine ⟨address, line, haddress, ?_⟩
      intro other body' line' hother hne
      have hlt : other < address := lt_of_le_of_ne (not_lt.mp (hlast other body' line' hother)) hne
      exact line_lt_line_of_at? h hother haddress hlt
    · rintro ⟨address, line, haddress, hgreatest⟩
      refine ⟨address, line, haddress, ?_⟩
      intro other body' line' hother hlt
      have hback := hgreatest other body' line' hother (ne_of_gt hlt)
      exact Nat.lt_asymm hback (line_lt_line_of_at? h haddress hother hlt)

/-- A declaration inside another one of the same name holds, and it has the greater line. -/
theorem definitions_of_inner_declaration :
    ∃ block outer, parseProgram Capabilities.standard
        "define a:\n  do 2:\n    define a:\n      move\na" = .ok block ∧
      ("a", [.command (.command "move") 3]) ∈ block.definitions ∧
      block.at? [0] = some (.define "a" outer 0) ∧ ¬ block.IsLastDeclaration "a" [0] outer 0 ∧
      ∃ address line, 0 < line ∧
        block.at? address = some (.define "a" [.command (.command "move") 3] line) := by
  let outer : Block := [.doTimes .repetition 2 [.define "a" [.command (.command "move") 3] 2] 1]
  let block : Block := [.define "a" outer 0, .call "a" 4]
  have hparse : parseProgram Capabilities.standard
      "define a:\n  do 2:\n    define a:\n      move\na" = .ok block := rfl
  have hdefinitions : block.definitions = [("a", [.command (.command "move") 3])] := by
    simp only [block, outer]
    rfl
  have hmem : ("a", [.command (.command "move") 3]) ∈ block.definitions := by
    rw [hdefinitions]
    exact List.mem_singleton_self _
  obtain ⟨-, -, -, hinner, hlines⟩ := definitions_are_last_declarations block
  obtain ⟨address, line, haddress, hgreatest⟩ := (hlines _ _ hparse _ _).mp hmem
  have hne : [0] ≠ address := by
    rintro rfl
    simp [Block.at?, Statement.at?, block, outer] at haddress
  have hlast := hinner "a" [0] outer 0 [0, 0, 0, 0] _ 2 (by simp) rfl
  exact ⟨block, outer, hparse, hmem, rfl, hlast, address, line, hgreatest [0] outer 0 rfl hne,
    haddress⟩

end Karel
