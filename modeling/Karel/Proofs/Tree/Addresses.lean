import Mathlib.Data.List.Basic
import Karel.Statement

/-!
# Addresses

Where a statement stands in a tree: its position in its block, and if the block is inside another
statement, before that the address of that statement and the position of the block in it. An
address says nothing about lines, so it also tells apart what a tree made by hand holds twice.

A statement is before those inside it, and those inside one of its blocks are before those inside a
later block. This is the lexicographic order of addresses.

## Main definitions

- `Statement.at?`, `Block.at?` — the statement at an address
- `InPreorder` — what is at some addresses of a tree, in their order

## Main results

- `InPreorder.filterMap` — what is kept of a list in preorder is in preorder
- `Block.statements_inPreorder` — the statements of a tree
-/

namespace Karel

mutual

/-- The statement at an address inside a statement, which itself is at the empty address. -/
def Statement.at? : Statement → List Nat → Option Statement
  | statement, [] => some statement
  | statement, position :: address =>
    statement.blocks[position]?.bind fun block => Block.at? block address

/-- The statement at an address inside a block. -/
def Block.at? : Block → List Nat → Option Statement
  | _, [] => none
  | block, position :: address => block[position]?.bind fun statement => statement.at? address

end

/-- What is found in one of some items, at the position of the item and an address inside it. -/
def findInside {α β : Type} (find : β → List Nat → Option α) (items : List β) :
    List Nat → Option α
  | [] => none
  | position :: address => items[position]?.bind fun item => find item address

/-- Values in the order of their addresses, each of them once at each of its addresses. -/
def InPreorder {α : Type} (holds : List Nat → α → Prop) (values : List α) : Prop :=
  ∃ placed : List (List Nat × α), (placed.map Prod.fst).Pairwise (· < ·) ∧
    (∀ address value, (address, value) ∈ placed ↔ holds address value) ∧
    placed.map Prod.snd = values

namespace InPreorder

variable {α β : Type} {holds : List Nat → α → Prop} {values : List α}

theorem congr {holds' : List Nat → α → Prop} (h : InPreorder holds values)
    (hiff : ∀ address value, holds address value ↔ holds' address value) :
    InPreorder holds' values := by
  obtain ⟨placed, hlt, hmem, hvalues⟩ := h
  refine ⟨placed, hlt, ?_, hvalues⟩
  intro address value
  rw [hmem, hiff]

theorem nil (h : ∀ address value, ¬ holds address value) : InPreorder holds [] := by
  refine ⟨[], List.Pairwise.nil, ?_, rfl⟩
  intro address value
  simpa using h address value

/-- What is kept of some values keeps its address. -/
theorem filterMap (h : InPreorder holds values) (keep : α → Option β) :
    InPreorder (fun address kept => ∃ value, holds address value ∧ keep value = some kept)
      (values.filterMap keep) := by
  obtain ⟨placed, hlt, hmem, rfl⟩ := h
  let keepPlaced (entry : List Nat × α) : Option (List Nat × β) :=
    (keep entry.2).map fun kept => (entry.1, kept)
  refine ⟨placed.filterMap keepPlaced, ?_, ?_, ?_⟩
  · rw [List.pairwise_map] at hlt ⊢
    apply hlt.filterMap
    intro first second hfirst kept hkept other hother
    obtain ⟨_, -, rfl⟩ := Option.map_eq_some_iff.mp hkept
    obtain ⟨_, -, rfl⟩ := Option.map_eq_some_iff.mp hother
    exact hfirst
  · intro address kept
    simp only [List.mem_filterMap, keepPlaced, Option.map_eq_some_iff, Prod.exists, Prod.mk.injEq,
      ← hmem]
    constructor
    · rintro ⟨_, value, hplaced, _, hkept, rfl, rfl⟩
      exact ⟨value, hplaced, hkept⟩
    · rintro ⟨value, hplaced, hkept⟩
      exact ⟨address, value, hplaced, kept, hkept, rfl, rfl⟩
  · rw [List.map_filterMap, List.filterMap_map]
    apply List.filterMap_congr
    intro entry _
    simp only [keepPlaced, Option.map_map, Function.comp_def, Option.map_id']

theorem mem_iff (h : InPreorder holds values) {value : α} :
    value ∈ values ↔ ∃ address, holds address value := by
  obtain ⟨placed, -, hmem, rfl⟩ := h
  simp only [List.mem_map, Prod.exists, exists_eq_right, hmem]

/-- What holds of any two values in a row holds of those at any two addresses in order. -/
theorem rel_of_lt {R : α → α → Prop} (h : InPreorder holds values) (hR : values.Pairwise R)
    {first second : List Nat} {value other : α} (hfirst : holds first value)
    (hsecond : holds second other) (hlt : first < second) : R value other := by
  obtain ⟨placed, hplaced, hmem, rfl⟩ := h
  rw [List.pairwise_map] at hplaced hR
  obtain ⟨i, hi, hvalue⟩ := List.getElem_of_mem ((hmem first value).mpr hfirst)
  obtain ⟨j, hj, hother⟩ := List.getElem_of_mem ((hmem second other).mpr hsecond)
  rcases Nat.lt_trichotomy i j with hij | rfl | hji
  · have hrel := List.pairwise_iff_getElem.mp hR i j hi hj hij
    rwa [hvalue, hother] at hrel
  · rw [hvalue] at hother
    rw [(Prod.mk.inj hother).1] at hlt
    exact absurd hlt (List.lt_irrefl second)
  · have hback := List.pairwise_iff_getElem.mp hplaced j i hj hi hji
    rw [hvalue, hother] at hback
    exact absurd (List.lt_trans hlt hback) (List.lt_irrefl first)

/-- The last value of a kind is the one behind which there is none. -/
theorem find?_reverse_eq_some_iff (h : InPreorder holds values) {kind : α → Bool} {value : α} :
    values.reverse.find? kind = some value ↔
      kind value = true ∧ ∃ address, holds address value ∧
        ∀ other found, holds other found → kind found = true → ¬ address < other := by
  obtain ⟨placed, hlt, hmem, rfl⟩ := h
  rw [List.pairwise_map] at hlt
  rw [List.find?_eq_some_iff_append]
  apply and_congr_right
  intro hkind
  constructor
  · rintro ⟨behind, front, hvalues, hbehind⟩
    rw [List.reverse_eq_iff, List.reverse_append, List.reverse_cons, List.append_assoc,
      List.singleton_append] at hvalues
    obtain ⟨placedFront, placedRest, rfl, -, hrest⟩ := List.map_eq_append_iff.mp hvalues
    obtain ⟨⟨address, _⟩, placedBehind, rfl, rfl, hplaced⟩ := List.map_eq_cons_iff.mp hrest
    refine ⟨address, (hmem _ _).mp (List.mem_append_right _ List.mem_cons_self), ?_⟩
    intro other found hother hfound hafter
    obtain ⟨-, hltRest, hacross⟩ := List.pairwise_append.mp hlt
    rcases List.mem_append.mp ((hmem other found).mpr hother) with hfront | hmemRest
    · have hbefore := hacross _ hfront _ List.mem_cons_self
      exact List.lt_irrefl address (List.lt_trans hafter hbefore)
    · rcases List.mem_cons.mp hmemRest with heq | hmemBehind
      · rw [(Prod.mk.inj heq).1] at hafter
        exact List.lt_irrefl address hafter
      · have hfoundBehind : found ∈ behind := by
          rw [← List.mem_reverse, ← hplaced]
          exact List.mem_map_of_mem hmemBehind
        simpa [hfound] using hbehind found hfoundBehind
  · rintro ⟨address, haddress, hlast⟩
    obtain ⟨front, behind, rfl⟩ := List.append_of_mem ((hmem address value).mpr haddress)
    refine ⟨(behind.map Prod.snd).reverse, (front.map Prod.snd).reverse, by simp, ?_⟩
    intro found hfound
    obtain ⟨⟨other, _⟩, hbehind, rfl⟩ := List.mem_map.mp (List.mem_reverse.mp hfound)
    obtain ⟨-, hltRest, -⟩ := List.pairwise_append.mp hlt
    have hafter := (List.pairwise_cons.mp hltRest).1 _ hbehind
    have hholds := (hmem _ _).mp
      (List.mem_append_right front (List.mem_cons_of_mem (address, value) hbehind))
    by_contra hnot
    exact hlast _ _ hholds (by simpa using hnot) hafter

/-- A value at the empty address is before all others. -/
theorem root {find : List Nat → Option α} {value : α} (hroot : find [] = some value)
    (h : InPreorder (fun address found => address ≠ [] ∧ find address = some found) values) :
    InPreorder (fun address found => find address = some found) (value :: values) := by
  obtain ⟨placed, hlt, hmem, rfl⟩ := h
  refine ⟨([], value) :: placed, ?_, ?_, rfl⟩
  · rw [List.map_cons, List.pairwise_cons]
    refine ⟨?_, hlt⟩
    intro address haddress
    obtain ⟨⟨address, found⟩, hplaced, rfl⟩ := List.mem_map.mp haddress
    obtain ⟨position, more, rfl⟩ := List.exists_cons_of_ne_nil ((hmem address found).mp hplaced).1
    exact List.nil_lt_cons position more
  · intro address found
    rw [List.mem_cons, hmem]
    cases address with
    | nil => simp [hroot, eq_comm]
    | cons position address => simp

/-- What is inside the first of some items is before what is inside the others. -/
theorem inside_cons {find : β → List Nat → Option α} {item : β} {items : List β}
    {firsts others : List α}
    (hfirst : InPreorder (fun address value => find item address = some value) firsts)
    (hothers : InPreorder (fun address value => findInside find items address = some value)
      others) :
    InPreorder (fun address value => findInside find (item :: items) address = some value)
      (firsts ++ others) := by
  obtain ⟨placed, hlt, hmem, rfl⟩ := hfirst
  obtain ⟨behind, hltBehind, hmemBehind, rfl⟩ := hothers
  have hcons {address : List Nat} {value : α} (h : (address, value) ∈ behind) :
      ∃ position more, address = position :: more := by
    cases address with
    | nil => cases (hmemBehind [] value).mp h
    | cons position more => exact ⟨position, more, rfl⟩
  refine ⟨placed.map (fun entry => (0 :: entry.1, entry.2)) ++
    behind.map (fun entry => (entry.1.modifyHead (· + 1), entry.2)), ?_, ?_, ?_⟩
  · rw [List.pairwise_map] at hlt hltBehind ⊢
    rw [List.pairwise_append, List.pairwise_map, List.pairwise_map]
    refine ⟨?_, ?_, ?_⟩
    · apply hlt.imp
      intro first second hfirst
      exact List.cons_lt_cons_iff.mpr (.inr ⟨rfl, hfirst⟩)
    · apply hltBehind.imp_of_mem
      rintro ⟨first, _⟩ ⟨second, _⟩ hfirst hsecond hbefore
      obtain ⟨position, more, rfl⟩ := hcons hfirst
      obtain ⟨position', more', rfl⟩ := hcons hsecond
      rcases List.cons_lt_cons_iff.mp hbefore with hposition | ⟨rfl, hmore⟩
      · exact List.cons_lt_cons_iff.mpr (.inl (Nat.succ_lt_succ hposition))
      · exact List.cons_lt_cons_iff.mpr (.inr ⟨rfl, hmore⟩)
    · intro first hfirst second hsecond
      obtain ⟨_, -, rfl⟩ := List.mem_map.mp hfirst
      obtain ⟨⟨address, value⟩, hbehind, rfl⟩ := List.mem_map.mp hsecond
      obtain ⟨position, more, rfl⟩ := hcons hbehind
      exact List.cons_lt_cons_iff.mpr (.inl (Nat.succ_pos position))
  · intro address value
    rw [List.mem_append, List.mem_map, List.mem_map]
    constructor
    · rintro (⟨⟨more, found⟩, hplaced, heq⟩ | ⟨⟨more, found⟩, hbehind, heq⟩)
      · obtain ⟨rfl, rfl⟩ := Prod.mk.inj heq
        exact (hmem more found).mp hplaced
      · obtain ⟨rfl, rfl⟩ := Prod.mk.inj heq
        obtain ⟨position, more, rfl⟩ := hcons hbehind
        exact (hmemBehind (position :: more) found).mp hbehind
    · intro h
      cases address with
      | nil => cases h
      | cons position more =>
        cases position with
        | zero => exact .inl ⟨(more, value), (hmem more value).mpr h, rfl⟩
        | succ position =>
          exact .inr ⟨(position :: more, value), (hmemBehind (position :: more) value).mpr h, rfl⟩
  · rw [List.map_append, List.map_map, List.map_map]
    rfl

theorem inside_nil {find : β → List Nat → Option α} :
    InPreorder (fun address value => findInside find [] address = some value) [] := by
  apply nil
  intro address value h
  cases address with
  | nil => cases h
  | cons position more => cases h

end InPreorder

theorem Block.at?_eq_findInside (block : Block) (address : List Nat) :
    block.at? address = findInside Statement.at? block address := by
  cases address with
  | nil => rfl
  | cons position address => rfl

/-- A statement is before all that is inside its blocks. -/
theorem Statement.inPreorder_of_blocks {statement : Statement} {inner : List Statement}
    (h : InPreorder
      (fun address found => findInside Block.at? statement.blocks address = some found) inner) :
    InPreorder (fun address found => statement.at? address = some found) (statement :: inner) := by
  have hroot : statement.at? [] = some statement := rfl
  apply InPreorder.root hroot
  apply h.congr
  intro address found
  cases address with
  | nil => simp [findInside]
  | cons position address => exact (and_iff_right (by simp)).symm

theorem Block.inPreorder_single {body : List Statement} {inner : List Statement}
    (h : InPreorder (fun address found => Block.at? body address = some found) inner) :
    InPreorder (fun address found => findInside Block.at? [body] address = some found) inner := by
  have hbody := h.inside_cons InPreorder.inside_nil
  rwa [List.append_nil] at hbody

mutual

theorem Statement.inPreorder_nodes (depth : Nat) : (statement : Statement) →
    InPreorder (fun address found => statement.at? address = some found)
      ((statement.nodes depth).map Prod.snd)
  | .command _ _ => Statement.inPreorder_of_blocks InPreorder.inside_nil
  | .call _ _ => Statement.inPreorder_of_blocks InPreorder.inside_nil
  | .doTimes _ _ body _ =>
    Statement.inPreorder_of_blocks (Block.inPreorder_single (Block.inPreorder_nodes _ body))
  | .whileDo _ body _ =>
    Statement.inPreorder_of_blocks (Block.inPreorder_single (Block.inPreorder_nodes _ body))
  | .define _ body _ =>
    Statement.inPreorder_of_blocks (Block.inPreorder_single (Block.inPreorder_nodes _ body))
  | .ifElse _ body arms _ => by
    rw [Statement.nodes, List.map_cons, List.map_append]
    apply Statement.inPreorder_of_blocks
    exact (Block.inPreorder_nodes _ body).inside_cons (arms.inPreorder_nodes _)

theorem Arms.inPreorder_nodes (depth : Nat) : (arms : Arms) →
    InPreorder (fun address found => findInside Block.at? arms.blocks address = some found)
      ((arms.nodes depth).map Prod.snd)
  | .done => InPreorder.inside_nil
  | .otherwise body => Block.inPreorder_single (Block.inPreorder_nodes _ body)
  | .elif _ _ body next => by
    rw [Arms.nodes, List.map_append]
    exact (Block.inPreorder_nodes _ body).inside_cons (next.inPreorder_nodes _)

theorem Block.inPreorder_nodes (depth : Nat) : (block : List Statement) →
    InPreorder (fun address found => Block.at? block address = some found)
      ((Block.nodes depth block).map Prod.snd)
  | [] => by
    simp only [Block.at?_eq_findInside]
    exact InPreorder.inside_nil
  | statement :: rest => by
    have hrest := Block.inPreorder_nodes depth rest
    simp only [Block.at?_eq_findInside] at hrest ⊢
    rw [Block.nodes, List.map_append]
    exact (statement.inPreorder_nodes depth).inside_cons hrest

end

/-- The statements of a tree are listed by their addresses. -/
theorem Block.statements_inPreorder (block : Block) :
    InPreorder (fun address statement => block.at? address = some statement) block.statements :=
  Block.inPreorder_nodes 0 block

end Karel
