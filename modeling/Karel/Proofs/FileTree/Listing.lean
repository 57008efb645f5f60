import Mathlib.Data.List.Sort
import Mathlib.Data.String.Basic
import Karel.FileTree
import Karel.Proofs.Capabilities.Acceptance

/-!
# Listings of directories

A file in a directory has an address, which is the names of the entries on the way to it. A walk
lists the program files by ascending addresses, each of them once. Addresses are compared name by
name, so what `a` holds is before `a.b`, although the slash in `a/c` is after the dot in `a.b`.

## Main definitions

- `Node.At` — what is at an address
- `Node.IsTree` — no directory has two entries of one name, and the names are no paths
- `HasExtension` — what follows the last dot of a file name
- `IsWalk` — some files with their addresses, in the order of a walk
- `pathBelow` — the path of what is at an address
- `IsListing` — what is to be listed for a path

## Main results

- `isProgramName_iff` — the names of program files are those with the extension `karel`
- `Node.lists_programs` — the program files of a tree are those that a walk finds
- `collectPrograms_lists_each_once` — for some paths, what is to be listed for each of them is
-/

namespace Karel

/-- What is at an address below a node. -/
inductive Node.At : Node → List String → Node → Prop
  | here (node : Node) : node.At [] node
  | inside {entries : List (String × Node)} {name : String} {child found : Node}
      {address : List String} (hmem : (name, child) ∈ entries) (hat : child.At address found) :
      (Node.directory entries).At (name :: address) found

/-- The entries of a directory have different names, and none of them is empty or has a slash in
    it. -/
def Node.IsTree (node : Node) : Prop :=
  ∀ address entries, node.At address (.directory entries) →
    (entries.map Prod.fst).Nodup ∧ ∀ name ∈ entries.map Prod.fst, name ≠ "" ∧ '/' ∉ name.toList

/-- The extension of a file name is what follows its last dot, if that is not in front. -/
def HasExtension (name extension : String) : Prop :=
  ∃ stem, stem ≠ "" ∧ name = stem ++ "." ++ extension ∧ '.' ∉ extension.toList

/-- The path of what is at an address below the directory at a path. -/
def pathBelow (path : String) (address : List String) : String :=
  (if path.toList.getLast? = some '/' then path else path ++ "/") ++ "/".intercalate address

/-- Files at their addresses in the order of a walk. The addresses ascend, name by name, and every
    name by its bytes. -/
structure IsWalk (holds : List String → ByteArray → Prop)
    (placed : List (List String × ByteArray)) : Prop where
  ascending : (placed.map fun entry => entry.1.map utf8Bytes).Pairwise (· < ·)
  mem_iff : ∀ address content, (address, content) ∈ placed ↔ holds address content

variable {holds : List String → ByteArray → Prop} {path name : String} {names : List String}
  {node : Node} {entries : List (String × Node)} {content : ByteArray}
  {programs : List (String × ByteArray)}

-- ════════════════════════════════════════════════════════════════════════
-- Names and paths
-- ════════════════════════════════════════════════════════════════════════

theorem isProgramName_iff : isProgramName name = true ↔ HasExtension name "karel" := by
  rw [isProgramName, Bool.and_eq_true, List.isSuffixOf_iff_suffix, decide_eq_true_iff]
  constructor
  · rintro ⟨hne, stem, hstem⟩
    refine ⟨String.ofList stem, ?_, ?_, by decide⟩
    · intro hempty
      rw [String.ofList_eq_empty_iff] at hempty
      exact hne (by rw [← hstem, hempty, List.nil_append])
    · rw [← String.toList_inj, ← hstem]
      simp
  · rintro ⟨stem, hstem, rfl, -⟩
    have hne : stem.toList ≠ [] := by simpa using hstem
    simpa using hne

theorem joinPath_eq : joinPath path name = pathBelow path [name] := by
  rw [joinPath, pathBelow, String.intercalate_singleton]
  split <;> rfl

theorem pathBelow_joinPath (hempty : name ≠ "") (hslash : '/' ∉ name.toList) (next : String)
    (address : List String) :
    pathBelow (joinPath path name) (next :: address) =
      pathBelow path (name :: next :: address) := by
  have hlast : (joinPath path name).toList.getLast? ≠ some '/' := by
    rw [joinPath_eq, pathBelow, String.intercalate_singleton, String.toList_append,
      List.getLast?_append]
    intro h
    cases hname : name.toList.getLast? with
    | none => exact hempty (by simpa using hname)
    | some last =>
      rw [hname] at h
      obtain rfl : last = '/' := by simpa using h
      exact hslash (List.mem_of_getLast? hname)
  rw [pathBelow, if_neg hlast, joinPath_eq, pathBelow, pathBelow, String.intercalate_singleton,
    String.intercalate_cons_cons]
  simp only [String.append_assoc]

theorem foldl_joinPath {address : List String} (hne : address ≠ [])
    (hnames : ∀ name ∈ address, name ≠ "" ∧ '/' ∉ name.toList) :
    address.foldl joinPath path = pathBelow path address := by
  induction address generalizing path with
  | nil => exact absurd rfl hne
  | cons name address ih =>
    cases address with
    | nil => exact joinPath_eq
    | cons next address =>
      obtain ⟨hname, hrest⟩ := List.forall_mem_cons.mp hnames
      rw [List.foldl_cons, ih (List.cons_ne_nil next address) hrest,
        pathBelow_joinPath hname.1 hname.2]

/-- Different addresses are written as different paths. -/
theorem pathBelow_inj {address other : List String} (hne : address ≠ []) (hneOther : other ≠ [])
    (hnames : ∀ name ∈ address, '/' ∉ name.toList) (hothers : ∀ name ∈ other, '/' ∉ name.toList)
    (h : pathBelow path address = pathBelow path other) : address = other := by
  have hjoined : ['/'].intercalate (address.map String.toList) =
      ['/'].intercalate (other.map String.toList) := by
    have hslashes := String.append_right_inj _ |>.mp h
    simpa using congrArg String.toList hslashes
  have hpieces (names : List String) (hne : names ≠ [])
      (hnames : ∀ name ∈ names, '/' ∉ name.toList) :
      (['/'].intercalate (names.map String.toList)).splitOn '/' = names.map String.toList :=
    List.splitOn_intercalate '/' (by simpa using hnames) (by simpa using hne)
  have hchars : address.map String.toList = other.map String.toList := by
    rw [← hpieces address hne hnames, hjoined, hpieces other hneOther hothers]
  exact List.map_injective_iff.mpr (fun _ _ => String.toList_inj.mp) hchars

-- ════════════════════════════════════════════════════════════════════════
-- Addresses
-- ════════════════════════════════════════════════════════════════════════

namespace Node

theorem at_file_iff {address : List String} {found : Node} :
    (file content).At address found ↔ address = [] ∧ file content = found := by
  constructor
  · rintro ⟨⟩
    exact ⟨rfl, rfl⟩
  · rintro ⟨rfl, rfl⟩
    exact .here _

theorem at_directory_cons_iff {address : List String} {found : Node} :
    (directory entries).At (name :: address) found ↔
      ∃ child, (name, child) ∈ entries ∧ child.At address found := by
  constructor
  · rintro (_ | ⟨hmem, hat⟩)
    exact ⟨_, hmem, hat⟩
  · rintro ⟨child, hmem, hat⟩
    exact .inside hmem hat

theorem isTree_file : (file content).IsTree := by
  intro address entries hat
  exact nomatch (at_file_iff.mp hat).2

theorem isTree_directory (hnodup : (entries.map Prod.fst).Nodup)
    (hentries : ∀ entry ∈ entries, (entry.1 ≠ "" ∧ '/' ∉ entry.1.toList) ∧ entry.2.IsTree) :
    (directory entries).IsTree := by
  rintro address inner (_ | ⟨hmem, hat⟩)
  · exact ⟨hnodup, List.forall_mem_map.mpr fun entry hmem => (hentries entry hmem).1⟩
  · exact (hentries _ hmem).2 _ inner hat

theorem IsTree.child (htree : (directory entries).IsTree) (hmem : (name, node) ∈ entries) :
    node.IsTree := by
  intro address inner hat
  exact htree (name :: address) inner (.inside hmem hat)

/-- The names on the way to a node in a tree. -/
theorem IsTree.names_at {address : List String} {found : Node} (htree : node.IsTree)
    (hat : node.At address found) : ∀ name ∈ address, name ≠ "" ∧ '/' ∉ name.toList := by
  induction hat with
  | here => exact List.forall_mem_nil _
  | inside hmem _ ih =>
    refine List.forall_mem_cons.mpr ⟨?_, ih (htree.child hmem)⟩
    exact (htree [] _ (.here _)).2 _ (List.mem_map_of_mem hmem)

end Node

-- ════════════════════════════════════════════════════════════════════════
-- Walks
-- ════════════════════════════════════════════════════════════════════════

/-- What is held at an address that starts with one of some names. -/
def HoldsBelow (names : List String) (holds : String → List String → ByteArray → Prop) :
    List String → ByteArray → Prop
  | [], _ => False
  | name :: address, content => name ∈ names ∧ holds name address content

namespace IsWalk

theorem nil (h : ∀ address content, ¬ holds address content) : IsWalk holds [] where
  ascending := List.Pairwise.nil
  mem_iff address content := by simpa using h address content

theorem congr {holds' : List String → ByteArray → Prop} {placed : List (List String × ByteArray)}
    (h : IsWalk holds placed) (hiff : ∀ address content, holds address content ↔
      holds' address content) : IsWalk holds' placed where
  ascending := h.ascending
  mem_iff address content := by rw [h.mem_iff, hiff]

/-- No address is listed twice. -/
theorem nodup {placed : List (List String × ByteArray)} (h : IsWalk holds placed) :
    (placed.map Prod.fst).Nodup := by
  have hascending := h.ascending
  rw [List.pairwise_map] at hascending
  rw [List.Nodup, List.pairwise_map]
  apply hascending.imp
  intro first second hlt heq
  rw [heq] at hlt
  exact List.lt_irrefl _ hlt

/-- What is below one name is before all that is below later names. -/
theorem below_cons {holds : String → List String → ByteArray → Prop}
    {firsts others : List (List String × ByteArray)} (hfirst : IsWalk (holds name) firsts)
    (hothers : IsWalk (HoldsBelow names holds) others)
    (hlt : ∀ other ∈ names, utf8Bytes name < utf8Bytes other) :
    IsWalk (HoldsBelow (name :: names) holds)
      (firsts.map (fun entry => (name :: entry.1, entry.2)) ++ others) where
  ascending := by
    rw [List.map_append, List.map_map, List.pairwise_append, List.pairwise_map]
    refine ⟨?_, hothers.ascending, ?_⟩
    · apply (List.pairwise_map.mp hfirst.ascending).imp
      intro first second hbefore
      exact List.cons_lt_cons_iff.mpr (.inr ⟨rfl, hbefore⟩)
    · intro first hfirst second hsecond
      obtain ⟨_, -, rfl⟩ := List.mem_map.mp hfirst
      obtain ⟨⟨address, content⟩, hother, rfl⟩ := List.mem_map.mp hsecond
      have hholds := (hothers.mem_iff address content).mp hother
      cases address with
      | nil => exact hholds.elim
      | cons other address => exact List.cons_lt_cons_iff.mpr (.inl (hlt other hholds.1))
  mem_iff address content := by
    rw [List.mem_append, hothers.mem_iff]
    cases address with
    | nil => simp [HoldsBelow]
    | cons first address =>
      have hmem : (first :: address, content) ∈ firsts.map (fun entry => (name :: entry.1, entry.2))
          ↔ first = name ∧ holds name address content := by
        simp [← hfirst.mem_iff, eq_comm, and_left_comm]
      rw [hmem]
      constructor
      · rintro (⟨rfl, hholds⟩ | ⟨hname, hholds⟩)
        · exact ⟨List.mem_cons_self, hholds⟩
        · exact ⟨List.mem_cons_of_mem name hname, hholds⟩
      · rintro ⟨hname, hholds⟩
        rcases List.mem_cons.mp hname with rfl | hname
        · exact .inl ⟨rfl, hholds⟩
        · exact .inr ⟨hname, hholds⟩

end IsWalk

/-- The programs that a walk from a path finds. -/
def Lists (holds : List String → ByteArray → Prop) (path : String)
    (programs : List (String × ByteArray)) : Prop :=
  ∃ placed, IsWalk holds placed ∧
    programs = placed.map fun entry => (entry.1.foldl joinPath path, entry.2)

namespace Lists

theorem congr {holds' : List String → ByteArray → Prop} (h : Lists holds path programs)
    (hiff : ∀ address content, holds address content ↔ holds' address content) :
    Lists holds' path programs := by
  obtain ⟨placed, hwalk, rfl⟩ := h
  exact ⟨placed, hwalk.congr hiff, rfl⟩

/-- Groups of programs, by ascending names, as the walk through all of them. -/
theorem flatMap {holds : String → List String → ByteArray → Prop}
    {groups : List (String × List (String × ByteArray))}
    (hlt : (groups.map fun group => utf8Bytes group.1).Pairwise (· < ·))
    (hgroups : ∀ group ∈ groups, Lists (holds group.1) (joinPath path group.1) group.2) :
    Lists (HoldsBelow (groups.map Prod.fst) holds) path (groups.flatMap Prod.snd) := by
  induction groups with
  | nil =>
    refine ⟨[], IsWalk.nil ?_, rfl⟩
    rintro (_ | ⟨name, address⟩) content
    · exact id
    · exact fun h => List.not_mem_nil h.1
  | cons group groups ih =>
    obtain ⟨name, programs⟩ := group
    obtain ⟨hfirst, hrest⟩ := List.forall_mem_cons.mp hgroups
    obtain ⟨hnext, hlt⟩ := List.pairwise_cons.mp hlt
    obtain ⟨firsts, hfirsts, hprograms⟩ := hfirst
    obtain ⟨others, hothers, hflat⟩ := ih hlt hrest
    refine ⟨_, hfirsts.below_cons hothers ?_, ?_⟩
    · intro other hother
      obtain ⟨group, hgroup, rfl⟩ := List.mem_map.mp hother
      exact hnext _ (List.mem_map_of_mem hgroup)
    · rw [List.flatMap_cons, hflat, List.map_append, List.map_map, hprograms]
      rfl

end Lists

-- ════════════════════════════════════════════════════════════════════════
-- Directories
-- ════════════════════════════════════════════════════════════════════════

theorem sortEntries_perm {α : Type} (entries : List (String × α)) :
    (sortEntries entries).Perm entries :=
  List.mergeSort_perm entries _

/-- Entries of different names are sorted by the bytes of their names. -/
theorem sortEntries_ascending {α : Type} {entries : List (String × α)}
    (hnodup : (entries.map Prod.fst).Nodup) :
    ((sortEntries entries).map fun entry => utf8Bytes entry.1).Pairwise (· < ·) := by
  have hle : (sortEntries entries).Pairwise fun first second => first.1 ≤ second.1 := by
    have : Std.Total fun first second : String × α => first.1 ≤ second.1 :=
      ⟨fun first second => le_total first.1 second.1⟩
    have : IsTrans (String × α) fun first second => first.1 ≤ second.1 :=
      ⟨fun _ _ _ => le_trans⟩
    exact List.pairwise_mergeSort' _ entries
  have hne : ((sortEntries entries).map Prod.fst).Pairwise (· ≠ ·) :=
    ((sortEntries_perm entries).map Prod.fst).nodup_iff.mpr hnodup
  rw [List.pairwise_map] at hne ⊢
  apply (hle.and hne).imp
  rintro first second ⟨hle, hne⟩
  exact lt_iff_utf8Bytes_lt.mp (lt_of_le_of_ne hle hne)

theorem entryPrograms_eq_map (path : String) (entries : List (String × Node)) :
    Node.entryPrograms path entries =
      entries.map fun entry => (entry.1, entry.2.programs (joinPath path entry.1) entry.1) := by
  induction entries with
  | nil => rfl
  | cons entry entries ih => rw [Node.entryPrograms, ih, List.map_cons]

/-- A program file at an address below a node of some name. -/
def Node.HoldsProgram (node : Node) (name : String) (address : List String)
    (content : ByteArray) : Prop :=
  node.At address (.file content) ∧ isProgramName (address.getLastD name) = true

/-- A program file at an address below an entry of some name. -/
def Node.EntryHoldsProgram (entries : List (String × Node)) (name : String) (address : List String)
    (content : ByteArray) : Prop :=
  ∃ child, (name, child) ∈ entries ∧ child.HoldsProgram name address content

theorem Node.holdsProgram_directory_iff {address : List String} :
    (directory entries).HoldsProgram name address content ↔
      HoldsBelow (entries.map Prod.fst) (EntryHoldsProgram entries) address content := by
  cases address with
  | nil => exact iff_of_false (fun h => nomatch h.1) id
  | cons first address =>
    rw [HoldsProgram, at_directory_cons_iff, List.getLastD_cons]
    constructor
    · rintro ⟨⟨child, hmem, hat⟩, hname⟩
      exact ⟨List.mem_map_of_mem hmem, child, hmem, hat, hname⟩
    · rintro ⟨-, child, hmem, hat, hname⟩
      exact ⟨⟨child, hmem, hat⟩, hname⟩

/-- What a walk finds in the entries of a directory is what it finds in the directory. -/
theorem Node.lists_directory (hnodup : (entries.map Prod.fst).Nodup)
    (hentries : ∀ entry ∈ entries, Lists (entry.2.HoldsProgram entry.1) (joinPath path entry.1)
      (entry.2.programs (joinPath path entry.1) entry.1)) :
    Lists ((directory entries).HoldsProgram name) path
      ((directory entries).programs path name) := by
  have hnames : (entryPrograms path entries).map Prod.fst = entries.map Prod.fst := by
    rw [entryPrograms_eq_map, List.map_map]
    rfl
  have hsorted : ∀ first, first ∈ (sortEntries (entryPrograms path entries)).map Prod.fst ↔
      first ∈ entries.map Prod.fst := by
    intro first
    rw [← hnames]
    exact ((sortEntries_perm _).map Prod.fst).mem_iff
  have hgroups : ∀ group ∈ sortEntries (entryPrograms path entries),
      Lists (EntryHoldsProgram entries group.1) (joinPath path group.1) group.2 := by
    intro group hgroup
    rw [(sortEntries_perm _).mem_iff, entryPrograms_eq_map] at hgroup
    obtain ⟨⟨first, child⟩, hmem, rfl⟩ := List.mem_map.mp hgroup
    apply (hentries (first, child) hmem).congr
    intro address content
    constructor
    · intro h
      exact ⟨child, hmem, h⟩
    · rintro ⟨other, hother, h⟩
      obtain rfl : other = child :=
        (Prod.mk.inj (List.inj_on_of_nodup_map hnodup hother hmem rfl)).2
      exact h
  rw [programs]
  apply (Lists.flatMap (sortEntries_ascending (hnames ▸ hnodup)) hgroups).congr
  intro address content
  rw [holdsProgram_directory_iff]
  cases address with
  | nil => rfl
  | cons first address => exact and_congr_left' (hsorted first)

mutual

theorem Node.lists_programs (path name : String) : (node : Node) → node.IsTree →
    Lists (node.HoldsProgram name) path (node.programs path name)
  | .file content, _ => by
    rw [Node.programs]
    split
    · rename_i hname
      refine ⟨[([], content)], ⟨List.pairwise_singleton _ _, ?_⟩, rfl⟩
      intro address other
      rw [Node.HoldsProgram, Node.at_file_iff, List.mem_singleton, Prod.mk.injEq]
      constructor
      · rintro ⟨rfl, rfl⟩
        exact ⟨⟨rfl, rfl⟩, hname⟩
      · rintro ⟨⟨rfl, hcontent⟩, -⟩
        exact ⟨rfl, (Node.file.inj hcontent).symm⟩
    · rename_i hname
      refine ⟨[], IsWalk.nil ?_, rfl⟩
      rintro address other ⟨hat, hother⟩
      obtain ⟨rfl, -⟩ := Node.at_file_iff.mp hat
      exact hname hother
  | .directory entries, htree =>
    Node.lists_directory (htree [] entries (.here _)).1
      (Node.lists_entryPrograms path entries fun _ hmem => htree.child hmem)

theorem Node.lists_entryPrograms (path : String) : (entries : List (String × Node)) →
    (∀ entry ∈ entries, entry.2.IsTree) → ∀ entry ∈ entries,
      Lists (entry.2.HoldsProgram entry.1) (joinPath path entry.1)
        (entry.2.programs (joinPath path entry.1) entry.1)
  | [], _ => List.forall_mem_nil _
  | (name, node) :: rest, htrees => by
    obtain ⟨hnode, hrest⟩ := List.forall_mem_cons.mp htrees
    exact List.forall_mem_cons.mpr ⟨node.lists_programs (joinPath path name) name hnode,
      Node.lists_entryPrograms path rest hrest⟩

end

/-- The program files in a directory, at the addresses where the directory holds a file whose name
    has the extension `karel`. -/
theorem Node.IsTree.exists_isWalk_programs (path : String) (htree : (directory entries).IsTree) :
    ∃ placed, IsWalk (fun address content => (directory entries).At address (.file content) ∧
        ∃ name ∈ address.getLast?, HasExtension name "karel") placed ∧
      (directory entries).programs path "" =
        placed.map (fun entry => (pathBelow path entry.1, entry.2)) ∧
      (placed.map fun entry => pathBelow path entry.1).Nodup := by
  obtain ⟨placed, hwalk, hprograms⟩ := (directory entries).lists_programs path "" htree
  have hnonempty : ∀ entry ∈ placed, entry.1 ≠ [] := by
    rintro ⟨address, content⟩ hmem rfl
    cases ((hwalk.mem_iff _ _).mp hmem).1
  have hnames : ∀ entry ∈ placed, ∀ name ∈ entry.1, name ≠ "" ∧ '/' ∉ name.toList := by
    rintro ⟨address, content⟩ hmem
    exact htree.names_at ((hwalk.mem_iff address content).mp hmem).1
  refine ⟨placed, hwalk.congr ?_, ?_, ?_⟩
  · intro address content
    cases address with
    | nil => exact iff_of_false (fun h => nomatch h.1) (fun h => nomatch h.1)
    | cons first address =>
      rw [HoldsProgram, isProgramName_iff, List.getLast?_cons, ← List.getLastD_eq_getLast?,
        List.getLastD_cons]
      simp
  · rw [hprograms]
    apply List.map_congr_left
    intro entry hmem
    rw [foldl_joinPath (hnonempty entry hmem) (hnames entry hmem)]
  · have hplaced := hwalk.nodup
    rw [List.Nodup, List.pairwise_map] at hplaced ⊢
    apply hplaced.imp_of_mem
    intro first second hfirst hsecond hne heq
    exact hne (pathBelow_inj (hnonempty first hfirst) (hnonempty second hsecond)
      (fun name hmem => (hnames first hfirst name hmem).2)
      (fun name hmem => (hnames second hsecond name hmem).2) heq)

/-- The listing for a path. If it leads to a directory, the program files in that are listed, each
    once, with the path that leads to it. Any other path is listed itself. -/
def IsListing (files : Files) (path : String) (part : List (String × Except ReadFault String)) :
    Prop :=
  match files path with
  | .ok (.directory entries) => ∃ placed,
    IsWalk (fun address content => (Node.directory entries).At address (.file content) ∧
      ∃ name ∈ address.getLast?, HasExtension name "karel") placed ∧
    part = placed.map (fun entry => (pathBelow path entry.1, decodeText entry.2)) ∧
    (placed.map fun entry => pathBelow path entry.1).Nodup
  | found => part = [(path, found.bind Node.readText)]

/-- Programs are listed path by path, each path itself or else the program files below it. None is
    missed, and none is repeated. -/
theorem collectPrograms_lists_each_once (files : Files) (paths : List String)
    (htrees : ∀ path ∈ paths, ∀ node, files path = .ok node → node.IsTree) :
    ∃ parts, collectPrograms files paths = parts.flatten ∧
      List.Forall₂ (IsListing files) paths parts := by
  refine ⟨paths.map (programsAt files), List.flatMap_def, ?_⟩
  rw [List.forall₂_map_right_iff, List.forall₂_same]
  intro path hpath
  have htree := htrees path hpath
  rw [programsAt, IsListing]
  match files path, htree with
  | .ok (.directory entries), htree =>
    obtain ⟨placed, hwalk, hprograms, hnodup⟩ := (htree _ rfl).exists_isWalk_programs path
    have hpart : ((Node.directory entries).programs path "").map
        (fun program => (program.1, decodeText program.2)) =
          placed.map fun entry => (pathBelow path entry.1, decodeText entry.2) := by
      rw [hprograms, List.map_map]
      rfl
    exact ⟨placed, hwalk, hpart, hnodup⟩
  | .ok (.file content), _ => rfl
  | .error fault, _ => rfl

/-- A directory in which names and paths are not in the same order. -/
def interleavedTree : Node :=
  let file := Node.file ByteArray.empty
  .directory [("x.karel", .directory [("e.karel", file), (".karel", file)]), ("a.karel", file),
    ("a.b", .directory [("d.karel", file)]), ("a", .directory [("c.karel", file), ("karel", file)])]

/-- The only path with something there is that of the directory. -/
def interleavedFiles (path : String) : Except ReadFault Node :=
  if path = "tree" then .ok interleavedTree else .error .notFound

/-- What is in `a` and `a.b` is listed before `a.karel`, and a directory may be called `x.karel`. -/
theorem collectPrograms_lists_interleaved :
    let paths := ["none.txt", "tree"]
    (∀ path ∈ paths, ∀ node, interleavedFiles path = .ok node → node.IsTree) ∧
    (∃ parts, collectPrograms interleavedFiles paths = parts.flatten ∧
      List.Forall₂ (IsListing interleavedFiles) paths parts) ∧
    (collectPrograms interleavedFiles paths).map Prod.fst =
      ["none.txt", "tree/a/c.karel", "tree/a.b/d.karel", "tree/a.karel",
        "tree/x.karel/e.karel"] := by
  have hflat (names : List String) (hnodup : names.Nodup)
      (hnames : ∀ name ∈ names, name ≠ "" ∧ '/' ∉ name.toList) :
      (Node.directory (names.map fun name => (name, .file ByteArray.empty))).IsTree := by
    apply Node.isTree_directory
    · rwa [List.map_map, Function.comp_def, List.map_id']
    · exact List.forall_mem_map.mpr fun name hmem => ⟨hnames name hmem, Node.isTree_file⟩
  have htree : interleavedTree.IsTree := by
    apply Node.isTree_directory (by decide)
    simp only [List.forall_mem_cons]
    exact ⟨⟨by decide, hflat ["e.karel", ".karel"] (by decide) (by decide)⟩,
      ⟨by decide, Node.isTree_file⟩, ⟨by decide, hflat ["d.karel"] (by decide) (by decide)⟩,
      ⟨by decide, hflat ["c.karel", "karel"] (by decide) (by decide)⟩, List.forall_mem_nil _⟩
  have htrees : ∀ path ∈ ["none.txt", "tree"], ∀ node, interleavedFiles path = .ok node →
      node.IsTree := by
    intro path _ node hnode
    rw [interleavedFiles] at hnode
    split at hnode
    · obtain rfl := Except.ok.inj hnode
      exact htree
    · cases hnode
  refine ⟨htrees, collectPrograms_lists_each_once _ _ htrees, ?_⟩
  simp [collectPrograms, programsAt, interleavedFiles, interleavedTree, Node.programs,
    Node.entryPrograms, sortEntries, List.mergeSort, List.MergeSort.Internal.splitInTwo, joinPath,
    isProgramName, List.isSuffixOf]

end Karel
