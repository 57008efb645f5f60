/-!
# File trees

The files that a command may read, as a value: a node is a file or a directory of named nodes.
Paths are followed as an operating system follows them, component by component.

## Main definitions

- `ReadFault` — why a path cannot be read as a text
- `Node` — a file or a directory
- `Node.resolve` — the node that a path leads to
- `Node.readText` — the text of a file
- `Node.programs` — the program files in a directory, at any depth, in the order of a walk
- `collectPrograms` — the programs that a list of paths asks for

## Design notes

A walk lists a directory before it goes on, so the order is that of the path components and not
that of the whole paths. A file is a program if its extension is `karel`: what follows the last
dot, provided that something precedes that dot.
-/

namespace Karel

/-- Why a path cannot be read as a text. -/
inductive ReadFault where
  | notFound
  | notADirectory
  | isADirectory
  | notPermitted
  | invalidText
  deriving DecidableEq, Repr

/-- The bare reason of a fault. -/
def ReadFault.reason : ReadFault → String
  | notFound => "No such file or directory (os error 2)"
  | notADirectory => "Not a directory (os error 20)"
  | isADirectory => "Is a directory (os error 21)"
  | notPermitted => "Permission denied (os error 13)"
  | invalidText => "stream did not contain valid UTF-8"

/-- The report of a fault in reading a program. -/
def ReadFault.message (fault : ReadFault) : String :=
  s!"failed to read source: {fault.reason}"

/-- The text that bytes encode. -/
def decodeText (bytes : ByteArray) : Except ReadFault String :=
  match String.fromUTF8? bytes with
  | some text => .ok text
  | none => .error .invalidText

/-- A file or a directory. The entries of a directory have different names, in any order. -/
inductive Node where
  | file (content : ByteArray)
  | directory (entries : List (String × Node))

/-- What the paths of a command lead to. -/
abbrev Files := String → Except ReadFault Node

namespace Node

/-- The text of a file. -/
def readText : Node → Except ReadFault String
  | file content => decodeText content
  | directory _ => .error .isADirectory

/-- Follows the components of a path from a node, given the directories above it. Nothing is known
    of what lies above the topmost one. -/
def follow (above : List Node) : Node → List String → Except ReadFault Node
  | node, [] => .ok node
  | file _, _ :: _ => .error .notADirectory
  | directory entries, component :: more =>
    if component = "" ∨ component = "." then follow above (directory entries) more
    else if component = ".." then
      -- above the tree nothing is known, so nothing is found there
      match above with
      | parent :: others => follow others parent more
      | [] => follow [] (directory []) more
    else
      match entries.lookup component with
      | some node => follow (directory entries :: above) node more
      | none => .error .notFound

/-- The node that a path leads to from a directory. A path that starts at the root of the file
    system leads out of the tree. -/
def resolve (root : Node) (path : String) : Except ReadFault Node :=
  if path = "" then .error .notFound
  else if path.startsWith "/" then follow [] (directory []) (path.splitOn "/")
  else follow [] root (path.splitOn "/")

/-- The entries of a directory with one of them changed, or added at the end. -/
def setEntry (name : String) (change : Option Node → Node) :
    List (String × Node) → List (String × Node)
  | [] => [(name, change none)]
  | entry :: rest =>
    if entry.1 = name then (name, change (some entry.2)) :: rest
    else entry :: setEntry name change rest

/-- A tree with the node at a path changed, and with the directories above it made. -/
def alter (change : Option Node → Node) : List String → Option Node → Node
  | [], node? => change node?
  | component :: more, node? =>
    let entries := match node? with
      | some (directory entries) => entries
      | _ => []
    directory (setEntry component (alter change more) entries)

/-- The components of a path that name something. -/
def components (path : String) : List String :=
  (path.splitOn "/").filter fun component => component ≠ "" ∧ component ≠ "."

/-- A tree with a file written at a path. -/
def addFile (root : Node) (path : String) (content : ByteArray) : Node :=
  alter (fun _ => file content) (components path) (some root)

/-- A tree with a directory made at a path. -/
def addDirectory (root : Node) (path : String) : Node :=
  let make : Option Node → Node
    | some (directory entries) => directory entries
    | _ => directory []
  alter make (components path) (some root)

end Node

/-- A file name whose extension is `karel`. -/
def isProgramName (name : String) : Bool :=
  name.toList ≠ ".karel".toList && ".karel".toList.isSuffixOf name.toList

/-- The path of an entry of a directory. -/
def joinPath (directory name : String) : String :=
  if directory.toList.getLast? = some '/' then directory ++ name else directory ++ "/" ++ name

/-- Entries by ascending name. -/
def sortEntries {α : Type} (entries : List (String × α)) : List (String × α) :=
  entries.mergeSort fun first second => first.1 ≤ second.1

mutual

/-- The program files that a node with a given path and name holds, with their paths. A directory
    is walked in the order of its entries' names. -/
def Node.programs (path name : String) : Node → List (String × ByteArray)
  | .file content => if isProgramName name then [(path, content)] else []
  | .directory entries => (sortEntries (Node.entryPrograms path entries)).flatMap Prod.snd

/-- The program files that each entry of a directory holds, by the name of the entry. -/
def Node.entryPrograms (path : String) :
    List (String × Node) → List (String × List (String × ByteArray))
  | [] => []
  | (name, node) :: rest =>
    (name, node.programs (joinPath path name) name) :: Node.entryPrograms path rest

end

/-- The programs that one path asks for, each with its text: those in a directory, or else just
    what the path leads to. -/
def programsAt (files : Files) (path : String) : List (String × Except ReadFault String) :=
  match files path with
  | .ok (.directory entries) =>
    (Node.programs path "" (.directory entries)).map fun program =>
      (program.1, decodeText program.2)
  | .ok (.file content) => [(path, decodeText content)]
  | .error fault => [(path, .error fault)]

/-- The programs that a list of paths asks for, in order. -/
def collectPrograms (files : Files) (paths : List String) :
    List (String × Except ReadFault String) :=
  paths.flatMap (programsAt files)

end Karel
