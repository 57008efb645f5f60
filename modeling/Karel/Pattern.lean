import Karel.Pattern.Bracket

/-!
# Patterns

A value in a log filter may be a pattern, that is, a regular expression. No note of a command stands
in a span, so no value is ever matched, but a pattern that is not sound makes its directive void.

## Main definitions

- `PatternFault` — why a text is no sound pattern
- `PatternReader` — what is known of a pattern from its beginning
- `PatternReader.step?` — reads the next part of a pattern
- `PatternFault.ofText?` — the fault in a pattern

## Design notes

A pattern is read once, from the left. The groups that are open are kept in a list, each with the
mode outside of it, since flags hold until the group ends in which they stand.
-/

namespace Karel

/-- Why a text is no sound pattern. -/
inductive PatternFault where
  /-- The text is no pattern, or a part of it has no meaning. -/
  | invalid
  /-- The pattern asks where a word begins or ends in a script. -/
  | wordEdge
  deriving DecidableEq, Repr

/-- The report of a fault. -/
def PatternFault.message : PatternFault → String
  | invalid => "error building NFA"
  | wordEdge =>
    "unsupported regex feature for DFAs: cannot build DFAs for regexes with Unicode word "
      ++ "boundaries; switch to ASCII word boundaries, or heuristically enable Unicode word "
      ++ "boundaries or use a different regex engine"

/-- What is known of a group, or of a whole pattern, before its end. -/
structure PatternGroup where
  /-- How deep the alternatives nest that have been read. -/
  alternatives : List Nat
  /-- How deep the parts of the next alternative nest, the last part first. Flags have no depth, and
      they cannot be repeated. -/
  parts : List (Option Nat)
  deriving DecidableEq, Repr

namespace PatternGroup

/-- A group without parts. -/
def start : PatternGroup where
  alternatives := []
  parts := []

/-- How deep the last alternative nests. -/
def lastDepth (group : PatternGroup) : Nat :=
  nesting (group.parts.map (·.getD 0))

/-- How deep a group nests. -/
def depth (group : PatternGroup) : Nat :=
  nesting (group.lastDepth :: group.alternatives)

/-- A group after one more part. -/
def add (group : PatternGroup) (part : Option Nat) : PatternGroup :=
  { group with parts := part :: group.parts }

/-- A group after its last part has been repeated. -/
def repeatLast? (group : PatternGroup) : Option PatternGroup :=
  match group.parts with
  | some depth :: parts => some { group with parts := some (depth + 1) :: parts }
  | _ => none

/-- A group after the start of one more alternative. -/
def alternate (group : PatternGroup) : PatternGroup where
  alternatives := group.lastDepth :: group.alternatives
  parts := []

end PatternGroup

/-- What is known of a pattern from its beginning. -/
structure PatternReader where
  mode : PatternMode
  /-- The innermost group that is open, or the pattern itself. -/
  group : PatternGroup
  /-- The groups around it, each with the mode in it. -/
  outer : List (PatternMode × PatternGroup)
  /-- The names that groups have. -/
  names : List (List Char)
  /-- The pattern asks where a word begins or ends in a script. -/
  seesWords : Bool
  deriving DecidableEq, Repr

namespace PatternReader

/-- The start of a pattern. -/
def start : PatternReader where
  mode := .start
  group := .start
  outer := []
  names := []
  seesWords := false

/-- One more part has been read. -/
def add (reader : PatternReader) (depth : Nat) : PatternReader :=
  { reader with group := reader.group.add (some depth) }

/-- A group has been opened, with a mode of its own. -/
def openGroup (reader : PatternReader) (mode : PatternMode) : PatternReader :=
  { reader with mode, group := .start, outer := (reader.mode, reader.group) :: reader.outer }

/-- A group has been closed. -/
def closeGroup? (reader : PatternReader) : Option PatternReader :=
  match reader.outer with
  | [] => none
  | (mode, group) :: outer =>
    some { reader with mode, group := group.add (some (reader.group.depth + 1)), outer }

/-- The name of a group starts with a letter or an underscore. After it there may be digits, points
    and brackets as well. -/
def isName : List Char → Bool
  | [] => false
  | first :: rest =>
    (isLetter first || first = '_')
      && rest.all fun char => isAlphanumeric char || ['_', '.', '[', ']'].contains char

/-- Reads the name of a group and the bracket after it. No two groups have one name. -/
def readName? (reader : PatternReader) (text : List Char) : Option (PatternReader × List Char) :=
  let name := text.takeWhile (· ≠ '>')
  match text.dropWhile (· ≠ '>') with
  | [] => none
  | _ :: rest =>
    if isName name && !reader.names.contains name
    then some ({ reader with names := name :: reader.names }.openGroup reader.mode, rest) else none

/-- Reads flags and the character after them: a colon before the parts of a group in which they
    hold, or the end of the parenthesis if they hold from here on. -/
def readFlags? (reader : PatternReader) (text : List Char) : Option (PatternReader × List Char) :=
  let flags := text.takeWhile fun char => char ≠ ':' && char ≠ ')'
  match reader.mode.withFlags? flags, text.drop flags.length with
  | some mode, ':' :: rest => some (reader.openGroup mode, rest)
  | some mode, ')' :: rest =>
    if flags.isEmpty then none
    else some ({ reader with mode, group := reader.group.add none }, rest)
  | _, _ => none

/-- Reads what follows an opening parenthesis, up to the parts of the group. -/
def readParenthesis? (reader : PatternReader) (text : List Char) :
    Option (PatternReader × List Char) :=
  match reader.mode.skip text with
  | '?' :: 'P' :: '<' :: text | '?' :: '<' :: text => reader.readName? text
  | '?' :: text => reader.readFlags? text
  | text => some (reader.openGroup reader.mode, text)

/-- What is known after a smallest part. -/
def addAtom? (reader : PatternReader) : PatternAtom → Option PatternReader
  | .char _ => if reader.mode.admitsChars then some (reader.add 0) else none
  | .kind | .textEdge => some (reader.add 0)
  | .wordEdge => some { reader.add 0 with seesWords := reader.seesWords || reader.mode.unicode }

/-- Reads the next part of a pattern. A question mark right after a repetition belongs to it. -/
def step? (reader : PatternReader) : List Char → Option (PatternReader × List Char)
  | [] => none
  | char :: text =>
    match char with
    | '(' => reader.readParenthesis? text
    | ')' => reader.closeGroup?.map (·, text)
    | '|' => some ({ reader with group := reader.group.alternate }, text)
    | '[' => (reader.mode.readBracket text).map fun (depth, text) => (reader.add depth, text)
    | '?' | '*' | '+' =>
      reader.group.repeatLast?.map fun group =>
        ({ reader with group }, if text.head? = some '?' then text.drop 1 else text)
    | '\x7b' => none
    | '.' => if reader.mode.unicode then some (reader.add 0, text) else none
    | '^' | '$' => some (reader.add 0, text)
    | '\\' =>
      match reader.mode.readEscape text with
      | some (atom, text) => (reader.addAtom? atom).map (·, text)
      | none => none
    | char => (reader.addAtom? (.char char)).map (·, text)

/-- Reads a pattern up to its end. Each step reads a character at least, and `fuel` is more than there
    are. -/
def run? (reader : PatternReader) (fuel : Nat) (text : List Char) : Option PatternReader :=
  match fuel with
  | 0 => none
  | fuel + 1 =>
    match reader.mode.skip text with
    | [] => some reader
    | text =>
      match reader.step? text with
      | some (reader, text) => run? reader fuel text
      | none => none

end PatternReader

/-- How deep a pattern may nest. -/
def patternMaxDepth : Nat := 250

/-- The fault in a pattern, if there is one. Where words begin and end is looked at last. -/
def PatternFault.ofText? (text : String) : Option PatternFault :=
  match PatternReader.start.run? (text.length + 1) text.toList with
  | none => some .invalid
  | some reader =>
    if !reader.outer.isEmpty || patternMaxDepth < reader.group.depth then some .invalid
    else if reader.seesWords then some .wordEdge
    else none

end Karel
