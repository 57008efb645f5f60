import Karel.Pattern.Escape

/-!
# Brackets in a pattern

A pair of brackets describes a set of characters, of which a pattern matches any one. Its parts are
characters, ranges, kinds and further brackets, and operators may stand between them.

## Main definitions

- `nesting` — how deep parts nest that stand side by side
- `OpenBracket` — a bracket whose end has not been read
- `PatternMode.readBracket` — reads a pair of brackets

## Design notes

Only soundness and depth of the set are found, not its characters. At the start of a bracket dashes
stand for themselves, and so does a closing bracket with nothing before it.
-/

namespace Karel

/-- How deep parts nest that stand side by side. A part alone stands for itself. -/
def nesting : List Nat → Nat
  | [] => 0
  | [depth] => depth
  | depths => depths.foldl max 0 + 1

/-- What is known of a bracket before its end. -/
structure OpenBracket where
  /-- How deep the set before the last operator nests, if there is one. -/
  before? : Option Nat
  /-- How deep the parts after it nest. -/
  parts : List Nat
  /-- Nothing but dashes has been read. -/
  isFresh : Bool
  deriving DecidableEq, Repr

namespace OpenBracket

/-- A bracket without parts. -/
def start : OpenBracket where
  before? := none
  parts := []
  isFresh := true

/-- A bracket after one more part. -/
def add (bracket : OpenBracket) (depth : Nat) : OpenBracket :=
  { bracket with parts := depth :: bracket.parts, isFresh := false }

/-- A bracket after one more dash at its start. -/
def addDash (bracket : OpenBracket) : OpenBracket :=
  { bracket with parts := 0 :: bracket.parts }

/-- How deep the set nests that has been described so far. -/
def depth (bracket : OpenBracket) : Nat :=
  match bracket.before? with
  | some before => max before (nesting bracket.parts) + 1
  | none => nesting bracket.parts

/-- A bracket after an operator. -/
def operate (bracket : OpenBracket) : OpenBracket where
  before? := some bracket.depth
  parts := []
  isFresh := false

end OpenBracket

namespace PatternMode

/-- The names of the kinds of ASCII characters. -/
def kindNames : List String :=
  ["alnum", "alpha", "ascii", "blank", "cntrl", "digit", "graph", "lower", "print", "punct",
   "space", "upper", "word", "xdigit"]

/-- Reads the name of a kind after a bracket, and whether the opposite of the kind is meant. -/
def readKind? : List Char → Option (Bool × List Char)
  | ':' :: text =>
    let isOpposite := text.head? = some '^'
    let text := if isOpposite then text.drop 1 else text
    match text.dropWhile (· ≠ ':') with
    | ':' :: ']' :: rest =>
      if kindNames.contains (String.ofList (text.takeWhile (· ≠ ':'))) then some (isOpposite, rest)
      else none
    | _ => none
  | _ => none

/-- A character may be part of a set. In a pattern about bytes it has to be a byte. -/
def admitsMember (mode : PatternMode) (char : Char) : Bool :=
  mode.admitsChars && (mode.unicode || char.toNat < 128)

/-- Reads one end of a range, or what stands for itself. -/
def readMember (mode : PatternMode) : List Char → Option (PatternAtom × List Char)
  | [] => none
  | '\\' :: text => mode.readEscape text
  | char :: text => some (.char char, text)

/-- A range goes from a character to the same or a later one. -/
def isRange (mode : PatternMode) : PatternAtom → PatternAtom → Bool
  | .char first, .char last =>
    first ≤ last && mode.admitsMember first && mode.admitsMember last
  | _, _ => false

/-- A part of a set that stands for itself: a character or a kind, but no place. -/
def isMember (mode : PatternMode) : PatternAtom → Bool
  | .char char => mode.admitsMember char
  | .kind => true
  | .textEdge | .wordEdge => false

/-- Reads a range or what stands for itself. A dash before another one or before the closing bracket
    does not stand for a range. -/
def readRange (mode : PatternMode) (text : List Char) : Option (List Char) :=
  match mode.readMember text with
  | none => none
  | some (first, text) =>
    let single := if mode.isMember first then some text else none
    match mode.skip text with
    | '-' :: text =>
      if mode.afterDash? text = some ']' || mode.afterDash? text = some '-' then single
      else match mode.readMember (mode.skip text) with
        | some (last, text) => if mode.isRange first last then some text else none
        | none => none
    | _ => single

/-- Reads what stands between an opening bracket and the parts of the set: nothing, or the sign for
    the opposite of the set. The opposite of a set of bytes is not a set of characters. -/
def openBracket (mode : PatternMode) (text : List Char) : Option (List Char) :=
  match mode.skip text with
  | '^' :: text => if mode.unicode then some text else none
  | text => some text

/-- Reads on in a bracket that stands in others, up to the end of the outermost one. The answer is
    how deep its set nests, and the text after it. Each step reads a character at least, and `fuel`
    is more than there are. -/
def readBracketFrom (mode : PatternMode) (fuel : Nat) (bracket : OpenBracket)
    (outer : List OpenBracket) (text : List Char) : Option (Nat × List Char) :=
  match fuel with
  | 0 => none
  | fuel + 1 =>
    let text := mode.skip text
    if bracket.isFresh && text.head? = some '-' then
      if mode.admitsMember '-' then readBracketFrom mode fuel bracket.addDash outer (text.drop 1)
      else none
    else if bracket.isFresh && bracket.parts.isEmpty && text.head? = some ']' then
      if mode.admitsMember ']' then readBracketFrom mode fuel (bracket.add 0) outer (text.drop 1)
      else none
    else match text with
      | [] => none
      | ']' :: text =>
        match outer with
        | [] => some (bracket.depth + 1, text)
        | next :: outer => readBracketFrom mode fuel (next.add (bracket.depth + 1)) outer text
      | '&' :: '&' :: text | '-' :: '-' :: text | '~' :: '~' :: text =>
        readBracketFrom mode fuel bracket.operate outer text
      | '[' :: text =>
        match readKind? text with
        | some (isOpposite, text) =>
          if mode.admitsChars && (mode.unicode || !isOpposite)
          then readBracketFrom mode fuel (bracket.add 0) outer text else none
        | none =>
          match mode.openBracket text with
          | some text => readBracketFrom mode fuel .start (bracket :: outer) text
          | none => none
      | text =>
        match mode.readRange text with
        | some text => readBracketFrom mode fuel (bracket.add 0) outer text
        | none => none

/-- Reads what follows an opening bracket, up to the bracket that closes it. -/
def readBracket (mode : PatternMode) (text : List Char) : Option (Nat × List Char) :=
  match mode.openBracket text with
  | some rest => readBracketFrom mode (text.length + 1) .start [] rest
  | none => none

end PatternMode

end Karel
