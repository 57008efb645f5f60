import Karel.Hexadecimal
import Karel.Pattern.Mode

/-!
# Escapes in a pattern

What a backslash and the characters after it stand for.

## Main definitions

- `PatternAtom` — a smallest part of a pattern
- `PatternMode.readEscape` — reads what follows a backslash

## Design notes

No table of characters is at hand. The kinds of characters, digits for example, are known only of
bytes, and then the opposite of a kind is not a set of characters.
-/

namespace Karel

/-- What a smallest part of a pattern matches. -/
inductive PatternAtom where
  /-- One character. -/
  | char (value : Char)
  /-- Any character of a kind. -/
  | kind
  /-- The start or the end of the text. -/
  | textEdge
  /-- A place that is told by whether there are words beside it. -/
  | wordEdge
  deriving DecidableEq, Repr

namespace PatternMode

/-- Reads a number of so many hexadecimal digits, after the digits of a value. -/
def readDigits (mode : PatternMode) : Nat → Nat → List Char → Option (Nat × List Char)
  | 0, value, text => some (value, text)
  | count + 1, value, text =>
    match mode.skip text with
    | [] => none
    | char :: text =>
      match hexValue? char with
      | some digit => readDigits mode count (16 * value + digit) text
      | none => none

/-- Reads the number of a character. In a pattern about bytes a number of two digits denotes a byte,
    and that is a character only in the first half. -/
def readCode (mode : PatternMode) (count : Nat) (text : List Char) :
    Option (PatternAtom × List Char) :=
  match mode.readDigits count 0 text with
  | some (value, text) =>
    if value.isValidChar && (mode.unicode || count ≠ 2 || value < 128)
    then some (.char (Char.ofNat value), text) else none
  | none => none

/-- Reads what follows a backslash. A letter or a digit without a meaning of its own is refused, any
    other ASCII character stands for itself. -/
def readEscape (mode : PatternMode) : List Char → Option (PatternAtom × List Char)
  | [] => none
  | char :: text =>
    match char with
    | 'x' => mode.readCode 2 text
    | 'u' => mode.readCode 4 text
    | 'U' => mode.readCode 8 text
    | 'd' | 's' | 'w' => if mode.unicode then none else some (.kind, text)
    | 'a' => some (.char '\x07', text)
    | 'f' => some (.char '\x0c', text)
    | 'n' => some (.char '\n', text)
    | 'r' => some (.char '\r', text)
    | 't' => some (.char '\t', text)
    | 'v' => some (.char '\x0b', text)
    | 'A' | 'z' => some (.textEdge, text)
    | 'b' | 'B' | '<' | '>' => some (.wordEdge, text)
    | char => if char.isAlphanum || 128 ≤ char.toNat then none else some (.char char, text)

end PatternMode

end Karel
