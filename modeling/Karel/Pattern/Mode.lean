import Karel.Alphanumeric

/-!
# Modes of a pattern

What the flags in a pattern change about the way the pattern is read.

## Main definitions

- `PatternMode` — what the flags have turned on
- `PatternMode.withFlags?` — the mode after further flags
- `PatternMode.skip` — leaves out what separates the parts of a pattern
- `PatternMode.afterDash?` — the character that decides what a dash means

## Design notes

Of the seven flags only three matter for whether a pattern is sound. The others change what a pattern
matches.
-/

namespace Karel

/-- The way in which a pattern is read. -/
structure PatternMode where
  /-- Capital and small letters are the same. -/
  ignoresCase : Bool
  /-- The pattern is about characters, not about bytes. -/
  unicode : Bool
  /-- Blanks and comments between the parts of the pattern count for nothing. -/
  spaced : Bool
  deriving DecidableEq, Repr

namespace PatternMode

/-- The mode at the start of a pattern. -/
def start : PatternMode where
  ignoresCase := false
  unicode := true
  spaced := false

/-- What may stand among flags: the flags, and a minus sign before those that are turned off. -/
def flagChars : List Char :=
  ['i', 'm', 's', 'U', 'u', 'R', 'x', '-']

/-- Flags are written at most once each, and something is turned off after a minus sign. -/
def areFlags (flags : List Char) : Bool :=
  flags.all flagChars.contains && flags.Nodup && flags.getLast? ≠ some '-'

/-- What flags say about one of them, if they mention it. -/
def setting? (flags : List Char) (flag : Char) : Option Bool :=
  if flags.contains flag then some (!(flags.takeWhile (· ≠ flag)).contains '-') else none

/-- The mode after further flags. -/
def withFlags? (mode : PatternMode) (flags : List Char) : Option PatternMode :=
  if areFlags flags then some {
    ignoresCase := (setting? flags 'i').getD mode.ignoresCase
    unicode := (setting? flags 'u').getD mode.unicode
    spaced := (setting? flags 'x').getD mode.spaced }
  else none

/-- A text without the blanks and the comments at its start. A comment ends with its line. -/
def dropSpace (inComment : Bool) : List Char → List Char
  | [] => []
  | char :: text =>
    if inComment then dropSpace (char ≠ '\n') text
    else if isBlank char then dropSpace false text
    else if char = '#' then dropSpace true text
    else char :: text

/-- A text from the next character on that is part of the pattern. -/
def skip (mode : PatternMode) (text : List Char) : List Char :=
  if mode.spaced then dropSpace false text else text

/-- The character after a dash that decides whether the dash stands for a range. Of a comment only
    the mark at its start is left out. -/
def afterDash? (mode : PatternMode) (text : List Char) : Option Char :=
  if mode.spaced then
    match text.dropWhile isBlank with
    | '#' :: text => (text.dropWhile isBlank).head?
    | text => text.head?
  else text.head?

/-- Characters that stand for themselves can be matched, unless every case of a character counts: no
    case is known of characters, only of bytes. -/
def admitsChars (mode : PatternMode) : Bool :=
  !(mode.unicode && mode.ignoresCase)

end PatternMode

end Karel
