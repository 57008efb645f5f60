import Karel.Hexadecimal
import Karel.Json.Fault

/-!
# Reading JSON

Readers of strict JSON text. A reader takes the beginning of a text and answers with what it read
and with the rest, or with the first fault in the text.

## Main definitions

- `Json.skipSpace` — leaves out the white space that JSON allows between tokens
- `Json.readString` — reads a string up to its closing quote
- `Json.skipNumber`, `Json.skipStringTail`, `Json.skipValue` — pass over a value of no interest
- `Json.faultAt` — the fault in a value that is not of the expected kind
- `Json.readStrings` — reads an array of strings

## Design notes

A string that is read has to denote a text, so half of a surrogate pair is refused there. A string
that is passed over only has to be well formed, and in it each half may stand alone.
-/

namespace Karel

namespace Json

/-- The white space of JSON. -/
def isSpace (char : Char) : Bool :=
  char = ' ' || char = '\n' || char = '\r' || char = '\t'

/-- A text without the white space at its start. -/
def skipSpace (text : List Char) : List Char :=
  text.dropWhile isSpace

/-- The code unit that four hexadecimal digits denote. -/
def codeUnit? (a b c d : Char) : Option Nat := do
  let a ← hexValue? a
  let b ← hexValue? b
  let c ← hexValue? c
  let d ← hexValue? d
  some (((a * 16 + b) * 16 + c) * 16 + d)

/-- A code unit that opens a surrogate pair. -/
def isHighSurrogate (unit : Nat) : Bool :=
  0xD800 ≤ unit && unit < 0xDC00

/-- A code unit that closes a surrogate pair. -/
def isLowSurrogate (unit : Nat) : Bool :=
  0xDC00 ≤ unit && unit < 0xE000

/-- The character that a surrogate pair denotes. -/
def ofSurrogates (high low : Nat) : Char :=
  Char.ofNat (0x10000 + (high - 0xD800) * 0x400 + (low - 0xDC00))

/-- The character that a one-letter escape denotes. -/
def unescape? : Char → Option Char
  | '"' => some '"'
  | '\\' => some '\\'
  | '/' => some '/'
  | 'b' => some '\x08'
  | 'f' => some '\x0c'
  | 'n' => some '\n'
  | 'r' => some '\r'
  | 't' => some '\t'
  | _ => none

/-- Adds a character to a text that was read. -/
def consRead (char : Char) :
    Except Fault (List Char × List Char) → Except Fault (List Char × List Char)
  | .ok (text, rest) => .ok (char :: text, rest)
  | .error fault => .error fault

/-- The fault in what should be four hexadecimal digits. They are taken as four bytes, whatever
    these are. -/
def digitsFault (text : List Char) : Fault :=
  if (utf8Bytes text).length < 4 then .atEnd .openString
  else { cause := .badEscape, ahead := text, seen := 4 }

/-- The fault in an escape after its backslash. -/
def escapeFault : List Char → Fault
  | [] => .atEnd .openString
  | 'u' :: digits => digitsFault digits
  | text => .next .badEscape text

/-- The fault in what should be the escape of the second half of a surrogate pair. -/
def secondHalfFault : List Char → Fault
  | [] => .atEnd .openString
  | '\\' :: [] => .atEnd .openString
  | '\\' :: 'u' :: digits => digitsFault digits
  | '\\' :: text => .next .halfPair text
  | text => .next .halfPair text

/-- Reads the inside of a string and its closing quote. -/
def readStringTail : List Char → Except Fault (List Char × List Char)
  | [] => .error (.atEnd .openString)
  | '"' :: rest => .ok ([], rest)
  | '\\' :: 'u' :: a :: b :: c :: d :: rest =>
    match codeUnit? a b c d with
    | none => .error (digitsFault (a :: b :: c :: d :: rest))
    | some unit =>
      if isHighSurrogate unit then
        -- half a character: the other half has to follow at once
        match rest with
        | '\\' :: 'u' :: e :: f :: g :: h :: more =>
          match codeUnit? e f g h with
          | none => .error (digitsFault (e :: f :: g :: h :: more))
          | some low =>
            if isLowSurrogate low then consRead (ofSurrogates unit low) (readStringTail more)
            else .error (.before .loneSurrogate more)
        | other => .error (secondHalfFault other)
      else if isLowSurrogate unit then .error (.before .loneSurrogate rest)
      else consRead (Char.ofNat unit) (readStringTail rest)
  | '\\' :: char :: rest =>
    match unescape? char with
    | none => .error (escapeFault (char :: rest))
    | some char => consRead char (readStringTail rest)
  | char :: rest =>
    if char.toNat < 32 then .error (.next .controlCharacter (char :: rest))
    else consRead char (readStringTail rest)

/-- Passes over the inside of a string and its closing quote. -/
def skipStringTail : List Char → Except Fault (List Char)
  | [] => .error (.atEnd .openString)
  | '"' :: rest => .ok rest
  | '\\' :: 'u' :: a :: b :: c :: d :: rest =>
    match codeUnit? a b c d with
    | none => .error (digitsFault (a :: b :: c :: d :: rest))
    | some _ => skipStringTail rest
  | '\\' :: char :: rest =>
    match unescape? char with
    | none => .error (escapeFault (char :: rest))
    | some _ => skipStringTail rest
  | char :: rest =>
    if char.toNat < 32 then .error (.before .controlCharacter (char :: rest))
    else skipStringTail rest

/-- Passes over a run of at least one digit. -/
def skipDigits : List Char → Except Fault (List Char)
  | char :: rest =>
    if char.isDigit then .ok (rest.dropWhile Char.isDigit)
    else .error (.next .badNumber (char :: rest))
  | [] => .error (.atEnd .badNumber)

/-- Passes over the whole part of a number, which has no needless zero at its start. -/
def skipWhole : List Char → Except Fault (List Char)
  | '0' :: char :: rest =>
    if char.isDigit then .error (.next .badNumber (char :: rest)) else .ok (char :: rest)
  | '0' :: [] => .ok []
  | text => skipDigits text

/-- Passes over the fraction of a number, if there is one. -/
def skipFraction : List Char → Except Fault (List Char)
  | '.' :: rest => skipDigits rest
  | text => .ok text

/-- Passes over the exponent of a number, if there is one. -/
def skipExponent : List Char → Except Fault (List Char)
  | char :: rest =>
    if char = 'e' ∨ char = 'E' then
      match rest with
      | '+' :: more => skipDigits more
      | '-' :: more => skipDigits more
      | more => skipDigits more
    else .ok (char :: rest)
  | [] => .ok []

/-- Passes over a number. -/
def skipNumber (text : List Char) : Except Fault (List Char) :=
  let unsigned := match text with
    | '-' :: rest => rest
    | _ => text
  (skipWhole unsigned).bind fun rest => (skipFraction rest).bind skipExponent

/-- Passes over the rest of a fixed word. -/
def skipWord : List Char → List Char → Except Fault (List Char)
  | [], text => .ok text
  | char :: word, head :: rest =>
    if char = head then skipWord word rest else .error (.next .expectedWord (head :: rest))
  | _ :: _, [] => .error (.atEnd .noValue)

/-- A character that a number may begin with. -/
def startsNumber (char : Char) : Bool :=
  char = '-' || char.isDigit

mutual

/-- Passes over a value, with white space before it. The bound limits the depth and the number of
    values passed over. -/
def skipValueWithin : Nat → List Char → Except Fault (List Char)
  | 0, text => .error (.before .noValue text)
  | bound + 1, text =>
    match skipSpace text with
    | '"' :: rest => skipStringTail rest
    | '[' :: rest =>
      match skipSpace rest with
      | ']' :: more => .ok more
      | [] => .error (.atEnd .openArray)
      | more => skipItemsWithin bound more
    | '\x7b' :: rest =>
      match skipSpace rest with
      | '\x7d' :: more => .ok more
      | more => skipFieldsWithin bound more
    | 'n' :: rest => skipWord ['u', 'l', 'l'] rest
    | 't' :: rest => skipWord ['r', 'u', 'e'] rest
    | 'f' :: rest => skipWord ['a', 'l', 's', 'e'] rest
    | [] => .error (.atEnd .noValue)
    | char :: rest =>
      if startsNumber char then skipNumber (char :: rest)
      else .error (.next .expectedValue (char :: rest))

/-- Passes over at least one item of an array and the bracket that closes it. -/
def skipItemsWithin : Nat → List Char → Except Fault (List Char)
  | 0, text => .error (.before .noValue text)
  | bound + 1, text =>
    match skipValueWithin bound text with
    | .error fault => .error fault
    | .ok rest =>
      match skipSpace rest with
      | ',' :: more => skipItemsWithin bound more
      | ']' :: more => .ok more
      | [] => .error (.atEnd .openArray)
      | other => .error (.next .expectedItemEnd other)

/-- Passes over at least one field of an object and the brace that closes it. -/
def skipFieldsWithin : Nat → List Char → Except Fault (List Char)
  | 0, text => .error (.before .noValue text)
  | bound + 1, text =>
    match skipSpace text with
    | '"' :: key =>
      match (skipStringTail key).map skipSpace with
      | .error fault => .error fault
      | .ok (':' :: value) =>
        match skipValueWithin bound value with
        | .error fault => .error fault
        | .ok rest =>
          match skipSpace rest with
          | ',' :: more => skipFieldsWithin bound more
          | '\x7d' :: more => .ok more
          | [] => .error (.atEnd .openObject)
          | other => .error (.next .expectedFieldEnd other)
      | .ok [] => .error (.atEnd .openObject)
      | .ok other => .error (.next .expectedColon other)
    | [] => .error (.atEnd .openObject)
    | other => .error (.next .keyNotString other)

end

/-- Passes over a value, with white space before it. Every value and every item takes at least one
    character, so the bound is never reached. -/
def skipValue (text : List Char) : Except Fault (List Char) :=
  skipValueWithin (2 * text.length + 2) text

/-- The fault that a value shows which is not of the expected kind: its own first fault if it has one.
    Of an array and an object only the opening bracket is looked at. -/
def faultAt (expected : String) (text : List Char) : Fault :=
  let word (tail : List Char) (found : Found) (rest : List Char) :=
    match skipWord tail rest with
    | .ok rest => Fault.before (.wrongKind found expected) rest
    | .error fault => fault
  match text with
  | [] => .atEnd .noValue
  | 'n' :: rest => word ['u', 'l', 'l'] .null rest
  | 't' :: rest => word ['r', 'u', 'e'] (.boolean true) rest
  | 'f' :: rest => word ['a', 'l', 's', 'e'] (.boolean false) rest
  | '"' :: rest =>
    match readStringTail rest with
    | .ok (text, rest) => .before (.wrongKind (.string (String.ofList text)) expected) rest
    | .error fault => fault
  | '[' :: _ => .before (.wrongKind .array expected) text
  | '\x7b' :: _ => .before (.wrongKind .object expected) text
  | char :: _ =>
    if startsNumber char then
      match skipNumber text with
      | .ok rest =>
        let number := NumberText.ofText (text.take (text.length - rest.length))
        match Found.ofNumber number with
        | some found => .before (.wrongKind found expected) rest
        | none => .before .hugeNumber (digitsBeyond 0 number.power ++ rest)
      -- a number that ends with the text could still go on
      | .error fault => if fault.ahead.isEmpty then .atEnd .noValue else fault
    else .next .expectedValue text

/-- Reads a string. -/
def readString : List Char → Except Fault (String × List Char)
  | '"' :: rest => (readStringTail rest).map fun (text, rest) => (String.ofList text, rest)
  | other => .error (faultAt "a string" other)

/-- Reads what follows an item of an array and its comma, up to the next item. -/
def nextItem (text : List Char) : Except Fault (List Char) :=
  match skipSpace text with
  | ']' :: more => .error (.next .trailingComma (']' :: more))
  | [] => .error (.atEnd .noValue)
  | other => .ok other

/-- Reads the strings of an array that has at least one, and the bracket that closes it. -/
def readStringItems : Nat → List Char → Except Fault (List String × List Char)
  | 0, text => .error (.before .noValue text)
  | bound + 1, text =>
    match readString text with
    | .error fault => .error fault
    | .ok (item, rest) =>
      match skipSpace rest with
      | ',' :: more =>
        (nextItem more).bind fun next =>
          (readStringItems bound next).map fun (items, rest) => (item :: items, rest)
      | ']' :: more => .ok ([item], more)
      | [] => .error (.atEnd .openArray)
      | other => .error (.next .expectedItemEnd other)

/-- Reads an array of strings, with white space before it. -/
def readStrings (text : List Char) : Except Fault (List String × List Char) :=
  match skipSpace text with
  | '[' :: rest =>
    match skipSpace rest with
    | ']' :: more => .ok ([], more)
    | [] => .error (.atEnd .openArray)
    | more => readStringItems (more.length + 1) more
  | other => .error (faultAt "a sequence" other)

end Json

end Karel
