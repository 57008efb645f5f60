import Karel.Alphanumeric
import Karel.Log
import Karel.Pattern

/-!
# Log filters

Which of the notes of a command are shown. A filter is written as directives with commas between
them, and a directive as `target[span{field=value}]=level`, of which most parts may be missing.

## Main definitions

- `LogDirective` — a level for the notes of a certain kind
- `LogDirectiveFault` — why a text is no directive
- `LogDirective.ofText` — the directive that a text stands for
- `LogFilter.ofText` — the directives in a list of them
- `LogFilter.ignoredText` — the report on the texts in a list that are no directives
- `LogFilter.shows` — whether a note is shown

## Design notes

The parts of a directive are found in the text without the blanks around it, but they are taken from
the text with the blanks, at the same distance from the start. Distances are counted in bytes. A
blank at the end therefore belongs to the last part. A blank at the start moves each part by the
bytes of the blank, so that what is then taken for a level is none, and what is taken for a target is
none of a note.

A fault in the value of a field is found when the field ends, before what follows it is looked at.
-/

namespace Karel

/-- A level for notes of a certain kind. -/
structure LogDirective where
  /-- How the targets of the notes begin. -/
  target : String
  /-- A field that the notes have, if that matters. -/
  field? : Option String
  /-- The notes are those inside of certain spans only. No command opens a span. -/
  inSpan : Bool
  /-- The notes are shown up to this level. -/
  limit : Verbosity
  deriving DecidableEq, Repr

/-- Why a text is no directive. -/
inductive LogDirectiveFault where
  /-- The parts of a directive are missing or out of order. -/
  | malformed
  /-- What stands for the value of a field is none. -/
  | badValue (fault : PatternFault)
  /-- What stands for the level is none. -/
  | unknownLevel
  deriving DecidableEq, Repr

/-- The report of a fault. -/
def LogDirectiveFault.message : LogDirectiveFault → String
  | malformed => "invalid filter directive"
  | badValue fault => "invalid field filter: " ++ fault.message
  | unknownLevel =>
    "error parsing level filter: expected one of \"off\", \"error\", \"warn\", \"info\", "
      ++ "\"debug\", \"trace\", or a number 0-5"

/-- A place in the text of a directive. -/
structure DirectivePlace where
  /-- What follows without the blanks around the text, by which the parts are told apart. -/
  trimmed : List Char
  /-- What follows as it was given, from which the parts are taken. -/
  given : List Char

namespace DirectivePlace

/-- The start of a text. -/
def start (text : String) : DirectivePlace where
  trimmed := ((text.toList.dropWhile isBlank).reverse.dropWhile isBlank).reverse
  given := text.toList

/-- The number of bytes in a text. -/
def byteCount (text : List Char) : Nat :=
  text.foldl (fun count char => count + char.utf8Size) 0

/-- The first bytes of a text, as far as they are needed to complete a character. -/
def takeBytes (count : Nat) : List Char → List Char
  | [] => []
  | char :: text => if count = 0 then [] else char :: takeBytes (count - char.utf8Size) text

/-- A text without its first bytes, and without the rest of the character in which they end. -/
def dropBytes (count : Nat) : List Char → List Char
  | [] => []
  | char :: text => if count = 0 then char :: text else dropBytes (count - char.utf8Size) text

/-- A place after some of the characters without blanks around them. -/
def skip (place : DirectivePlace) (count : Nat) : DirectivePlace where
  trimmed := place.trimmed.drop count
  given := dropBytes (byteCount (place.trimmed.take count)) place.given

/-- The text up to the first of some characters, and the place of that character. -/
def upTo (place : DirectivePlace) (ends : List Char) : String × DirectivePlace :=
  let found := place.trimmed.takeWhile fun char => !ends.contains char
  (String.ofList (takeBytes (byteCount found) place.given), place.skip found.length)

/-- All text from a place on. -/
def rest (place : DirectivePlace) : String :=
  String.ofList place.given

end DirectivePlace

namespace LogDirective

/-- The directive for all notes up to a level. -/
def ofLimit (limit : Verbosity) : LogDirective where
  target := ""
  field? := none
  inSpan := false
  limit := limit

/-- The directive for all notes of a target, whatever their level. -/
def ofTarget (target : String) : LogDirective where
  target := target
  field? := none
  inSpan := false
  limit := .trace

/-- A character that may stand at the start of a target. -/
def startsTarget (char : Char) : Bool :=
  isAlphanumeric char || char = '-' || char = ':' || char = '_'

/-- The directive with the level that is written at a place. An empty text stands for the most
    verbose one. -/
def withLevel (directive : LogDirective) (place : DirectivePlace) :
    Except LogDirectiveFault LogDirective :=
  if place.rest = "" then .ok { directive with limit := .trace }
  else match Verbosity.ofText? place.rest with
    | some limit => .ok { directive with limit }
    | none => .error .unknownLevel

/-- The directive with what follows the bracket that closes a span: nothing or a level. -/
def afterSpan (directive : LogDirective) (place : DirectivePlace) :
    Except LogDirectiveFault LogDirective :=
  match place.trimmed with
  | [] => .ok directive
  | '=' :: _ => directive.withLevel (place.skip 1)
  | _ => .error .malformed

/-- Decimal digits, and at least one. -/
def isDigits (text : List Char) : Bool :=
  !text.isEmpty && text.all Char.isDigit

/-- A text without the sign at its start. -/
def unsigned : List Char → List Char
  | '+' :: text | '-' :: text => text
  | text => text

/-- What may follow the digits of a number: nothing or an exponent. -/
def isExponent : List Char → Bool
  | [] => true
  | char :: text => (char = 'e' || char = 'E') && isDigits (unsigned text)

/-- A text denotes a number: digits with a point before, between or after them or without one, and an
    exponent if there is need, or else one of the names of infinity and of what is no number. -/
def isNumber (text : List Char) : Bool :=
  let text := unsigned text
  let whole := text.takeWhile Char.isDigit
  let (fraction, rest) := match text.dropWhile Char.isDigit with
    | '.' :: rest => (rest.takeWhile Char.isDigit, rest.dropWhile Char.isDigit)
    | rest => ([], rest)
  isDigits (whole ++ fraction) && isExponent rest
    || ["inf", "infinity", "nan"].contains (String.ofList (text.map Char.toLower))

/-- The fault in a field. Its value, between the first equals sign and the next, is a pattern unless
    it is a number. -/
def valueFault? (field : String) : Option PatternFault :=
  match field.splitOn "=" with
  | _ :: value :: _ => if isNumber value.toList then none else PatternFault.ofText? value
  | _ => none

/-- The directive with what follows the brace that opens the field of a span. A field whose value
    matters is looked for in spans only. -/
def withField (directive : LogDirective) (place : DirectivePlace) :
    Except LogDirectiveFault LogDirective :=
  let (field, ending) := place.upTo ['\x7d']
  match ending.trimmed with
  | '\x7d' :: rest =>
    if field = "" then .error .malformed
    else match valueFault? field, rest with
      | some fault, _ => .error (.badValue fault)
      | none, ']' :: _ =>
        let directive :=
          if field.contains '=' then { directive with inSpan := true }
          else { directive with field? := some field }
        directive.afterSpan (ending.skip 2)
      | none, _ => .error .malformed
  | _ => .error .malformed

/-- The directive with what follows the bracket that opens a span: a name, a field in braces, or
    both, and the closing bracket. -/
def withSpan (directive : LogDirective) (place : DirectivePlace) :
    Except LogDirectiveFault LogDirective :=
  let (name, ending) := place.upTo [']', '\x7b']
  match ending.trimmed with
  | ']' :: _ => { directive with inSpan := true }.afterSpan (ending.skip 1)
  | '\x7b' :: _ => { directive with inSpan := name ≠ "" }.withField (ending.skip 1)
  | _ => .error .malformed

/-- The directive that a text stands for. A word alone is a level or else a target. -/
def ofText (text : String) : Except LogDirectiveFault LogDirective :=
  let place := DirectivePlace.start text
  let (target, ending) := place.upTo ['=', '[']
  match place.trimmed.head? with
  | none => .error .malformed
  | some head =>
    if head ≠ '[' && !startsTarget head then .error .malformed
    else match ending.trimmed with
      | '=' :: _ => (ofTarget target).withLevel (ending.skip 1)
      | '[' :: _ => (ofTarget target).withSpan (ending.skip 1)
      | _ => match Verbosity.ofText? text with
        | some limit => .ok (ofLimit limit)
        | none => .ok (ofTarget text)

/-- A directive is about a note if the target and the fields of the note fit. -/
def fits (directive : LogDirective) (event : Event) : Bool :=
  !directive.inSpan && event.target.startsWith directive.target
    && directive.field?.all event.fields.contains

/-- A directive gives way to a later one, unless it has a longer target, or an equally long one and
    a field that the later one lacks or that comes after its field. -/
def givesWay (directive later : LogDirective) : Bool :=
  directive.target.length < later.target.length
    || (directive.target.length = later.target.length
      && !(later.field?.getD "" < directive.field?.getD ""))

end LogDirective

/-- The levels up to which notes are shown. -/
abbrev LogFilter := List LogDirective

namespace LogFilter

/-- The texts between the commas of a list of directives, without the empty ones. -/
def parts (text : String) : List String :=
  (text.splitOn ",").filter (· ≠ "")

/-- The filter that a list of directives stands for. What is no directive is left out, and if nothing
    remains, only errors are shown. -/
def ofText (text : String) : LogFilter :=
  match (parts text).filterMap fun part => (LogDirective.ofText part).toOption with
  | [] => [LogDirective.ofLimit .error]
  | filter => filter

/-- The lines that report what is left out of a list of directives. -/
def ignoredText (text : String) : String :=
  String.join <| (parts text).map fun part =>
    match LogDirective.ofText part with
    | .ok _ => ""
    | .error fault => s!"ignoring `{part}`: {fault.message}\n"

/-- The directive that decides whether a note is shown. -/
def directive? (filter : LogFilter) (event : Event) : Option LogDirective :=
  (filter.filter fun directive => directive.fits event).foldl (fun best? directive =>
    match best? with
    | some best => if best.givesWay directive then some directive else some best
    | none => some directive) none

/-- A note is shown if the directive for it admits its level. -/
def shows (filter : LogFilter) (event : Event) : Bool :=
  match filter.directive? event with
  | some directive => event.level.rank ≤ directive.limit.rank
  | none => false

/-- The lines of the notes that are shown. -/
def text (filter : LogFilter) (events : List Event) : String :=
  String.join ((events.filter filter.shows).map Event.text)

end LogFilter

end Karel
