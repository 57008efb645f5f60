import Karel.Capabilities
import Karel.Json.Reader

/-!
# Capability descriptors

A robot describes itself in a JSON text: an object with the lists `commands` and `conditions`, of
which either may be missing, or an array of the two lists. Other fields are passed over.

## Main definitions

- `DescriptorNames` — the names in a descriptor, as far as they were read
- `DescriptorError` — why a text is no descriptor
- `Capabilities.ofJsonText` — the capabilities that a JSON text describes
-/

namespace Karel

/-- The names that a descriptor lists, where a list that was not given is absent. -/
structure DescriptorNames where
  commands? : Option (List String)
  conditions? : Option (List String)

/-- Why a text describes no capabilities. -/
inductive DescriptorError where
  /-- The text is not of the form of a descriptor. -/
  | malformed (cause : Json.Cause) (place : Json.Place)
  /-- The names are refused. It is told apart whether the descriptor was the whole text, or if
      anything follows it. -/
  | refused (error : CapabilityError) (whole : Bool)
  deriving DecidableEq, Repr

/-- The report of an error in a descriptor. -/
def DescriptorError.message : DescriptorError → String
  | malformed cause place => s!"{cause.message} at line {place.line} column {place.column}"
  | refused error _ => error.message

namespace DescriptorNames

/-- No list given. -/
def empty : DescriptorNames where
  commands? := none
  conditions? := none

/-- The fault of a list that is given again. A brace in place of its value is passed over. -/
def repeated (key : String) (text : List Char) : Json.Fault :=
  .before (.repeatedField key) <|
    match Json.skipSpace text with
    | '\x7d' :: more => more
    | other => other

/-- Reads the colon between a key and its value. -/
def readColon (text : List Char) : Except Json.Fault (List Char) :=
  match Json.skipSpace text with
  | ':' :: value => .ok value
  | [] => .error (.atEnd .openObject)
  | other => .error (.next .expectedColon other)

/-- The names with those of one more field, of which the key was read. Neither list may be given
    twice. -/
def readField (names : DescriptorNames) (key : String) (text : List Char) :
    Except Json.Fault (DescriptorNames × List Char) :=
  if key = "commands" then
    if names.commands?.isSome then .error (repeated key text)
    else ((readColon text).bind Json.readStrings).map fun (list, rest) =>
      ({ names with commands? := some list }, rest)
  else if key = "conditions" then
    if names.conditions?.isSome then .error (repeated key text)
    else ((readColon text).bind Json.readStrings).map fun (list, rest) =>
      ({ names with conditions? := some list }, rest)
  else ((readColon text).bind Json.skipValue).map fun rest => (names, rest)

/-- Reads the key of a field. -/
def readKey : List Char → Except Json.Fault (String × List Char)
  | '"' :: rest => Json.readString ('"' :: rest)
  | [] => .error (.atEnd .openObject)
  | other => .error (.next .keyNotString other)

/-- Reads what follows a field of an object and its comma, up to the next field. -/
def nextField (text : List Char) : Except Json.Fault (List Char) :=
  match Json.skipSpace text with
  | '\x7d' :: more => .error (.next .trailingComma ('\x7d' :: more))
  | [] => .error (.atEnd .noValue)
  | other => .ok other

/-- Reads at least one field of an object and the brace that closes it. -/
def readFields : Nat → DescriptorNames → List Char →
    Except Json.Fault (DescriptorNames × List Char)
  | 0, _, text => .error (.before .noValue text)
  | bound + 1, names, text =>
    match (readKey text).bind fun (key, rest) => names.readField key rest with
    | .error fault => .error fault
    | .ok (names, rest) =>
      match Json.skipSpace rest with
      | ',' :: more => (nextField more).bind (readFields bound names)
      | '\x7d' :: more => .ok (names, more)
      | [] => .error (.atEnd .openObject)
      | other => .error (.next .expectedFieldEnd other)

/-- Reads the bracket that closes an array after its last list. -/
def closeArray (names : DescriptorNames) (text : List Char) :
    Except Json.Fault (DescriptorNames × List Char) :=
  match Json.skipSpace text with
  | ']' :: rest => .ok (names, rest)
  | ',' :: more =>
    match Json.skipSpace more with
    | ']' :: rest => .error (.next .trailingComma (']' :: rest))
    | other => .error (.next .trailingText other)
  | [] => .error (.atEnd .openArray)
  | other => .error (.next .trailingText other)

/-- Reads the lists of an array and the bracket that closes it. -/
def readArray (text : List Char) : Except Json.Fault (DescriptorNames × List Char) :=
  match Json.skipSpace text with
  | ']' :: rest => .ok (empty, rest)
  | [] => .error (.atEnd .openArray)
  | more =>
    match Json.readStrings more with
    | .error fault => .error fault
    | .ok (commands, rest) =>
      match Json.skipSpace rest with
      | ']' :: rest => .ok ({ commands? := some commands, conditions? := none }, rest)
      | ',' :: more =>
        match (Json.nextItem more).bind Json.readStrings with
        | .error fault => .error fault
        | .ok (conditions, rest) =>
          closeArray { commands? := some commands, conditions? := some conditions } rest
      | [] => .error (.atEnd .openArray)
      | other => .error (.next .expectedItemEnd other)

/-- Reads a descriptor at the start of a text, with white space before it. -/
def read (text : List Char) : Except Json.Fault (DescriptorNames × List Char) :=
  match Json.skipSpace text with
  | '[' :: rest => readArray rest
  | '\x7b' :: rest =>
    match Json.skipSpace rest with
    | '\x7d' :: more => .ok (empty, more)
    | more => readFields (more.length + 1) empty more
  | other => .error (Json.faultAt "struct RawCapabilities" other)

end DescriptorNames

/-- The error that a fault in the text of a descriptor is. -/
def DescriptorError.ofFault (text : List Char) (fault : Json.Fault) : DescriptorError :=
  .malformed fault.cause (fault.place text)

/-- The capabilities that a JSON text describes. -/
def Capabilities.ofJsonText (text : String) : Except DescriptorError Capabilities :=
  match DescriptorNames.read text.toList with
  | .error fault => .error (.ofFault text.toList fault)
  | .ok (names, rest) =>
    -- the names are judged before it is known whether anything follows them
    let excess := Json.skipSpace rest
    match Capabilities.ofNames (names.commands?.getD []) (names.conditions?.getD []) with
    | .error error => .error (.refused error excess.isEmpty)
    | .ok capabilities =>
      if excess.isEmpty then .ok capabilities
      else .error (.ofFault text.toList (.next .trailingText excess))

end Karel
