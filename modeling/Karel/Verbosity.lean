import Karel.Decimal

/-!
# Verbosity

How much a command tells of what it does.

## Main definitions

- `Verbosity` — from silence to every detail
- `Verbosity.ofText?` — the level that a word stands for
-/

namespace Karel

/-- How much is shown. Each level shows all that the levels before it show. -/
inductive Verbosity where
  | off
  | error
  | warn
  | info
  | debug
  | trace
  deriving DecidableEq, Repr

namespace Verbosity

/-- The place of a level among the others. -/
def rank : Verbosity → Nat
  | off => 0
  | error => 1
  | warn => 2
  | info => 3
  | debug => 4
  | trace => 5

/-- The name of a level, as it is written before a note. -/
def name : Verbosity → String
  | off => "OFF"
  | error => "ERROR"
  | warn => "WARN"
  | info => "INFO"
  | debug => "DEBUG"
  | trace => "TRACE"

/-- All levels. -/
def all : List Verbosity :=
  [off, error, warn, info, debug, trace]

/-- The level with a certain rank. -/
def ofRank? (rank : Nat) : Option Verbosity :=
  all.find? fun level => level.rank == rank

/-- The level with a certain name, in any case. -/
def ofName? (word : String) : Option Verbosity :=
  all.find? fun level => level.name == word.toUpper

/-- The number that a word denotes: decimal digits, with or without a plus sign before them. -/
def rankOfWord? (word : String) : Option Nat :=
  let digits := match word.toList with
    | '+' :: digits => digits
    | digits => digits
  if digits.isEmpty || !digits.all Char.isDigit then none else some (decimalValue digits)

/-- The level that a word stands for: its rank or its name. -/
def ofText? (word : String) : Option Verbosity :=
  match rankOfWord? word with
  | some rank => ofRank? rank
  | none => ofName? word

/-- A rank belongs to one level. -/
@[simp] theorem ofRank?_rank (level : Verbosity) : ofRank? level.rank = some level := by
  cases level <;> rfl

end Verbosity

end Karel
