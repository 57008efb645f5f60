import Karel.Lexeme
import Karel.Names

/-!
# Capabilities

A robot offers commands and conditions. A program is read against the names of both, so that each
name in it is bound when the tree is built.

## Main definitions

- `Capabilities` — the names of the commands and of the conditions of a robot
- `Capabilities.ofNames` — the capabilities with given names, if they are acceptable
- `CapabilityError` — why a list of names is refused
- `Capabilities.standard` — the vocabulary of the standard robot

## Design notes

Names are refused in a fixed order, so that one faulty list has one report: the first command that
is no name, then the first condition that is no name, then the smallest name on both sides.
-/

namespace Karel

/-- Why names cannot be the names of capabilities. -/
inductive CapabilityError where
  /-- A text that a program cannot write as a name. -/
  | invalidName (name : String)
  /-- A name declared on both sides. -/
  | conflict (name : String)
  deriving DecidableEq, Repr

/-- The report of a refusal. The name is written as it is. -/
def CapabilityError.message : CapabilityError → String
  | invalidName name => s!"invalid capability name \"{name}\""
  | conflict name => s!"\"{name}\" is declared as both a command and a condition"

/-- The commands and the conditions that a robot offers: two strictly ascending lists of names
    that have no name in common. -/
structure Capabilities where
  commands : List String
  conditions : List String
  commands_ascending : commands.Pairwise (· < ·)
  conditions_ascending : conditions.Pairwise (· < ·)
  isName_of_mem_commands : ∀ name ∈ commands, isName name = true
  isName_of_mem_conditions : ∀ name ∈ conditions, isName name = true
  not_mem_conditions : ∀ name ∈ commands, name ∉ conditions

namespace Capabilities

/-- Capabilities are equal if they offer the same names. -/
@[ext] theorem eq_of_names {first second : Capabilities}
    (hcommands : first.commands = second.commands)
    (hconditions : first.conditions = second.conditions) : first = second := by
  cases first
  cases second
  simp_all

/-- Equality of capabilities is equality of their names. -/
instance : DecidableEq Capabilities := fun first second =>
  decidable_of_iff (first.commands = second.commands ∧ first.conditions = second.conditions)
    ⟨fun h => eq_of_names h.1 h.2, fun h => h ▸ ⟨rfl, rfl⟩⟩

/-- A name of a command. -/
def isCommand (capabilities : Capabilities) (name : String) : Bool :=
  capabilities.commands.contains name

/-- A name of a condition. -/
def isCondition (capabilities : Capabilities) (name : String) : Bool :=
  capabilities.conditions.contains name

/-- The first text of a list that is no name. -/
def invalidName? (names : List String) : Option String :=
  names.find? fun name => !isName name

/-- The smallest name that two lists have in common. -/
def sharedName? (commands conditions : List String) : Option String :=
  (nameSet commands).find? fun name => conditions.contains name

/-- The capabilities with the given names, in any order and any number. -/
def ofNames (commands conditions : List String) : Except CapabilityError Capabilities :=
  match hcommands : invalidName? commands with
  | some name => .error (.invalidName name)
  | none =>
    match hconditions : invalidName? conditions with
    | some name => .error (.invalidName name)
    | none =>
      match hshared : sharedName? commands conditions with
      | some name => .error (.conflict name)
      | none => .ok {
          commands := nameSet commands
          conditions := nameSet conditions
          commands_ascending := pairwise_nameSet commands
          conditions_ascending := pairwise_nameSet conditions
          isName_of_mem_commands := by
            simpa [invalidName?] using hcommands
          isName_of_mem_conditions := by
            simpa [invalidName?] using hconditions
          not_mem_conditions := by
            simpa [sharedName?] using hshared }

/-- The actions of the standard robot. -/
def standardCommands : List String :=
  ["move", "turnleft", "pickbeeper", "putbeeper", "turnoff"]

/-- The tests of the standard robot. -/
def standardConditions : List String :=
  ["front_is_clear", "front_is_blocked", "left_is_clear", "left_is_blocked", "right_is_clear",
    "right_is_blocked", "next_to_a_beeper", "not_next_to_a_beeper", "any_beepers_in_beeper_bag",
    "no_beepers_in_beeper_bag", "facing_north", "not_facing_north", "facing_south",
    "not_facing_south", "facing_east", "not_facing_east", "facing_west", "not_facing_west"]

/-- The vocabulary of the standard robot. -/
def standard : Capabilities where
  commands := nameSet standardCommands
  conditions := nameSet standardConditions
  commands_ascending := pairwise_nameSet _
  conditions_ascending := pairwise_nameSet _
  isName_of_mem_commands := by simp only [mem_nameSet]; decide
  isName_of_mem_conditions := by simp only [mem_nameSet]; decide
  not_mem_conditions := by simp only [mem_nameSet]; decide

end Capabilities

end Karel
