import Karel.Names
import Karel.Statement

/-!
# Procedures

A procedure may be declared anywhere in a program, inside another one too, and it may be called
before it is declared.

## Main definitions

- `Block.procedures` — the declarations in a tree, outer ones before those inside them
- `Block.definitions` — the body of each procedure, by ascending name
- `Block.undefinedCalls` — the calls of procedures that the tree does not declare
-/

namespace Karel

/-- The name and the body of a procedure, if the statement declares one. -/
def Statement.procedure? : Statement → Option (String × Block)
  | define name body _ => some (name, body)
  | _ => none

/-- The name of the procedure that a statement calls, with the line of the call. -/
def Statement.call? : Statement → Option (String × Nat)
  | call name line => some (name, line)
  | _ => none

namespace Block

/-- The procedures that a tree declares, each before those declared inside it. -/
def procedures (block : Block) : List (String × Block) :=
  block.statements.filterMap Statement.procedure?

/-- The procedures of a tree by ascending name. Of several declarations of one name the last
    one holds. -/
def definitions (block : Block) : List (String × Block) :=
  (nameSet (block.procedures.map Prod.fst)).filterMap fun name =>
    block.procedures.reverse.find? fun procedure => procedure.1 == name

/-- The calls of procedures that no declaration in the tree names, in order. -/
def undefinedCalls (block : Block) : List (String × Nat) :=
  let declared := block.procedures.map Prod.fst
  (block.statements.filterMap Statement.call?).filter fun call => !declared.contains call.1

end Block

end Karel
