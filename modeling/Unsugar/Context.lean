import Unsugar.Scope.Name
import Unsugar.Trace
import Unsugar.Tree.Walk

/-! What a transformation knows while it runs, above all which names are taken. -/

namespace Unsugar

/-- Who a generated function is. -/
structure FunctionName where
  name : String
  qualname : String

structure Context where
  /-- The last number given to a generated name. -/
  counter : Nat := 0
  /-- The names of the module, and those generated so far. -/
  reserved : List String := []
  /-- How the functions made from comprehensions declare the targets of their
  assignment expressions. -/
  helpers : List (String × Declaration) := []
  functions : List (String × FunctionName) := []
  passes : Nat := 0
  /-- Whether a rule applied in the current pass. -/
  modified : Bool := false
  /-- How many statements rules were applied to. -/
  nodes : Nat := 0

abbrev Desugar := StateT Context Traced

/-! ## Fresh names -/

/-- The generated name with a number. -/
def numberedName (base : String) (number : Nat) : String :=
  "_dp_" ++ base ++ "_" ++ toString number

/-- The first number after `last` whose name is not taken, if it is among the next
`tries`. -/
def nextNumber (reserved : List String) (base : String) : (tries last : Nat) → Nat
  | 0, last => last + 1
  | tries + 1, last =>
    if reserved.contains (numberedName base (last + 1)) then
      nextNumber reserved base tries (last + 1)
    else last + 1

namespace Context

/-- A name that is not taken, with the next number that gives one. Of one number
more than there are names taken, one gives a name that is free. -/
def fresh (base : String) (context : Context) : String × Context :=
  let number := nextNumber context.reserved base context.reserved.length context.counter
  let name := numberedName base number
  (name, { context with counter := number, reserved := name :: context.reserved })

/-- The names that occur in a node, or that it binds. -/
def namesOf : Node → List String
  | .expr (.name _ id) => [id]
  | .imported item => [item.bound]
  | _ => []

/-- The state before a module is transformed. -/
def ofModule (body : List Stmt) : Context where
  reserved := (Stmt.bodyNodes body).foldl (fun names node =>
    (namesOf node).foldl (fun names name => if names.contains name then names else name :: names)
      names) []

end Context

namespace Desugar

/-- A fresh name `_dp_<base>_<number>`. -/
def fresh (base : String) : Desugar String :=
  modifyGet (Context.fresh base)

def note (step : Step) : Desugar Unit :=
  Traced.note step

def refuse {α : Type} (position : Position) (construct : Construct) : Desugar α :=
  throw (.unsupported position construct)

/-- Notes that an expression was lowered. -/
def touch : Desugar Unit :=
  modify fun context => { context with modified := true }

/-- Notes that a rule was applied to the statement at a position. -/
def apply (rule : Rule) (outcome : Outcome) (position : Position) : Desugar Unit := do
  let node := (← get).nodes + 1
  modify fun context => { context with modified := true, nodes := node }
  note (.applied rule outcome node position.line)

end Desugar
end Unsugar
