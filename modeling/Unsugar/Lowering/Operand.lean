import Unsugar.Context
import Unsugar.Options
import Unsugar.Tree.Shape

/-! Lowering is a computation that gives the explicit form of an expression and,
on the way, sets statements aside that have to run ahead of it. Those statements
are lowered in their turn when the statement around the expression is finished,
so what is set aside is a computation too.

Operands are evaluated from left to right. When an operand sets statements aside,
the values of the operands to its left are saved first. -/

namespace Unsugar

/-- The innermost definition around a statement. -/
inductive Frame where
  | moduleFrame
  | functionFrame (name : String)
  | classFrame

structure Env where
  options : Options
  frame : Frame

/-- Statements to be lowered later. -/
abbrev Deferred := Desugar (List Stmt)

abbrev Lowering := StateT (List Deferred) Desugar

/-- Lowers statements one after the other. -/
def Deferred.runAll : List Deferred → Desugar (List Stmt)
  | [] => return []
  | first :: rest => do
    let here ← first
    return here ++ (← runAll rest)

namespace Lowering

/-- Sets statements aside. -/
def emit (statements : Deferred) : Lowering Unit :=
  modify (· ++ [statements])

/-- Notes that an expression was lowered. -/
def touch : Lowering Unit :=
  Desugar.touch

def fresh (base : String) : Lowering String :=
  Desugar.fresh base

/-- Finishes a statement: those set aside while it was built come first. -/
def flush (build : Lowering Stmt) : Desugar (List Stmt) := do
  let (stmt, ahead) ← build.run []
  return (← Deferred.runAll ahead) ++ [stmt]

/-- An assignment to a name. -/
def storing (name : String) (value : Lowering Expr) : Desugar (List Stmt) :=
  flush do return .store name (← value)

/-- Saves the value of a lowered expression, and gives the name that holds it. -/
def save (value : Expr) : Lowering Expr := do
  let saved ← fresh "tmp"
  emit (return [.store saved value])
  return .ofName saved

/-- Saves the value of a lowered operand, unless nothing can change it. The marks
of unpacked and keyword arguments stay where they are. -/
def hoist : Expr → Lowering Expr
  | .starred position op value => do return .starred position op (← hoist value)
  | .keyword position id value => do return .keyword position id (← hoist value)
  | .entry key value => do
    let key ← hoist key
    return .entry key (← hoist value)
  | .name position id =>
    if isReserved id then return .name position id else save (.name position id)
  | value => if value.isPure then return value else save value

/-- Lowers operands from left to right; those `done` stand before them. -/
def operandsAfter (done : List Expr) : List (Lowering Expr) → Lowering (List Expr)
  | [] => return done
  | first :: rest => do
    let (value, ahead) ← StateT.lift (first.run [])
    let done ← if ahead.isEmpty then pure done else done.mapM hoist
    modify (· ++ ahead)
    operandsAfter (done ++ [value]) rest

/-- Lowers operands from left to right. -/
def operands (items : List (Lowering Expr)) : Lowering (List Expr) :=
  operandsAfter [] items

/-! ## Calls and operators -/

/-- A call whose callee and arguments are operands. -/
def applying (callee : Lowering Expr) (arguments : List (Lowering Expr)) : Lowering Expr := do
  match ← operands (callee :: arguments) with
  | callee :: arguments => return .apply callee arguments
  | [] => return .absent

/-- A call of a function of the support module. -/
def supporting (id : String) (arguments : List (Lowering Expr)) : Lowering Expr := do
  return .supportCall id (← operands arguments)

/-- An assignment expression: the assignment comes ahead. -/
def assigning (name : String) (value : Lowering Expr) : Lowering Expr := do
  touch
  emit (storing name value)
  return .ofName name

/-- An operator that may not need its second operand. The first operand is
stored, and the second one over it if the test of the first asks for it. -/
def shortCircuit (op : LogicalOp) (position : Position) (left right : Lowering Expr) :
    Lowering Expr := do
  touch
  let result ← fresh "tmp"
  let test : Expr := match op with
    | .and => .ofName result
    | .or => .supportCall "not_" [.ofName result]
  emit (storing result left)
  emit do
    let body ← storing result right
    return [.conditional position test body .unknown []]
  return .ofName result

/-- A conditional expression. -/
def choosing (test whenTrue whenFalse : Lowering Expr) : Lowering Expr := do
  touch
  let result ← fresh "tmp"
  emit <| flush do
    let test ← test
    let body ← storing result whenTrue
    return .choose test body (← storing result whenFalse)
  return .ofName result

/-! ## Displays with unpacked items -/

/-- An item of a display or an argument of a call, and its mark if it is
unpacked. -/
inductive Item (α : Type) where
  | plain (value : α)
  | unpacked (position : Position) (op : StarOp) (value : α)

namespace Item

def isUnpacked {α : Type} : Item α → Bool
  | plain _ => false
  | unpacked .. => true

/-- An item as an argument of a call. -/
def argument : Item (Lowering Expr) → Lowering Expr
  | plain value => value
  | unpacked position op value => do return .starred position op (← value)

/-- The segments of a display: the plain items between two unpacked ones are
gathered, and an unpacked one is converted alone. -/
def segments {α : Type} (gather : List α → α) (convert : α → α) :
    (gathered : List α) → List (Item α) → List α
  | gathered, [] => if gathered.isEmpty then [] else [gather gathered]
  | gathered, plain value :: rest => segments gather convert (gathered ++ [value]) rest
  | gathered, unpacked _ _ value :: rest =>
    (if gathered.isEmpty then [] else [gather gathered]) ++
      convert value :: segments gather convert [] rest

/-- Joins segments from the left. -/
def joined {α : Type} (join : α → α → α) (empty : α) : List α → α
  | [] => empty
  | first :: rest => rest.foldl join first

end Item

/-- A tuple of items some of which are unpacked. -/
def splat (items : List (Item (Lowering Expr))) : Lowering Expr :=
  Item.joined (fun before segment => supporting "add" [before, segment])
    (return .tupleOf [])
    (Item.segments (fun values => return .tupleOf (← operands values))
      (fun value => supporting "tuple" [value]) [] items)

/-- A dictionary of entries some of which are unpacked mappings. -/
def merge (items : List (Item (Lowering Expr))) : Lowering Expr :=
  Item.joined (fun before segment => supporting "or_" [before, segment])
    (return .tupleOf [])
    (Item.segments (fun values => return .dictOf (← operands values))
      (fun value => supporting "dict" [value]) [] items)

end Lowering
end Unsugar
