import Unsugar.Definition.Class

/-! Closures made explicit. A name that an inner function captures is held in a
cell, which the function that owns the name creates; a name that a function
declares global is looked up in the globals. Declarations are then of no use. -/

namespace Unsugar
namespace Closure

/-- The variable that holds the cell of a name. -/
def cellName (name : String) : String :=
  "_dp_cell_" ++ name

/-- Where the value of a name is, seen from a body. -/
inductive Storage where
  /-- A variable of that name. -/
  | plain
  | global
  | cell
  deriving DecidableEq

/-- A body, and the names that it holds in cells. -/
structure Place where
  opened : Opened
  cells : List String

namespace Place

def ofOpened (opened : Opened) : Place := ⟨opened, opened.scope.cells⟩

def info (place : Place) : ScopeInfo := place.opened.info

def storage (place : Place) (name : String) : Storage :=
  let binding := place.info.binding? name
  if place.info.kind = .moduleScope then .plain
  else if binding = some .global then .global
  else if isReserved name then .plain
  else if place.cells.contains name then .cell
  else if binding = some .nonlocal && (place.opened.outer.owner? name).isSome then .cell
  else .plain

/-- Whether a body, or one around it, binds a name. -/
def binds (place : Place) (name : String) : Bool :=
  place.opened.enclosing.any (·.binds name)

/-- What loads a name. -/
def load (place : Place) (position : Position) (name : String) : Expr :=
  match place.storage name with
  | .global => .supportCall "load_global" [.globals, .ofText name]
  | .cell => .supportCall "load_cell" [.ofName (cellName name)]
  | .plain => .name position name

/-- Whether a call asks for the variables of a function by the builtin. -/
def asksForLocals (place : Place) (callee : Expr) : Bool :=
  callee.isName "locals" && place.info.kind = .functionScope && !place.binds "locals"

/-- The namespace of a class falls back on a cell itself, not on what it holds. -/
def cellArguments (place : Place) (callee : Expr) : List Expr → List (Option Expr)
  | [first, second, .name position id] =>
    let call := Expr.apply callee [first, second, .name position id]
    if call.isSupportCall "class_lookup_cell" && place.storage id = .cell then
      [none, none, some (.ofName (cellName id))]
    else []
  | _ => []

def visitor (place : Place) : Visitor (Descent Desugar) where
  expr
    | .name position id => return some (place.load position id)
    | .call callee [] _ =>
      return if place.asksForLocals callee then some (.supportCall "locals" []) else none
    | _ => return none
  target
    | .name position id =>
      if place.storage id = .plain then return some (.name position id)
      else Desugar.refuse position (.bindingOf id)
    | _ => return none
  arguments := place.cellArguments

end Place

/-- Revises a statement that has no body. -/
def ofStmt (place : Place) : Stmt → Descent Desugar (List Stmt)
  | .declare .. => return [.pass]
  | .assign [.name position id] value => do
    let value ← value.revise place.visitor
    match place.storage id with
    | .global => return [.perform "store_global" [.globals, .ofText id, value]]
    | .cell => return [.perform "store_cell" [.ofName (cellName id), value]]
    | .plain => return [.assign [.name position id] value]
  | .delete position [.name start id] => do
    match place.storage id with
    | .global => return [.perform "delitem" [.globals, .ofText id]]
    | .cell => return [.delete position [Definition.cellContents (cellName id)]]
    | .plain => return [.delete position [.name start id]]
  | stmt => do return [← stmt.reviseSimple place.visitor]

/-- The statements that create the cells of a function. The cell of a parameter
starts with its value. -/
def makeCells (place : Place) : List Stmt :=
  place.cells.map fun name =>
    let value : List Expr := if place.info.names.params.contains name then [.ofName name] else []
    .store (cellName name) (.supportCall "make_cell" value)

def pass : Pass (Descent Desugar) Place where
  visitor place := place.visitor
  test place test := test.revise place.visitor
  simple := ofStmt
  enterFunction place head _ := do
    let decorators ← Expr.reviseList place.visitor head.decorators
    let params ← Expr.reviseParams place.visitor head.params
    let opened ← Descent.enter place.opened
    return ({ head with decorators, params }, some (.ofOpened opened))
  leaveFunction _ place _ head body := do
    Descent.leave place.opened
    let body := Stmt.insertAt (Stmt.docstringLength body) (makeCells place) body
    return [head.withBody (Stmt.orPass body)]
  enterClass place head := do
    let decorators ← Expr.reviseList place.visitor head.decorators
    let bases ← Expr.reviseList place.visitor head.bases
    let opened ← Descent.enter place.opened
    return ({ head with decorators, bases }, some (.ofOpened opened))
  leaveClass _ place head body := do
    Descent.leave place.opened
    return [head.withBody body]

end Closure

/-- Makes the closures of a module explicit. -/
def resolveClosures (scope : Scope) (body : List Stmt) : Desugar (List Stmt) :=
  Descent.run scope fun opened => Closure.pass.body (.ofOpened opened) body

end Unsugar
