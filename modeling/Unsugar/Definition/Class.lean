import Unsugar.Definition.Function
import Unsugar.Lowering.Operand

/-! Class definitions. The body of a class becomes a function that fills a
namespace, and the class is made by a call that is given this function, the bases
and the keywords. -/

namespace Unsugar
namespace Definition

/-- The parameter that is the namespace of a class. -/
def namespaceParam : String := "_dp_class_ns"

/-- The parameter that is the cell of a class, for methods that refer to it. -/
def cellParam : String := "_dp_classcell"

/-- What a cell holds. -/
def cellContents (name : String) : Expr :=
  .attributeOf (.ofName name) "cell_contents"

/-! ## References of methods to their class -/

/-- Where a statement of a class body stands. -/
inductive MethodPlace where
  | outside
  /-- In a method, whose first parameter may have a name. -/
  | inside (self : Option String)

/-- Notes that a method refers to its class. -/
def needCell (replacement : Expr) : StateM Bool (Option Expr) := do
  set true
  return some replacement

/-- Replaces a bare `super()` and the name `__class__`. -/
def superVisitor (self : Option String) : Visitor (StateM Bool) where
  expr
    | .call callee [] _ =>
      if callee.isName "super" then
        match self with
        | some self =>
          needCell (.supportCall "call_super"
            [.ofName "super", .ofName cellParam, .ofName self])
        | none => needCell (.supportCall "call_super_noargs" [.ofName "super"])
      else return none
    | .name _ id =>
      if id == "__class__" then needCell (cellContents cellParam) else return none
    | _ => return none
  target _ := return none

/-- The name of the first parameter, if it is an ordinary one. -/
def selfName : List Param → Option String
  | .mk .normal _ ident _ _ :: _ => ident.map (·.name)
  | _ => none

/-- Revises the methods of a class; functions inside a method are left alone but
for the defaults of their parameters. The state tells whether a method refers to
its class. -/
def superPass : Pass (StateM Bool) MethodPlace :=
  { Pass.unchanged with
    visitor := fun
      | .outside => Visitor.unchanged
      | .inside self => superVisitor self
    test := fun
      | .outside, test => return test
      | .inside self, test => test.revise (superVisitor self)
    simple := fun
      | .outside, stmt => return [stmt]
      | .inside _, .delete position [.name start id] => do
        if id == "__class__" then
          set true
          return [.delete position [cellContents cellParam]]
        else return [.delete position [.name start id]]
      | .inside self, stmt => do return [← stmt.reviseSimple (superVisitor self)]
    enterFunction := fun place head _ => do
      match place with
      | .outside => return (head, some (.inside (selfName head.params)))
      | .inside self =>
        return ({ head with params := ← Expr.reviseParams (superVisitor self) head.params }, none) }

/-! ## Names of class bodies -/

/-- Whether a name of a class body is not in its namespace. -/
def isOutsideNamespace (info : ScopeInfo) (name : String) : Bool :=
  isReserved name || info.names.globals.contains name || info.names.nonlocals.contains name

/-- Loads a name of a class body: from the namespace, and else from a cell or
from the globals. -/
def classLookup (info : ScopeInfo) (position : Position) (name : String) : Expr :=
  let load (id : String) (last : Expr) : Expr :=
    .supportCall id [.ofName namespaceParam, .ofText name, last]
  if info.binding? name = some .nonlocal then load "class_lookup_cell" (.name position name)
  else load "class_lookup_global" .globals

/-- Replaces the names of a class body, and calls that ask for its variables. -/
def namespaceVisitor (info : ScopeInfo) : Visitor Id where
  expr
    | .name position id =>
      some (if isOutsideNamespace info id then .name position id else classLookup info position id)
    | .call (.name _ id) [] _ =>
      if (id == "locals" || id == "vars") && !info.binds id then some (.ofName namespaceParam)
      else none
    | _ => none
  target
    | .name position id => some (.name position id)
    | _ => none

/-- Revises an assignment to a name, or the deletion of one, to an operation on
the namespace. -/
def namespaceStmt (info : ScopeInfo) (stmt : Stmt) : Stmt :=
  let below := Id.run (stmt.reviseSimple (namespaceVisitor info))
  match stmt, below with
  | .assign [.name _ id] _, .assign _ value =>
    if isOutsideNamespace info id then below
    else .perform "setitem" [.ofName namespaceParam, .ofText id, value]
  | .delete _ [.name _ id], _ =>
    if isOutsideNamespace info id then below
    else .perform "delitem" [.ofName namespaceParam, .ofText id]
  | _, _ => below

def namespacePass (info : ScopeInfo) : Pass Id Unit :=
  { Pass.everywhere (namespaceVisitor info) with
    simple := fun _ stmt => [namespaceStmt info stmt]
    enterFunction := fun _ head _ =>
      ({ head with params := Id.run (Expr.reviseParams (namespaceVisitor info) head.params) },
        none) }

/-! ## Arguments of classes -/

/-- An argument, and its mark if it is unpacked. -/
def itemOf : Expr → Lowering.Item Expr
  | .starred position op value => .unpacked position op value
  | value => .plain value

/-- Whether an argument of a class is a keyword. -/
def isKeywordArgument : Expr → Bool
  | .keyword .. => true
  | .starred _ .doubleStar _ => true
  | _ => false

/-- The tuple of the bases of a class. -/
def basesOf (arguments : List Expr) : Expr :=
  let items := (arguments.filter (!isKeywordArgument ·)).map itemOf
  Lowering.Item.joined (fun before segment => .supportCall "add" [before, segment]) (.tupleOf [])
    (Lowering.Item.segments .tupleOf (fun value => .supportCall "tuple" [value]) [] items)

/-- The dictionary of the keywords of a class, or `None` if it has none. -/
def keywordsOf (arguments : List Expr) : Expr :=
  let entry : Expr → Expr
    | .keyword _ id value => .entry (.ofText id) value
    | other => other
  let items := (arguments.filter isKeywordArgument).map fun argument => itemOf (entry argument)
  Lowering.Item.joined (fun before segment => .supportCall "or_" [before, segment]) .absent
    (Lowering.Item.segments .dictOf (fun value => .supportCall "dict" [value]) [] items)

/-! ## Classes -/

/-- Stores an entry in the namespace of a class. -/
def setEntryOf (key : String) (value : Expr) : Stmt :=
  .perform "setitem" [.ofName namespaceParam, .ofText key, value]

/-- The body of the function that fills the namespace of a class. -/
def namespaceBody (qualname : String) (body : List Stmt) : List Stmt :=
  let header := [setEntryOf "__module__" (.ofName "__name__"),
    setEntryOf "__qualname__" (.ofText qualname)]
  match body with
  | .expression (.literal position raw (.text value)) :: rest =>
    header ++ setEntryOf "__doc__" (.literal position raw (.text value)) :: rest
  | body => header ++ body

/-- A class whose inner classes are done. -/
def classDefinition (info : ScopeInfo) (head : ClassHead) (body : List Stmt) :
    Desugar (List Stmt) := do
  let name := head.ident.name
  let generated ← Desugar.fresh ("class_ns_" ++ name)
  let (body, hasCell) := Id.run ((superPass.body .outside body).run false)
  let body := Id.run ((namespacePass info).body () body)
  let fills : FunctionHead :=
    ⟨[], head.position, ⟨head.ident.position, generated⟩, [.plain namespaceParam, .plain cellParam],
      none⟩
  let (ahead, decorators) ← saveDecorators head.decorators
  let value := Expr.supportCall "create_class"
    [.ofText name, .ofName generated, basesOf head.bases, keywordsOf head.bases, .ofBool hasCell]
  Desugar.note (.madeClass name info.qualname generated hasCell)
  return ahead ++
    [fills.withBody (namespaceBody info.qualname body), .store name (decorate decorators value),
     .drop generated]

def classPass : Pass (Descent Desugar) Opened :=
  { Pass.unchanged with
    enterFunction := fun around head _ => return (head, some (← Descent.enter around))
    leaveFunction := fun _ opened _ head body => do
      Descent.leave opened
      return [head.withBody body]
    enterClass := fun around head => return (head, some (← Descent.enter around))
    leaveClass := fun _ opened head body => do
      Descent.leave opened
      classDefinition opened.info head body }

end Definition

/-- Replaces the classes of a module by calls that make them. -/
def expandClasses (scope : Scope) (body : List Stmt) : Desugar (List Stmt) :=
  Descent.run scope fun opened => Definition.classPass.body opened body

end Unsugar
