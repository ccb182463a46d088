import Unsugar.Scope.Collect

/-! The scopes of a module: one for the module, and one for each function and
class in it. A name that a body uses and does not bind is captured from the
nearest enclosing function that binds it; the scopes of classes are skipped. A
function that binds a captured name holds a cell for it. -/

namespace Unsugar

/-- One body, without the bodies inside it. -/
structure ScopeInfo where
  kind : ScopeKind
  /-- The name of the function or class; that of a module is empty. -/
  name : String
  /-- The dotted path of names from the module. -/
  qualname : String
  /-- The names of the body, captured names included. -/
  names : Names

namespace ScopeInfo

def binding? (scope : ScopeInfo) (name : String) : Option Binding :=
  scope.names.binding? name

def binds (scope : ScopeInfo) (name : String) : Bool :=
  (scope.binding? name).isSome

/-- A scope as it is shown to a reader. -/
def title (scope : ScopeInfo) : String :=
  match scope.kind with
  | .moduleScope => "module scope"
  | kind => kind.text ++ " scope " ++ scope.qualname

/-- The qualified name of a function or class whose definition stands in a scope.
A name that the scope declares global starts anew. -/
def qualify (parent : ScopeInfo) (name : String) : String :=
  let display := displayName name
  if parent.kind = .moduleScope || parent.binding? name = some .global then display
  else match parent.kind with
    | .functionScope => parent.qualname ++ ".<locals>." ++ display
    | _ => parent.qualname ++ "." ++ display

end ScopeInfo

/-- The scopes around a body, the nearest first. -/
abbrev Enclosing := List ScopeInfo

namespace Enclosing

/-- The function that holds a name which a body takes from outside: the nearest
that binds it as its own, if no nearer one declares it global. -/
def owner? (name : String) : Enclosing → Option ScopeInfo
  | [] => none
  | scope :: outer =>
    match scope.kind with
    | .classScope => owner? name outer
    | .moduleScope => none
    | .functionScope =>
      match scope.binding? name with
      | none | some .nonlocal => owner? name outer
      | some .own => some scope
      | some .global => none

/-- Whether a free name is captured: the nearest function that has a binding for
it does not declare it global. -/
def captures (name : String) : Enclosing → Bool
  | [] => false
  | scope :: outer =>
    match scope.kind with
    | .classScope => captures name outer
    | .moduleScope => false
    | .functionScope =>
      match scope.binding? name with
      | none => captures name outer
      | some binding => binding ≠ .global

end Enclosing

namespace Names

/-- Adds the names that a body captures from the scopes around it. -/
def capture (outer : Enclosing) (names : Names) : Names :=
  let captured := names.uses.filter fun name =>
    (names.binding? name).isNone && !isReserved name && outer.captures name
  { names with bindings := names.bindings ++ captured.map (·, .nonlocal) }

end Names

/-- A scope and the scopes of the definitions in its body, in source order. -/
inductive Scope where
  | mk (info : ScopeInfo) (children : List Scope)

namespace Scope

def info : Scope → ScopeInfo
  | mk info _ => info

def children : Scope → List Scope
  | mk _ children => children

/-! ## Building -/

/-- The scope of a function or class body, without its children. -/
def child (outer : Enclosing) (kind : ScopeKind) (name : String) (params : List Param)
    (body : List Stmt) : ScopeInfo where
  kind
  name
  qualname := match outer with
    | parent :: _ => parent.qualify name
    | [] => displayName name
  names := (collect kind params body).capture outer

mutual

/-- The scopes of the definitions in a statement. -/
def ofStmt (outer : Enclosing) : Stmt → List Scope
  | .function _ _ ident params _ body =>
    let info := child outer .functionScope ident.name params body
    [mk info (ofBody (info :: outer) body)]
  | .classDef _ _ ident _ body =>
    let info := child outer .classScope ident.name [] body
    [mk info (ofBody (info :: outer) body)]
  | .conditional _ _ body _ orelse => ofBody outer body ++ ofBody outer orelse
  | .whileLoop _ _ body orelse => ofBody outer body ++ ofBody outer orelse
  | .forLoop _ _ _ body orelse => ofBody outer body ++ ofBody outer orelse
  | .tryBlock _ body handlers orelse final =>
    ofBody outer body ++ ofHandlers outer handlers ++ ofBody outer orelse ++ ofBody outer final
  | .withBlock _ _ body => ofBody outer body
  | _ => []

def ofBody (outer : Enclosing) : List Stmt → List Scope
  | [] => []
  | first :: rest => ofStmt outer first ++ ofBody outer rest

def ofHandlers (outer : Enclosing) : List Handler → List Scope
  | [] => []
  | .mk _ _ _ body :: rest => ofBody outer body ++ ofHandlers outer rest

end

/-- The scopes of a module. -/
def ofModule (body : List Stmt) : Scope :=
  let info : ScopeInfo := ⟨.moduleScope, "", "", collect .moduleScope [] body⟩
  mk info (ofBody [info] body)

/-! ## Cells -/

/-- A list in the order of its characters' code points, without repetitions. -/
def sortNames (names : List String) : List String :=
  (names.foldl (fun found name => insertNew name found) []).mergeSort fun first second =>
    !decide (second < first)

/-- Whether the body of a scope hands on to the scopes around it a name that a
scope inside it takes from outside. -/
def handsOn (info : ScopeInfo) (name : String) : Bool :=
  match info.kind with
  | .classScope => true
  | .moduleScope => false
  | .functionScope =>
    match info.binding? name with
    | none | some .nonlocal => true
    | some .own | some .global => false

/-- The names that a scope takes from outside. -/
def taken (info : ScopeInfo) : List String :=
  info.names.bindings.filterMap fun (name, binding) =>
    if binding = .nonlocal then some name else none

mutual

/-- The names that a scope and those inside it ask for from the scopes around it. -/
def demands : Scope → List String
  | mk info children => taken info ++ (demandsOfList children).filter (handsOn info)

def demandsOfList : List Scope → List String
  | [] => []
  | first :: rest => demands first ++ demandsOfList rest

end

/-- The names that a scope holds in cells, sorted: its own names that a scope
inside it asks for. -/
def cells : Scope → List String
  | mk info children =>
    if info.kind = .functionScope then
      sortNames ((demandsOfList children).filter fun name => info.binding? name = some .own)
    else []

/-! ## Errors -/

/-- The names that a scope declares nonlocal and that no function around it
binds. -/
def unbound (outer : Enclosing) (info : ScopeInfo) : List ScopeError :=
  if info.kind = .moduleScope then []
  else
    let names := (sortNames info.names.nonlocals).filter fun name => (outer.owner? name).isNone
    names.map fun name =>
      ⟨(info.names.declared.lookup name).getD .unknown, .unboundNonlocal name⟩

mutual

/-- The errors of a scope and of those inside it. -/
def errors (outer : Enclosing) : Scope → List ScopeError
  | mk info children =>
    info.names.errors ++ errorsOfList (info :: outer) children ++ unbound outer info

def errorsOfList (outer : Enclosing) : List Scope → List ScopeError
  | [] => []
  | first :: rest => errors outer first ++ errorsOfList outer rest

end

end Scope
end Unsugar
