import Unsugar.Scope.Name
import Unsugar.Tree.Walk

/-! What one body says about its names: which it binds or declares, and which it
uses. Bodies of nested functions and classes say it for themselves; lambdas and
comprehensions belong to the body they stand in. -/

namespace Unsugar

/-- Where a name of a body lives. -/
inductive Binding where
  /-- In the body itself. -/
  | own
  | global
  /-- In an enclosing function. -/
  | nonlocal
  deriving DecidableEq

namespace Binding

def text : Binding → String
  | own => "local"
  | global => "global"
  | nonlocal => "nonlocal"

/-- The binding of a name that is bound in two ways. A declaration wins over a
local binding, and the first of two declarations over the second. -/
def merge (first second : Binding) : Binding :=
  if first = own then second else first

end Binding

inductive ScopeKind where
  | moduleScope
  | functionScope
  | classScope
  deriving DecidableEq

def ScopeKind.text : ScopeKind → String
  | moduleScope => "module"
  | functionScope => "function"
  | classScope => "class"

/-- Why a declaration is refused. -/
inductive ScopeComplaint where
  | nonlocalInModule
  | nonlocalAndGlobal (name : String)
  | parameterAndNonlocal (name : String)
  | parameterAndGlobal (name : String)
  | unboundNonlocal (name : String)

def ScopeComplaint.message : ScopeComplaint → String
  | nonlocalInModule => "nonlocal declaration not allowed at module level"
  | nonlocalAndGlobal name => "name '" ++ name ++ "' is nonlocal and global"
  | parameterAndNonlocal name => "name '" ++ name ++ "' is parameter and nonlocal"
  | parameterAndGlobal name => "name '" ++ name ++ "' is parameter and global"
  | unboundNonlocal name => "no binding for nonlocal '" ++ name ++ "' found"

structure ScopeError where
  position : Position
  complaint : ScopeComplaint

def ScopeError.message (error : ScopeError) : String :=
  error.position.label ++ ": " ++ error.complaint.message

/-! ## What is collected -/

/-- The names of one body. -/
structure Names where
  bindings : List (String × Binding) := []
  params : List String := []
  nonlocals : List String := []
  globals : List String := []
  /-- Names bound by function definitions. -/
  functions : List String := []
  uses : List String := []
  /-- Where each declared name was first declared. -/
  declared : List (String × Position) := []
  errors : List ScopeError := []

/-- A list with one more element, if it is new. -/
def insertNew (name : String) (names : List String) : List String :=
  if names.contains name then names else names ++ [name]

/-- Adds an entry, or changes the one with the same key. -/
def setEntry {α : Type} (name : String) (value : α) : List (String × α) → List (String × α)
  | [] => [(name, value)]
  | (key, old) :: rest =>
    if key == name then (key, value) :: rest else (key, old) :: setEntry name value rest

namespace Names

def binding? (names : Names) (name : String) : Option Binding :=
  names.bindings.lookup name

/-- Notes a binding of a name. Reserved names are always local. -/
def bind (names : Names) (name : String) (binding : Binding) : Names :=
  let binding := if isReserved name then .own else binding
  let merged := match names.binding? name with
    | some old => old.merge binding
    | none => binding
  { names with bindings := setEntry name merged names.bindings }

def use (names : Names) (name : String) : Names :=
  { names with uses := insertNew name names.uses }

def fail (names : Names) (position : Position) (complaint : ScopeComplaint) : Names :=
  { names with errors := names.errors ++ [⟨position, complaint⟩] }

/-- Notes where a name is declared, if it is the first declaration. -/
def noteDeclared (names : Names) (ident : Ident) : Names :=
  if (names.declared.lookup ident.name).isSome then names
  else { names with declared := names.declared ++ [(ident.name, ident.position)] }

/-- Notes the declaration of one name. -/
def declare (kind : ScopeKind) (declaration : Declaration) (names : Names) (ident : Ident) : Names :=
  let name := ident.name
  let isParam := names.params.contains name
  match declaration with
  | .nonlocal =>
    if kind = .moduleScope then names.fail ident.position .nonlocalInModule
    else if names.globals.contains name then names.fail ident.position (.nonlocalAndGlobal name)
    else if isParam then names.fail ident.position (.parameterAndNonlocal name)
    else
      let names := { names with nonlocals := insertNew name names.nonlocals }
      (names.bind name .nonlocal).noteDeclared ident
  | .global =>
    if names.nonlocals.contains name then names.fail ident.position (.nonlocalAndGlobal name)
    else if isParam then names.fail ident.position (.parameterAndGlobal name)
    else
      let names := { names with globals := insertNew name names.globals }
      (names.bind name .global).noteDeclared ident

/-- Notes the parameters of a function. -/
def addParam (names : Names) (param : Param) : Names :=
  match param.ident with
  | some ident =>
    let names := { names with params := insertNew ident.name names.params }
    names.bind ident.name .own
  | none => names

end Names

abbrev Collector := StateM Names

namespace Collector

def bind (name : String) : Collector Unit :=
  modify (·.bind name .own)

def use (name : String) : Collector Unit :=
  modify (·.use name)

/-! ## Expressions -/

def paramNames (params : List Param) : List String :=
  params.filterMap fun param => param.ident.map (·.name)

/-- All names in an expression. -/
def namesIn (expr : Expr) : List String :=
  expr.nodes.filterMap fun
    | .expr (.name _ id) => some id
    | _ => none

mutual

/-- Notes the uses of names that are not `hidden`. If `exports` holds, assignment
expressions bind in this body, and hide their targets from then on. The result
is the names hidden afterwards. -/
def free (exports : Bool) (hidden : List String) : Expr → Collector (List String)
  | .name _ id => do
    if !hidden.contains id then use id
    return hidden
  | .named target value => do
    if exports then
      bind target.name
      free exports (target.name :: hidden) value
    else
      if !hidden.contains target.name then use target.name
      free exports hidden value
  | .lambda _ params body => do
    let after ← freeDefaults exports hidden params
    let _ ← free false (paramNames params ++ hidden) body
    return after
  | .literal .. => return hidden
  | .fstring _ _ parts => freeList exports hidden parts
  | .field _ value _ spec => do
    freeOption exports (← free exports hidden value) spec
  | .call callee arguments _ => do
    freeList exports (← free exports hidden callee) arguments
  | .keyword _ _ value => free exports hidden value
  | .starred _ _ value => free exports hidden value
  | .member object _ _ => free exports hidden object
  | .subscript object key _ => do free exports (← free exports hidden object) key
  | .slice _ lower upper step => do
    let hidden ← freeOption exports hidden lower
    freeOption exports (← freeOption exports hidden upper) step
  | .binary left _ _ right => do free exports (← free exports hidden left) right
  | .logical left _ _ right => do free exports (← free exports hidden left) right
  | .compare left _ rights => do freeList exports (← free exports hidden left) rights
  | .unary _ _ operand => free exports hidden operand
  | .conditional test whenTrue whenFalse => do
    let hidden ← free exports hidden test
    free exports (← free exports hidden whenTrue) whenFalse
  | .list _ items _ => freeList exports hidden items
  | .tuple _ items _ => freeList exports hidden items
  | .set _ items _ => freeList exports hidden items
  | .dict _ items _ => freeList exports hidden items
  | .entry key value => do free exports (← free exports hidden key) value
  | .comprehension _ _ body clauses _ => do
    freeClauses exports (← free exports hidden body) clauses
  | .yield _ _ value => freeOption exports hidden value

def freeOption (exports : Bool) (hidden : List String) : Option Expr → Collector (List String)
  | none => return hidden
  | some value => free exports hidden value

def freeList (exports : Bool) (hidden : List String) : List Expr → Collector (List String)
  | [] => return hidden
  | first :: rest => do freeList exports (← free exports hidden first) rest

def freeDefaults (exports : Bool) (hidden : List String) : List Param → Collector (List String)
  | [] => return hidden
  | .mk _ _ _ _ default :: rest => do
    freeDefaults exports (← freeOption exports hidden default) rest

def freeClauses (exports : Bool) (hidden : List String) : List Clause → Collector (List String)
  | [] => return hidden
  | .loop _ target iterable :: rest => do
    let hidden ← free exports hidden target
    freeClauses exports (← free exports hidden iterable) rest
  | .filter _ test :: rest => do freeClauses exports (← free exports hidden test) rest

end

/-- Notes the names of the clauses after the first of a comprehension. -/
def laterClauses (hidden : List String) : List Clause → Collector (List String)
  | [] => return hidden
  | .loop _ target iterable :: rest => do
    let hidden ← free true hidden iterable
    laterClauses (namesIn target ++ hidden) rest
  | .filter _ test :: rest => do laterClauses (← free true hidden test) rest

mutual

/-- Notes the names of an expression that is evaluated in the body. -/
def expr : Expr → Collector Unit
  | .name _ id => use id
  | .named target value => do
    expr value
    bind target.name
  | .lambda _ params body => do
    defaults params
    let _ ← free false (paramNames params) body
  | .fstring _ _ parts => do
    let _ ← freeList true [] parts
  | .comprehension _ _ body clauses _ => do
    let hidden ← firstClause clauses
    let hidden ← laterClauses hidden (clauses.drop 1)
    let _ ← free true hidden body
  | .literal .. => return
  | .field _ value _ spec => do
    expr value
    optional spec
  | .call callee arguments _ => do
    expr callee
    exprs arguments
  | .keyword _ _ value => expr value
  | .starred _ _ value => expr value
  | .member object _ _ => expr object
  | .subscript object key _ => do
    expr object
    expr key
  | .slice _ lower upper step => do
    optional lower
    optional upper
    optional step
  | .binary left _ _ right => do
    expr left
    expr right
  | .logical left _ _ right => do
    expr left
    expr right
  | .compare left _ rights => do
    expr left
    exprs rights
  | .unary _ _ operand => expr operand
  | .conditional test whenTrue whenFalse => do
    expr test
    expr whenTrue
    expr whenFalse
  | .list _ items _ => exprs items
  | .tuple _ items _ => exprs items
  | .set _ items _ => exprs items
  | .dict _ items _ => exprs items
  | .entry key value => do
    expr key
    expr value
  | .yield _ _ value => optional value

def optional : Option Expr → Collector Unit
  | none => return
  | some value => expr value

def exprs : List Expr → Collector Unit
  | [] => return
  | first :: rest => do
    expr first
    exprs rest

def defaults : List Param → Collector Unit
  | [] => return
  | .mk _ _ _ _ default :: rest => do
    optional default
    defaults rest

/-- Notes the names of the first clause of a comprehension, whose iterable is
evaluated in the body. The result is the names that the clause hides. -/
def firstClause : List Clause → Collector (List String)
  | .loop _ target iterable :: _ => do
    expr iterable
    return namesIn target
  | .filter _ test :: _ => free true [] test
  | [] => return []

end

mutual

/-- Notes the names of a binding target. -/
def target : Expr → Collector Unit
  | .name _ id => bind id
  | .tuple _ items _ => targets items
  | .list _ items _ => targets items
  | .starred _ _ value => target value
  | .member object _ _ => expr object
  | .subscript object key _ => do
    expr object
    expr key
  | _ => return

def targets : List Expr → Collector Unit
  | [] => return
  | first :: rest => do
    target first
    targets rest

end

/-! ## Statements -/

def imported (names : List Alias) : Collector Unit :=
  names.forM fun item => bind item.bound

def params (items : List Param) : Collector Unit :=
  items.forM fun param => do
    optional param.hint
    optional param.default

def withItems (items : List WithItem) : Collector Unit :=
  items.forM fun item => do
    expr item.manager
    match item.target with
    | some bound => target bound
    | none => return

/-- Binds, in the body around a generated function, the names that it declares
nonlocal: it stands for a comprehension whose assignment expressions bind here. -/
def helperDeclarations (kind : ScopeKind) (body : List Stmt) : Collector Unit := do
  if kind ≠ .moduleScope then
    body.forM fun
      | .declare _ .nonlocal names => names.forM fun ident => bind ident.name
      | _ => return

/-- Notes the parts of a function definition that are evaluated in the body
around it, and its name. -/
def functionHead (kind : ScopeKind) (decorators : List Expr) (ident : Ident)
    (parameters : List Param) (result : Option Expr) (body : List Stmt) : Collector Unit := do
  exprs decorators
  params parameters
  optional result
  bind ident.name
  modify fun names => { names with functions := insertNew ident.name names.functions }
  if beginsWithText "_dp_" ident.name then helperDeclarations kind body

/-- Notes the parts of a class definition that are evaluated in the body around
it, and its name. -/
def classHead (decorators : List Expr) (ident : Ident) (bases : List Expr) : Collector Unit := do
  exprs decorators
  exprs bases
  bind ident.name

/-- Whether an import takes all members of a module. -/
def importsAll : List Alias → Bool
  | [item] => item.path == "*"
  | _ => false

/-- Notes the names that handlers bind. -/
def handlerNames (handlers : List Handler) : Collector Unit :=
  handlers.forM fun
    | .mk _ _ (some ident) _ => bind ident.name
    | _ => return

mutual

/-- Notes the names of a statement. -/
def stmt (kind : ScopeKind) : Stmt → Collector Unit
  | .expression value => expr value
  | .assign left value => do
    expr value
    targets left
  | .augAssign left _ value => do
    target left
    expr value
  | .annAssign left hint value => do
    target left
    expr hint
    optional value
  | .delete _ items => targets items
  | .branch .. => return
  | .returns _ result => optional result
  | .raises _ exception cause => do
    optional exception
    optional cause
  | .declare _ declaration idents =>
    modify fun names => idents.foldl (Names.declare kind declaration) names
  | .asserts _ test message => do
    expr test
    optional message
  | .imports _ names => imported names
  | .importFrom _ _ _ names _ => if importsAll names then return else imported names
  | .conditional _ test body _ orelse => do
    expr test
    stmts kind body
    stmts kind orelse
  | .whileLoop _ test body orelse => do
    expr test
    stmts kind body
    stmts kind orelse
  | .forLoop _ bound iterable body orelse => do
    expr iterable
    target bound
    stmts kind body
    stmts kind orelse
  | .tryBlock _ body handlers orelse final => do
    handlerNames handlers
    stmts kind body
    handlerBodies kind handlers
    stmts kind orelse
    stmts kind final
  | .withBlock _ items body => do
    withItems items
    stmts kind body
  | .function decorators _ ident parameters result body =>
    functionHead kind decorators ident parameters result body
  | .classDef decorators _ ident bases _ => classHead decorators ident bases

def stmts (kind : ScopeKind) : List Stmt → Collector Unit
  | [] => return
  | first :: rest => do
    stmt kind first
    stmts kind rest

def handlerBodies (kind : ScopeKind) : List Handler → Collector Unit
  | [] => return
  | .mk _ type _ body :: rest => do
    optional type
    stmts kind body
    handlerBodies kind rest

end

end Collector

/-- The names of a body with its parameters. -/
def collect (kind : ScopeKind) (params : List Param) (body : List Stmt) : Names :=
  ((Collector.stmts kind body).run (params.foldl Names.addParam {})).2

end Unsugar
