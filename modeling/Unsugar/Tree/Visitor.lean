import Unsugar.Tree.Basic

/-! Revising trees. A visitor may replace any expression or binding target; what
it does not replace is revised below. A pass extends a visitor to statements,
with an environment that changes at functions and classes. -/

namespace Unsugar

/-- What to do with expressions. A replaced expression is not entered. -/
structure Visitor (m : Type → Type) where
  /-- The replacement of an expression that is evaluated. -/
  expr : Expr → m (Option Expr)
  /-- The replacement of an expression that is bound or deleted. -/
  target : Expr → m (Option Expr)
  /-- Replacements of arguments of a call, by their place. -/
  arguments : (callee : Expr) → List Expr → List (Option Expr) := fun _ _ => []

/-- The visitor that leaves expressions as they are. -/
def Visitor.unchanged {m : Type → Type} [Monad m] : Visitor m where
  expr value := return some value
  target value := return some value

/-- The replacement, or what the rest of the revision makes. -/
def orRevise {m : Type → Type} [Monad m] (found : m (Option Expr)) (below : m Expr) : m Expr := do
  match ← found with
  | some replacement => return replacement
  | none => below

namespace Expr

variable {m : Type → Type} [Monad m]

mutual

/-- Revises an expression. The text of a formatted string is forgotten when it
is entered. -/
def revise (visitor : Visitor m) : Expr → m Expr
  | name position id =>
    orRevise (visitor.expr (name position id)) (pure (name position id))
  | literal position raw value =>
    orRevise (visitor.expr (literal position raw value)) (pure (literal position raw value))
  | fstring position raw parts =>
    orRevise (visitor.expr (fstring position raw parts)) do
      return fstring position "" (← reviseList visitor parts)
  | field position value conversion spec =>
    orRevise (visitor.expr (field position value conversion spec)) do
      let value ← revise visitor value
      return field position value conversion (← reviseOption visitor spec)
  | call callee arguments closing =>
    orRevise (visitor.expr (call callee arguments closing)) do
      let replaced := visitor.arguments callee arguments
      let callee ← revise visitor callee
      return call callee (← reviseArguments visitor replaced arguments) closing
  | keyword position id value =>
    orRevise (visitor.expr (keyword position id value)) do
      return keyword position id (← revise visitor value)
  | starred position op value =>
    orRevise (visitor.expr (starred position op value)) do
      return starred position op (← revise visitor value)
  | member object position id =>
    orRevise (visitor.expr (member object position id)) do
      return member (← revise visitor object) position id
  | subscript object key closing =>
    orRevise (visitor.expr (subscript object key closing)) do
      let object ← revise visitor object
      return subscript object (← revise visitor key) closing
  | slice position lower upper step =>
    orRevise (visitor.expr (slice position lower upper step)) do
      let lower ← reviseOption visitor lower
      let upper ← reviseOption visitor upper
      return slice position lower upper (← reviseOption visitor step)
  | binary left position op right =>
    orRevise (visitor.expr (binary left position op right)) do
      let left ← revise visitor left
      return binary left position op (← revise visitor right)
  | logical left position op right =>
    orRevise (visitor.expr (logical left position op right)) do
      let left ← revise visitor left
      return logical left position op (← revise visitor right)
  | compare left ops rights =>
    orRevise (visitor.expr (compare left ops rights)) do
      let left ← revise visitor left
      return compare left ops (← reviseList visitor rights)
  | unary position op operand =>
    orRevise (visitor.expr (unary position op operand)) do
      return unary position op (← revise visitor operand)
  | conditional test whenTrue whenFalse =>
    orRevise (visitor.expr (conditional test whenTrue whenFalse)) do
      let test ← revise visitor test
      let whenTrue ← revise visitor whenTrue
      return conditional test whenTrue (← revise visitor whenFalse)
  | lambda position params body =>
    orRevise (visitor.expr (lambda position params body)) do
      let params ← reviseParams visitor params
      return lambda position params (← revise visitor body)
  | list opening items closing =>
    orRevise (visitor.expr (list opening items closing)) do
      return list opening (← reviseList visitor items) closing
  | tuple opening items closing =>
    orRevise (visitor.expr (tuple opening items closing)) do
      return tuple opening (← reviseList visitor items) closing
  | set opening items closing =>
    orRevise (visitor.expr (set opening items closing)) do
      return set opening (← reviseList visitor items) closing
  | dict opening items closing =>
    orRevise (visitor.expr (dict opening items closing)) do
      return dict opening (← reviseList visitor items) closing
  | entry key value =>
    orRevise (visitor.expr (entry key value)) do
      let key ← revise visitor key
      return entry key (← revise visitor value)
  | comprehension kind opening body clauses closing =>
    orRevise (visitor.expr (comprehension kind opening body clauses closing)) do
      let clauses ← reviseClauses visitor clauses
      return comprehension kind opening (← revise visitor body) clauses closing
  | named target value =>
    orRevise (visitor.expr (named target value)) do
      return named target (← revise visitor value)
  | yield position delegates value =>
    orRevise (visitor.expr (yield position delegates value)) do
      return yield position delegates (← reviseOption visitor value)

/-- Revises a binding target. Names are its leaves, and the operands of
attributes and subscripts are evaluated. -/
def reviseTarget (visitor : Visitor m) : Expr → m Expr
  | tuple opening items closing =>
    orRevise (visitor.target (tuple opening items closing)) do
      return tuple opening (← reviseTargets visitor items) closing
  | list opening items closing =>
    orRevise (visitor.target (list opening items closing)) do
      return list opening (← reviseTargets visitor items) closing
  | starred position op value =>
    orRevise (visitor.target (starred position op value)) do
      return starred position op (← reviseTarget visitor value)
  | member object position id =>
    orRevise (visitor.target (member object position id)) do
      return member (← revise visitor object) position id
  | subscript object key closing =>
    orRevise (visitor.target (subscript object key closing)) do
      let object ← revise visitor object
      return subscript object (← revise visitor key) closing
  | other => orRevise (visitor.target other) (pure other)

def reviseOption (visitor : Visitor m) : Option Expr → m (Option Expr)
  | none => return none
  | some value => do return some (← revise visitor value)

def reviseList (visitor : Visitor m) : List Expr → m (List Expr)
  | [] => return []
  | first :: rest => do
    let first ← revise visitor first
    return first :: (← reviseList visitor rest)

/-- Revises arguments, some of which have replacements. -/
def reviseArguments (visitor : Visitor m) (replaced : List (Option Expr)) :
    List Expr → m (List Expr)
  | [] => return []
  | first :: rest => do
    let first ← orRevise (pure (replaced.head?.getD none)) (revise visitor first)
    return first :: (← reviseArguments visitor replaced.tail rest)

def reviseTargets (visitor : Visitor m) : List Expr → m (List Expr)
  | [] => return []
  | first :: rest => do
    let first ← reviseTarget visitor first
    return first :: (← reviseTargets visitor rest)

/-- Revises the type hints and defaults of parameters. -/
def reviseParams (visitor : Visitor m) : List Param → m (List Param)
  | [] => return []
  | .mk kind position ident hint default :: rest => do
    let hint ← reviseOption visitor hint
    let default ← reviseOption visitor default
    return .mk kind position ident hint default :: (← reviseParams visitor rest)

def reviseClauses (visitor : Visitor m) : List Clause → m (List Clause)
  | [] => return []
  | .loop position target iterable :: rest => do
    let iterable ← revise visitor iterable
    let target ← reviseTarget visitor target
    return .loop position target iterable :: (← reviseClauses visitor rest)
  | .filter position test :: rest => do
    let test ← revise visitor test
    return .filter position test :: (← reviseClauses visitor rest)

end

end Expr

namespace Stmt

variable {m : Type → Type} [Monad m]

/-- Revises the expressions of a statement that has no body. The value of an
assignment comes before its targets. -/
def reviseSimple (visitor : Visitor m) : Stmt → m Stmt
  | expression value => do return expression (← value.revise visitor)
  | assign targets value => do
    let value ← value.revise visitor
    return assign (← Expr.reviseTargets visitor targets) value
  | augAssign target op value => do
    let target ← target.reviseTarget visitor
    return augAssign target op (← value.revise visitor)
  | annAssign target hint value => do
    let target ← target.reviseTarget visitor
    let hint ← hint.revise visitor
    return annAssign target hint (← Expr.reviseOption visitor value)
  | delete position targets => do
    return delete position (← Expr.reviseTargets visitor targets)
  | returns position result => do
    return returns position (← Expr.reviseOption visitor result)
  | raises position exception cause => do
    let exception ← Expr.reviseOption visitor exception
    return raises position exception (← Expr.reviseOption visitor cause)
  | asserts position test message => do
    let test ← test.revise visitor
    return asserts position test (← Expr.reviseOption visitor message)
  | other => return other

end Stmt

/-- A function without its body. -/
structure FunctionHead where
  decorators : List Expr
  position : Position
  ident : Ident
  params : List Param
  result : Option Expr

/-- A class without its body. -/
structure ClassHead where
  decorators : List Expr
  position : Position
  ident : Ident
  bases : List Expr

def FunctionHead.withBody (head : FunctionHead) (body : List Stmt) : Stmt :=
  .function head.decorators head.position head.ident head.params head.result body

def ClassHead.withBody (head : ClassHead) (body : List Stmt) : Stmt :=
  .classDef head.decorators head.position head.ident head.bases body

/-- A revision of statements. The environment `ε` is that of the body in which
a statement stands. -/
structure Pass (m : Type → Type) (ε : Type) where
  /-- What to do with the expressions of loops, handlers and `with` items. -/
  visitor : ε → Visitor m
  /-- Revises the test of a conditional or a `while` loop. -/
  test : ε → Expr → m Expr
  /-- Revises a statement that has no body. -/
  simple : ε → Stmt → m (List Stmt)
  /-- Revises what stands before the body of a function, and gives the
  environment of the body, or none if the body is left alone. -/
  enterFunction : ε → FunctionHead → (body : List Stmt) → m (FunctionHead × Option ε)
  /-- Revises a function whose body is done; `next` is the statement after it. -/
  leaveFunction : (outer inner : ε) → (next : Option Stmt) → FunctionHead → List Stmt →
    m (List Stmt)
  enterClass : ε → ClassHead → m (ClassHead × Option ε)
  leaveClass : (outer inner : ε) → ClassHead → List Stmt → m (List Stmt)

namespace Pass

variable {m : Type → Type} [Monad m] {ε : Type}

def withItems (visitor : Visitor m) : List WithItem → m (List WithItem)
  | [] => return []
  | ⟨manager, target⟩ :: rest => do
    let manager ← manager.revise visitor
    let target ← match target with
      | none => pure none
      | some target => some <$> target.reviseTarget visitor
    return ⟨manager, target⟩ :: (← withItems visitor rest)

mutual

/-- Revises a statement; `next` is the one after it. -/
def stmt (pass : Pass m ε) (env : ε) (next : Option Stmt) : Stmt → m (List Stmt)
  | .conditional position test body elsePosition orelse => do
    let test ← pass.test env test
    let body ← pass.body env body
    return [.conditional position test body elsePosition (← pass.body env orelse)]
  | .whileLoop position test body orelse => do
    let test ← pass.test env test
    let body ← pass.body env body
    return [.whileLoop position test body (← pass.body env orelse)]
  | .forLoop position target iterable body orelse => do
    let iterable ← iterable.revise (pass.visitor env)
    let target ← target.reviseTarget (pass.visitor env)
    let body ← pass.body env body
    return [.forLoop position target iterable body (← pass.body env orelse)]
  | .tryBlock position body handlers orelse final => do
    let body ← pass.body env body
    let handlers ← pass.handlers env handlers
    let orelse ← pass.body env orelse
    return [.tryBlock position body handlers orelse (← pass.body env final)]
  | .withBlock position items body => do
    let items ← withItems (pass.visitor env) items
    return [.withBlock position items (← pass.body env body)]
  | .function decorators position ident params result body => do
    let (head, inner) ← pass.enterFunction env ⟨decorators, position, ident, params, result⟩ body
    match inner with
    | none => return [head.withBody body]
    | some inner => pass.leaveFunction env inner next head (← pass.body inner body)
  | .classDef decorators position ident bases body => do
    let (head, inner) ← pass.enterClass env ⟨decorators, position, ident, bases⟩
    match inner with
    | none => return [head.withBody body]
    | some inner => pass.leaveClass env inner head (← pass.body inner body)
  | .expression value => pass.simple env (.expression value)
  | .assign targets value => pass.simple env (.assign targets value)
  | .augAssign target op value => pass.simple env (.augAssign target op value)
  | .annAssign target hint value => pass.simple env (.annAssign target hint value)
  | .delete position targets => pass.simple env (.delete position targets)
  | .branch position kind => pass.simple env (.branch position kind)
  | .returns position result => pass.simple env (.returns position result)
  | .raises position exception cause => pass.simple env (.raises position exception cause)
  | .declare position declaration names => pass.simple env (.declare position declaration names)
  | .asserts position test message => pass.simple env (.asserts position test message)
  | .imports position names => pass.simple env (.imports position names)
  | .importFrom position source level names closing =>
    pass.simple env (.importFrom position source level names closing)

/-- Revises the statements of a body. -/
def body (pass : Pass m ε) (env : ε) : List Stmt → m (List Stmt)
  | [] => return []
  | first :: rest => do
    let here ← pass.stmt env rest.head? first
    return here ++ (← pass.body env rest)

def handlers (pass : Pass m ε) (env : ε) : List Handler → m (List Handler)
  | [] => return []
  | .mk position type ident body :: rest => do
    let type ← Expr.reviseOption (pass.visitor env) type
    let body ← pass.body env body
    return .mk position type ident body :: (← pass.handlers env rest)

end

/-- The pass that leaves everything as it is; other passes change parts of it. -/
def unchanged : Pass m ε where
  visitor _ := Visitor.unchanged
  test _ expr := return expr
  simple _ stmt := return [stmt]
  enterFunction env head _ := return (head, some env)
  leaveFunction _ _ _ head body := return [head.withBody body]
  enterClass env head := return (head, some env)
  leaveClass _ _ head body := return [head.withBody body]

/-- The pass that takes a visitor to every expression of a module. -/
def everywhere (visitor : Visitor m) : Pass m Unit where
  visitor _ := visitor
  test _ expr := expr.revise visitor
  simple _ stmt := do return [← stmt.reviseSimple visitor]
  enterFunction env head _ := do
    let decorators ← Expr.reviseList visitor head.decorators
    let params ← Expr.reviseParams visitor head.params
    let result ← Expr.reviseOption visitor head.result
    return ({ head with decorators, params, result }, some env)
  leaveFunction _ _ _ head body := return [head.withBody body]
  enterClass env head := do
    let decorators ← Expr.reviseList visitor head.decorators
    let bases ← Expr.reviseList visitor head.bases
    return ({ head with decorators, bases }, some env)
  leaveClass _ _ head body := return [head.withBody body]

end Pass
end Unsugar
