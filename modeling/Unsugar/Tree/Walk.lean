import Unsugar.Tree.Basic

/-! The nodes of a tree in depth-first order, parents before children. -/

namespace Unsugar

/-- Anything that a tree is made of. The occurrence of a name that is no
expression counts as one. -/
inductive Node where
  | expr (value : Expr)
  | stmt (value : Stmt)
  | imported (value : Alias)
  | handler (value : Handler)
  | param (value : Param)
  | clause (value : Clause)

/-- A node with its distance from the root of the walk. -/
structure Visit where
  depth : Nat
  node : Node

/-- A node, followed by what is below it if the walk enters it. -/
def Node.visit (enters : Node → Bool) (depth : Nat) (node : Node) (below : List Visit) :
    List Visit :=
  ⟨depth, node⟩ :: if enters node then below else []

def Ident.walk (depth : Nat) (ident : Ident) : List Visit :=
  [⟨depth, .expr (.name ident.position ident.name)⟩]

def Ident.walkOption (depth : Nat) : Option Ident → List Visit
  | none => []
  | some ident => ident.walk depth

namespace Expr

mutual

/-- The nodes of an expression. -/
def walk (enters : Node → Bool) (depth : Nat) : Expr → List Visit
  | name position id => (Node.expr (name position id)).visit enters depth []
  | literal position raw value =>
    (Node.expr (literal position raw value)).visit enters depth []
  | fstring position raw parts =>
    (Node.expr (fstring position raw parts)).visit enters depth
      (walkList enters (depth + 1) parts)
  | field position value conversion spec =>
    (Node.expr (field position value conversion spec)).visit enters depth
      (walk enters (depth + 1) value ++ walkOption enters (depth + 1) spec)
  | call callee arguments closing =>
    (Node.expr (call callee arguments closing)).visit enters depth
      (walk enters (depth + 1) callee ++ walkList enters (depth + 1) arguments)
  | keyword position id value =>
    (Node.expr (keyword position id value)).visit enters depth (walk enters (depth + 1) value)
  | starred position op value =>
    (Node.expr (starred position op value)).visit enters depth (walk enters (depth + 1) value)
  | member object position id =>
    (Node.expr (member object position id)).visit enters depth (walk enters (depth + 1) object)
  | subscript object key closing =>
    (Node.expr (subscript object key closing)).visit enters depth
      (walk enters (depth + 1) object ++ walk enters (depth + 1) key)
  | slice position lower upper step =>
    (Node.expr (slice position lower upper step)).visit enters depth
      (walkOption enters (depth + 1) lower ++ walkOption enters (depth + 1) upper ++
        walkOption enters (depth + 1) step)
  | binary left position op right =>
    (Node.expr (binary left position op right)).visit enters depth
      (walk enters (depth + 1) left ++ walk enters (depth + 1) right)
  | logical left position op right =>
    (Node.expr (logical left position op right)).visit enters depth
      (walk enters (depth + 1) left ++ walk enters (depth + 1) right)
  | compare left ops rights =>
    (Node.expr (compare left ops rights)).visit enters depth
      (walk enters (depth + 1) left ++ walkList enters (depth + 1) rights)
  | unary position op operand =>
    (Node.expr (unary position op operand)).visit enters depth
      (walk enters (depth + 1) operand)
  | conditional test whenTrue whenFalse =>
    (Node.expr (conditional test whenTrue whenFalse)).visit enters depth
      (walk enters (depth + 1) test ++ walk enters (depth + 1) whenTrue ++
        walk enters (depth + 1) whenFalse)
  | lambda position params body =>
    (Node.expr (lambda position params body)).visit enters depth
      (walkParams enters (depth + 1) params ++ walk enters (depth + 1) body)
  | list opening items closing =>
    (Node.expr (list opening items closing)).visit enters depth
      (walkList enters (depth + 1) items)
  | tuple opening items closing =>
    (Node.expr (tuple opening items closing)).visit enters depth
      (walkList enters (depth + 1) items)
  | set opening items closing =>
    (Node.expr (set opening items closing)).visit enters depth
      (walkList enters (depth + 1) items)
  | dict opening items closing =>
    (Node.expr (dict opening items closing)).visit enters depth
      (walkList enters (depth + 1) items)
  | entry key value =>
    (Node.expr (entry key value)).visit enters depth
      (walk enters (depth + 1) key ++ walk enters (depth + 1) value)
  | comprehension kind opening body clauses closing =>
    (Node.expr (comprehension kind opening body clauses closing)).visit enters depth
      (walk enters (depth + 1) body ++ walkClauses enters (depth + 1) clauses)
  | named target value =>
    (Node.expr (named target value)).visit enters depth
      (target.walk (depth + 1) ++ walk enters (depth + 1) value)
  | yield position delegates value =>
    (Node.expr (yield position delegates value)).visit enters depth
      (walkOption enters (depth + 1) value)

def walkOption (enters : Node → Bool) (depth : Nat) : Option Expr → List Visit
  | none => []
  | some value => walk enters depth value

def walkList (enters : Node → Bool) (depth : Nat) : List Expr → List Visit
  | [] => []
  | first :: rest => walk enters depth first ++ walkList enters depth rest

def walkParam (enters : Node → Bool) (depth : Nat) : Param → List Visit
  | .mk kind position ident hint default =>
    (Node.param (.mk kind position ident hint default)).visit enters depth
      (Ident.walkOption (depth + 1) ident ++ walkOption enters (depth + 1) hint ++
        walkOption enters (depth + 1) default)

def walkParams (enters : Node → Bool) (depth : Nat) : List Param → List Visit
  | [] => []
  | first :: rest => walkParam enters depth first ++ walkParams enters depth rest

def walkClause (enters : Node → Bool) (depth : Nat) : Clause → List Visit
  | .loop position target iterable =>
    (Node.clause (.loop position target iterable)).visit enters depth
      (walk enters (depth + 1) target ++ walk enters (depth + 1) iterable)
  | .filter position test =>
    (Node.clause (.filter position test)).visit enters depth (walk enters (depth + 1) test)

def walkClauses (enters : Node → Bool) (depth : Nat) : List Clause → List Visit
  | [] => []
  | first :: rest => walkClause enters depth first ++ walkClauses enters depth rest

end

/-- All nodes of an expression. -/
def nodes (expr : Expr) : List Node :=
  (expr.walk (fun _ => true) 0).map (·.node)

end Expr

def Alias.walk (enters : Node → Bool) (depth : Nat) (item : Alias) : List Visit :=
  (Node.imported item).visit enters depth (Ident.walkOption (depth + 1) item.asName)

def WithItem.walk (enters : Node → Bool) (depth : Nat) (item : WithItem) : List Visit :=
  item.manager.walk enters depth ++ Expr.walkOption enters depth item.target

namespace Stmt

mutual

/-- The nodes of a statement. -/
def walk (enters : Node → Bool) (depth : Nat) : Stmt → List Visit
  | expression value =>
    (Node.stmt (expression value)).visit enters depth (value.walk enters (depth + 1))
  | assign targets value =>
    (Node.stmt (assign targets value)).visit enters depth
      (Expr.walkList enters (depth + 1) targets ++ value.walk enters (depth + 1))
  | augAssign target op value =>
    (Node.stmt (augAssign target op value)).visit enters depth
      (target.walk enters (depth + 1) ++ value.walk enters (depth + 1))
  | annAssign target hint value =>
    (Node.stmt (annAssign target hint value)).visit enters depth
      (target.walk enters (depth + 1) ++ hint.walk enters (depth + 1) ++
        Expr.walkOption enters (depth + 1) value)
  | delete position targets =>
    (Node.stmt (delete position targets)).visit enters depth
      (Expr.walkList enters (depth + 1) targets)
  | branch position kind => (Node.stmt (branch position kind)).visit enters depth []
  | returns position result =>
    (Node.stmt (returns position result)).visit enters depth
      (Expr.walkOption enters (depth + 1) result)
  | raises position exception cause =>
    (Node.stmt (raises position exception cause)).visit enters depth
      (Expr.walkOption enters (depth + 1) exception ++ Expr.walkOption enters (depth + 1) cause)
  | declare position declaration names =>
    (Node.stmt (declare position declaration names)).visit enters depth
      (names.flatMap (Ident.walk (depth + 1)))
  | asserts position test message =>
    (Node.stmt (asserts position test message)).visit enters depth
      (test.walk enters (depth + 1) ++ Expr.walkOption enters (depth + 1) message)
  | imports position names =>
    (Node.stmt (imports position names)).visit enters depth
      (names.flatMap (Alias.walk enters (depth + 1)))
  | importFrom position source level names closing =>
    (Node.stmt (importFrom position source level names closing)).visit enters depth
      (names.flatMap (Alias.walk enters (depth + 1)))
  | conditional position test body elsePosition orelse =>
    (Node.stmt (conditional position test body elsePosition orelse)).visit enters depth
      (test.walk enters (depth + 1) ++ walkBody enters (depth + 1) body ++
        walkBody enters (depth + 1) orelse)
  | whileLoop position test body orelse =>
    (Node.stmt (whileLoop position test body orelse)).visit enters depth
      (test.walk enters (depth + 1) ++ walkBody enters (depth + 1) body ++
        walkBody enters (depth + 1) orelse)
  | forLoop position target iterable body orelse =>
    (Node.stmt (forLoop position target iterable body orelse)).visit enters depth
      (target.walk enters (depth + 1) ++ iterable.walk enters (depth + 1) ++
        walkBody enters (depth + 1) body ++ walkBody enters (depth + 1) orelse)
  | tryBlock position body handlers orelse final =>
    (Node.stmt (tryBlock position body handlers orelse final)).visit enters depth
      (walkBody enters (depth + 1) body ++ walkHandlers enters (depth + 1) handlers ++
        walkBody enters (depth + 1) orelse ++ walkBody enters (depth + 1) final)
  | withBlock position items body =>
    (Node.stmt (withBlock position items body)).visit enters depth
      (items.flatMap (WithItem.walk enters (depth + 1)) ++ walkBody enters (depth + 1) body)
  | function decorators position ident params result body =>
    (Node.stmt (function decorators position ident params result body)).visit enters depth
      (Expr.walkList enters (depth + 1) decorators ++ ident.walk (depth + 1) ++
        Expr.walkParams enters (depth + 1) params ++ Expr.walkOption enters (depth + 1) result ++
        walkBody enters (depth + 1) body)
  | classDef decorators position ident bases body =>
    (Node.stmt (classDef decorators position ident bases body)).visit enters depth
      (Expr.walkList enters (depth + 1) decorators ++ ident.walk (depth + 1) ++
        Expr.walkList enters (depth + 1) bases ++ walkBody enters (depth + 1) body)

/-- The nodes of the statements of a body. -/
def walkBody (enters : Node → Bool) (depth : Nat) : List Stmt → List Visit
  | [] => []
  | first :: rest => walk enters depth first ++ walkBody enters depth rest

def walkHandlers (enters : Node → Bool) (depth : Nat) : List Handler → List Visit
  | [] => []
  | .mk position type ident body :: rest =>
    (Node.handler (.mk position type ident body)).visit enters depth
      (Expr.walkOption enters (depth + 1) type ++ Ident.walkOption (depth + 1) ident ++
        walkBody enters (depth + 1) body) ++
    walkHandlers enters depth rest

end

/-- All nodes of a body. -/
def bodyNodes (body : List Stmt) : List Node :=
  (walkBody (fun _ => true) 0 body).map (·.node)

end Stmt
end Unsugar
