import Unsugar.Scope.Name
import Unsugar.Tree.Build
import Unsugar.Tree.Walk

/-! Questions about the shape of trees that decide how they may be moved, saved
or evaluated twice. -/

namespace Unsugar
namespace Expr

def isName (name : String) : Expr → Bool
  | .name _ id => id == name
  | _ => false

/-- Whether an expression is the support module, or an attribute of an attribute
and so on of it. -/
def isSupportPath : Expr → Bool
  | .name _ id => id == supportModule
  | member object _ _ => isSupportPath object
  | _ => false

/-- Whether an expression is a reserved name, or an attribute of an attribute and
so on of one. -/
def isReservedPath : Expr → Bool
  | .name _ id => isReserved id
  | member object _ _ => isReservedPath object
  | _ => false

/-- Whether an expression calls a function of the support module. -/
def isSupportCall (id : String) : Expr → Bool
  | call (member object _ found) _ _ => found == id && object.isName supportModule
  | _ => false

/-- Whether an expression has no effect and the same value wherever it stands in
a statement. -/
def isPure : Expr → Bool
  | literal .. => true
  | .name .. => true
  | member object _ _ => object.isSupportPath
  | _ => false

/-- Whether an expression, lowered, needs statements ahead of it. -/
def needsStatements (expr : Expr) : Bool :=
  expr.nodes.any fun
    | .expr (logical ..) => true
    | .expr (compare _ ops _) => 1 < ops.length
    | .expr (conditional ..) => true
    | .expr (named ..) => true
    | .expr (lambda ..) => true
    | .expr (comprehension ..) => true
    | _ => false

/-- Whether an expression holds an assignment expression. -/
def hasNamed (expr : Expr) : Bool :=
  expr.nodes.any fun
    | .expr (named ..) => true
    | _ => false

/-- Whether an expression may be evaluated twice. -/
def isReusable : Expr → Bool
  | literal .. => true
  | .name _ id => isReserved id
  | _ => false

/-- Whether a copy of an expression means the same. -/
def isCopyable : Expr → Bool
  | literal .. => true
  | .name .. => true
  | member object _ _ => isCopyable object
  | _ => false

mutual

/-- Whether an expression may be evaluated before another one instead of after
it. A name may, unless the other one holds an assignment expression. -/
def isStable (named : Bool) : Expr → Bool
  | literal .. => true
  | .name _ id => !named || isReserved id
  | member object _ _ => object.isSupportPath
  | slice _ lower upper step =>
    isStableOption named lower && isStableOption named upper && isStableOption named step
  | tuple _ items _ => areStable named items
  | _ => false

def isStableOption (named : Bool) : Option Expr → Bool
  | none => true
  | some value => isStable named value

def areStable (named : Bool) : List Expr → Bool
  | [] => true
  | first :: rest => isStable named first && areStable named rest

end

/-- The kind of an expression, in the words of a refusal. -/
def kindName : Expr → String
  | call .. => "function call"
  | literal .. => "literal"
  | binary .. | logical .. | unary .. | compare .. => "operator expression"
  | comprehension kind .. => kind.text
  | lambda .. => "lambda"
  | dict .. | set .. => "display"
  | starred .. => "starred expression"
  | _ => "expression"

end Expr

namespace Stmt

/-- Whether a statement is a text alone. -/
def isDocstring : Stmt → Bool
  | expression (.literal _ _ (.text _)) => true
  | _ => false

/-- Whether a statement imports future features. -/
def isFutureImport : Stmt → Bool
  | importFrom _ source level _ _ => source == "__future__" && level == 0
  | _ => false

/-- How many statements of a body are its docstring: one or none. -/
def docstringLength : List Stmt → Nat
  | first :: _ => if first.isDocstring then 1 else 0
  | [] => 0

/-- How many statements of a module must stay in front: its docstring and its
imports of future features. -/
def headLength (body : List Stmt) : Nat :=
  let start := docstringLength body
  start + ((body.drop start).takeWhile isFutureImport).length

/-- A body with statements put in at a place. -/
def insertAt (place : Nat) (added body : List Stmt) : List Stmt :=
  body.take place ++ added ++ body.drop place

/-- Whether a statement assigns to one name alone. -/
def storesTo (name : String) : Stmt → Bool
  | assign [target] _ => target.isName name
  | _ => false

end Stmt
end Unsugar
