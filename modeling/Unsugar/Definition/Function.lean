import Unsugar.Context
import Unsugar.Scope.Descent
import Unsugar.Tree.Shape

/-! Function definitions. A function is defined under a generated name, told its
own name, decorated, and stored; then the generated name is deleted. -/

namespace Unsugar
namespace Definition

/-- Decorators are evaluated before the definition: the values of all but the
simplest are saved. -/
def saveDecorators : List Expr → Desugar (List Stmt × List Expr)
  | [] => return ([], [])
  | first :: rest => do
    if first.isPure then
      let (ahead, rest) ← saveDecorators rest
      return (ahead, first :: rest)
    else
      let saved ← Desugar.fresh "dec"
      let (ahead, rest) ← saveDecorators rest
      return (.store saved first :: ahead, .ofName saved :: rest)

/-- A value with decorators applied, the last one first. -/
def decorate (decorators : List Expr) (value : Expr) : Expr :=
  decorators.foldr (fun decorator value => .apply decorator [value]) value

/-- The function that a generated name stands for, told its name. -/
def updated (generated qualname name : String) : Expr :=
  .supportCall "update_fn" [.ofName generated, .ofText qualname, .ofText name]

/-- Whether a statement tells a function its name already. -/
def updates (name : String) (stmt : Stmt) : Bool :=
  (Stmt.bodyNodes [stmt]).any fun
    | .expr (.call callee (first :: rest) closing) =>
      (Expr.call callee (first :: rest) closing).isSupportCall "update_fn" && first.isName name
    | _ => false

def nameFunction (generated name qualname : String) : Desugar Unit :=
  modify fun context =>
    { context with functions := setEntry generated ⟨name, qualname⟩ context.functions }

/-- A function that lowering made. One that stands for an expression is told so,
unless the next statement does it. -/
def generatedFunction (head : FunctionHead) (body : List Stmt) (qualname : String)
    (next : Option Stmt) : Desugar (List Stmt) := do
  let name := head.ident.name
  let display := displayName name
  if !beginsWithText "<" display || next.any (updates name) then return [head.withBody body]
  nameFunction name display qualname
  return [head.withBody body, .store name (updated name qualname display)]

/-- A function that the source defines. -/
def sourceFunction (head : FunctionHead) (body : List Stmt) (qualname : String) :
    Desugar (List Stmt) := do
  let name := head.ident.name
  let generated ← Desugar.fresh ("fn_" ++ name)
  nameFunction generated name qualname
  let (ahead, decorators) ← saveDecorators head.decorators
  let head := { head with decorators := [], ident := ⟨head.ident.position, generated⟩ }
  Desugar.note (.renamedFunction name qualname generated)
  return ahead ++
    [head.withBody body, .store name (decorate decorators (updated generated qualname name)),
     .drop generated]

def functionPass : Pass (Descent Desugar) Opened :=
  { Pass.unchanged with
    enterFunction := fun around head _ => return (head, some (← Descent.enter around))
    leaveFunction := fun _ opened next head body => do
      Descent.leave opened
      let qualname := opened.info.qualname
      if isReserved head.ident.name then generatedFunction head body qualname next
      else sourceFunction head body qualname
    enterClass := fun around head => return (head, some (← Descent.enter around))
    leaveClass := fun _ opened head body => do
      Descent.leave opened
      return [head.withBody body] }

end Definition

/-- Renames the functions of a module. -/
def renameFunctions (scope : Scope) (body : List Stmt) : Desugar (List Stmt) :=
  Descent.run scope fun opened => Definition.functionPass.body opened body

end Unsugar
