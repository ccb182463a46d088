import Unsugar.Grammar.Source
import Unsugar.Scope.Name
import Unsugar.Template.Basic
import Unsugar.Tree.Build
import Unsugar.Tree.Visitor

/-! Trees made from templates. The source is parsed with marks in place of the
expressions and statements, and then they are put in for their marks. What is put
in is not looked at again. -/

namespace Unsugar.Template

/-- Computations that put values in; the state is the names of the expressions
that are in place. -/
abbrev Filling := StateT (List String) (Except Error)

/-- The name of a marked value. -/
def marked? (mark : String) : Expr → Option String
  | .name _ id => (afterFront? mark id).map String.ofList
  | _ => none

/-- The expression that is put in for a mark. Each expression is put in once. -/
def fillExpr (values : Values) (expr : Expr) : Filling (Option Expr) := do
  match marked? exprMark expr with
  | none => return none
  | some name =>
    if (← get).contains name then throw (.usedTwice name)
    modify (name :: ·)
    match values.lookup name with
    | some (.expr value) => return some value
    | _ => throw .unbound

def visitor (values : Values) : Visitor Filling where
  expr := fillExpr values
  target := fillExpr values

/-- The statements that are put in for a mark; a mark without any is dropped. -/
def fillStmts (values : Values) (name : String) : List Stmt :=
  match values.lookup name with
  | some (.stmt value) => [value]
  | some (.stmts body) => Stmt.orPass body
  | _ => []

def fillSimple (values : Values) : Stmt → Filling (List Stmt)
  | .expression value =>
    match marked? stmtMark value with
    | some name => return fillStmts values name
    | none => do return [← (Stmt.expression value).reviseSimple (visitor values)]
  | stmt => do return [← stmt.reviseSimple (visitor values)]

def pass (values : Values) : Pass Filling Unit :=
  { Pass.everywhere (visitor values) with simple := fun _ stmt => fillSimple values stmt }

/-- The name of the source in messages. -/
def sourceName : String := "<template>"

/-- The statements of a template. -/
def statements (values : Values) (source : String) : Except Error (List Stmt) := do
  let text ← expand values 0 (dedent source.toList)
  match parseModule sourceName text with
  | .error fault => .error (.malformed fault (String.ofList text))
  | .ok body => do
    let (body, _) ← ((pass values).body () body).run []
    return body

/-- The statement of a template that has one. -/
def statement (values : Values) (source : String) : Except Error Stmt := do
  match ← statements values source with
  | [stmt] => return stmt
  | body => .error (.wrongCount body.length source)

/-- The expression of a template that has one. -/
def expression (values : Values) (source : String) : Except Error Expr := do
  match ← statement values source with
  | .expression value => return value
  | _ => .error (.notExpression source)

end Unsugar.Template
