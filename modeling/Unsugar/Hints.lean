import Unsugar.Scope.Collect
import Unsugar.Tree.Printer
import Unsugar.Tree.Visitor
import Unsugar.Tree.Shape

/-! Type hints. Those of parameters and results are dropped. A hinted assignment
becomes a plain one; in a module or a class it also records the hint in
`__annotations__`. A module may ask that hints are kept as text. -/

namespace Unsugar
namespace Hints

/-- The variable that hints are recorded in. -/
def record : String := "__annotations__"

/-- Takes the request to keep hints as text out of the imports of a module, and
tells whether it was there. An import with nothing left is dropped. -/
def takeRequest : List Stmt → Bool × List Stmt
  | [] => (false, [])
  | .importFrom position source level names closing :: rest =>
    let (found, rest) := takeRequest rest
    let stmt := Stmt.importFrom position source level names closing
    if stmt.isFutureImport then
      let kept := names.filter (·.path != "annotations")
      let found := found || names.any (·.path == "annotations")
      if kept.isEmpty then (found, rest)
      else (found, .importFrom position source level kept closing :: rest)
    else (found, stmt :: rest)
  | first :: rest =>
    let (found, rest) := takeRequest rest
    (found, first :: rest)

/-- A body whose hints are taken out, and whether the body around it has recorded
a hint by then. -/
structure Place where
  kind : ScopeKind
  recordedAround : Bool := false

/-- Takes the hint out of a statement. The state tells whether the body has
recorded a hint. -/
def ofStmt (asText : Bool) (place : Place) : Stmt → StateM Bool (List Stmt)
  | .annAssign target hint value => do
    let stored : List Stmt := value.toList.map fun value => .assign [target] value
    match place.kind, target with
    | .moduleScope, .name _ id | .classScope, .name _ id =>
      set true
      let hint := if asText then .ofText (printExpression hint) else hint
      let entry := Expr.subscript (.ofName record) (.ofText id) .unknown
      return stored ++ [.assign [entry] hint]
    | _, _ => return Stmt.orPass stored
  | other => return [other]

/-- A body that records hints has to bind their record first. -/
def bindRecord (recorded : Bool) (body : List Stmt) : List Stmt :=
  if recorded && !body.any (Stmt.storesTo record) then
    Stmt.insertAt (Stmt.headLength body) [.store record (.dictOf [])] body
  else body

def pass (asText : Bool) : Pass (StateM Bool) Place :=
  { Pass.unchanged with
    simple := ofStmt asText
    enterFunction := fun _ head _ => do
      let inner : Place := ⟨.functionScope, ← getModify fun _ => false⟩
      return ({ head with params := head.params.map Param.withoutHint, result := none }, some inner)
    leaveFunction := fun _ inner _ head body => do
      set inner.recordedAround
      return [head.withBody body]
    enterClass := fun _ head => do
      let inner : Place := ⟨.classScope, ← getModify fun _ => false⟩
      return (head, some inner)
    leaveClass := fun _ inner head body => do
      let recorded ← getModify fun _ => inner.recordedAround
      return [head.withBody (bindRecord recorded body)] }

end Hints

/-- Takes the hints out of a module, and tells whether they were kept as text. -/
def takeHints (body : List Stmt) : Bool × List Stmt :=
  let (asText, body) := Hints.takeRequest body
  let (body, recorded) := Id.run (((Hints.pass asText).body ⟨.moduleScope, false⟩ body).run false)
  (asText, Hints.bindRecord recorded body)

end Unsugar
