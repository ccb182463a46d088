import Unsugar.Tree.Visitor
import Unsugar.Tree.Shape

/-! The last changes to a lowered module. -/

namespace Unsugar
namespace Finish

/-! ## Superfluous statements -/

/-- Whether a statement is a `pass` that no source wrote. -/
def isGeneratedPass : Stmt → Bool
  | .branch position .pass => !position.isKnown
  | _ => false

/-- A body without its superfluous statements, which `kept` is; a body that was
not empty does not become so. -/
def refill (body kept : List Stmt) : List Stmt :=
  if body.isEmpty then [] else Stmt.orPass kept

mutual

/-- A statement whose bodies hold no superfluous `pass`. -/
def stripStmt : Stmt → Stmt
  | .conditional position test body elsePosition orelse =>
    .conditional position test (refill body (strip body)) elsePosition
      (refill orelse (strip orelse))
  | .whileLoop position test body orelse =>
    .whileLoop position test (refill body (strip body)) (refill orelse (strip orelse))
  | .forLoop position target iterable body orelse =>
    .forLoop position target iterable (refill body (strip body)) (refill orelse (strip orelse))
  | .tryBlock position body handlers orelse final =>
    .tryBlock position (refill body (strip body)) (stripHandlers handlers)
      (refill orelse (strip orelse)) (refill final (strip final))
  | .withBlock position items body => .withBlock position items (refill body (strip body))
  | .function decorators position ident params result body =>
    .function decorators position ident params result (refill body (strip body))
  | .classDef decorators position ident bases body =>
    .classDef decorators position ident bases (refill body (strip body))
  | other => other

/-- The statements of a body but for those that are generated `pass`es. -/
def strip : List Stmt → List Stmt
  | [] => []
  | first :: rest =>
    if isGeneratedPass first then strip rest else stripStmt first :: strip rest

def stripHandlers : List Handler → List Handler
  | [] => []
  | .mk position type ident body :: rest =>
    .mk position type ident (refill body (strip body)) :: stripHandlers rest

end

/-! ## Tests -/

/-- The truth value of a test; a test that is one already stays. -/
def truth (test : Expr) : Expr :=
  match test with
  | .literal _ _ (.boolean _) => test
  | _ => if test.isSupportCall "truth" then test else .supportCall "truth" [test]

def truthPass : Pass Id Unit :=
  { Pass.unchanged with test := fun _ test => truth test }

/-! ## The support module -/

/-- Whether a statement is the call that deletes the generated globals. -/
def isCleanup : Stmt → Bool
  | .expression value => value.isSupportCall "cleanup_dp_globals"
  | _ => false

end Finish

/-- Drops the generated `pass` statements that a body does not need. A module may
be empty. -/
def stripPasses (body : List Stmt) : List Stmt :=
  Finish.strip body

/-- Makes the conversion of the tests of a module to truth values explicit. -/
def makeTestsExplicit (body : List Stmt) : List Stmt :=
  Id.run (Finish.truthPass.body () body)

/-- Deletes the generated globals at the end of a module. -/
def cleanUpGlobals (body : List Stmt) : List Stmt :=
  if body.getLast?.any Finish.isCleanup then body
  else body ++ [.perform "cleanup_dp_globals" [.globals]]

/-- Binds the support module at the top of a module, unless the module does. -/
def bindSupport (body : List Stmt) : List Stmt :=
  if body.any (Stmt.storesTo supportModule) then body
  else
    let value := Expr.apply (.ofName "__import__") [.ofText supportModule]
    Stmt.insertAt (Stmt.headLength body) [.store supportModule value] body

end Unsugar
