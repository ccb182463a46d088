import Unsugar.Tree.Visitor

/-! The occurrences of names that a revision of a module comes across, and the
simplest such revision. -/

namespace Unsugar

/-- A name where it is evaluated, or where it is bound or deleted. -/
inductive Occurrence where
  | used (name : String)
  | bound (name : String)
  deriving DecidableEq

/-- Notes the names among the expressions and targets it is shown. -/
def occurrenceVisitor : Visitor (StateM (List Occurrence)) where
  expr
    | .name _ id => do
      modify (.used id :: ·)
      return none
    | _ => return none
  target
    | .name _ id => do
      modify (.bound id :: ·)
      return none
    | _ => return none

/-- The names of a module in the order of revision. -/
def occurrences (body : List Stmt) : List Occurrence :=
  let ((), found) := Id.run <| StateT.run (do
    let _ ← (Pass.everywhere occurrenceVisitor).body () body) []
  found.reverse

/-- Replaces each use of a name by an attribute of the object that owns it. -/
def qualify (owner? : String → Option String) (body : List Stmt) : List Stmt :=
  let visitor : Visitor Id :=
    { expr := fun
        | .name _ id => (owner? id).map fun owner => .member (.name .unknown owner) .unknown id
        | _ => none
      target := fun _ => none }
  Id.run ((Pass.everywhere visitor).body () body)

end Unsugar
