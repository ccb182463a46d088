import Unsugar.Context
import Unsugar.Tree.Leaves

/-! Equality of modules up to the numbers of generated names. The generated names
of a module are numbered anew, in the order in which they first occur. -/

namespace Unsugar
namespace Renumber

/-- The new names of those seen so far, by their old ones. -/
abbrev Table := List (String × String)

/-- Adds a name to the table, if it is a generated one and new. -/
def note (table : Table) (name : String) : Table :=
  match freshBase? name with
  | none => table
  | some base =>
    if (table.lookup name).isSome then table
    else table ++ [(name, base ++ "_" ++ toString (table.length + 1))]

/-- The names of a module, in the order in which they occur. -/
def occurring (body : List Stmt) : List String :=
  (Stmt.bodyNodes body).filterMap fun
    | .expr (.name _ id) => some id
    | _ => none

def table (body : List Stmt) : Table :=
  (occurring body).foldl note []

end Renumber

/-- Numbers the generated names of a module anew. -/
def renumber (body : List Stmt) : List Stmt :=
  let table := Renumber.table body
  Stmt.mapAllLeaves { name := fun name => (table.lookup name).getD name } body

end Unsugar
