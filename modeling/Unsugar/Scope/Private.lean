import Unsugar.Tree.Leaves

/-! Private names of classes. A name that begins with two underscores, inside the
body of a class, belongs to that class: the name of the class is put in front. -/

namespace Unsugar

/-- Whether a name is private where a class has it: it begins with two
underscores, does not end with two, and is no dotted path. -/
def isPrivate (name : String) : Bool :=
  let chars := name.toList
  ['_', '_'].isPrefixOf chars && !(['_', '_'].isPrefixOf chars.reverse) && !chars.contains '.'

/-- A name as it is written in the body of a class. A class whose name has only
underscores, or no class at all, leaves every name as it is. -/
def mangle (className name : String) : String :=
  let front := className.toList.dropWhile (· == '_')
  if isPrivate name && !front.isEmpty then
    "_" ++ String.ofList front ++ name
  else name

/-- The change of all names in the body of a class. -/
def privateNames (className : String) : LeafMap where
  name := mangle className
  member := mangle className

/-- Renames the private names of all classes of a module. A class inside another
has its own private names. -/
def manglePrivate (body : List Stmt) : List Stmt :=
  Stmt.mapLeavesBody privateNames (privateNames "") body

end Unsugar
