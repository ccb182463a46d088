import Unsugar.Setting
import Unsugar.Text.Case

/-! Where settings come from. A choice on the command line goes before the
environment, the environment before the file, and the file before the standard
values. A source that gives a single value for what another takes for a table
hides everything in that table that later sources say. -/

namespace Unsugar

structure Layers where
  /-- The settings that the command line can choose, by dotted name. -/
  choosable : List String
  chosen : List (String × Setting)
  environment : List (String × String)
  file : List (String × Setting)
  standard : List (String × Setting)

namespace Layers

def pathOf (name : String) : List String := name.splitOn "."

def nameOf (path : List String) : String := ".".intercalate path

/-- The paths above a path, the shortest first. -/
def above (path : List String) : List (List String) :=
  (List.range (path.length - 1)).map fun count => path.take (count + 1)

/-- The variable of the environment that gives a setting. -/
def variableOf (name : String) : String :=
  let upper (char : Char) : Char := if char == '.' || char == '-' then '_' else Text.upper char
  "DIETPY_" ++ name.map upper

/-- What the environment says about a setting. Empty variables say nothing. -/
def fromEnvironment? (layers : Layers) (name : String) : Option String :=
  (layers.environment.lookup (variableOf name)).filter (· ≠ "")

/-- What a table says about a path. A name in the table may hold dots, and so
stand for several steps of the path; `name` is what was taken of the path so far.
Longer names go first. -/
def within? (entries : List (String × Setting)) (name : String) : List String → Option Setting
  | [] => (entries.lookup name).filter fun found => !(found matches .missing)
  | next :: path =>
    match within? entries (name ++ "." ++ next) path with
    | some found => some found
    | none => (entries.lookup name).bind fun inner => within? inner.entries next path

/-- What the file says about a setting. -/
def fromFile? (layers : Layers) : List String → Option Setting
  | [] => none
  | name :: path => within? layers.file name path

/-- Whether the file has a single value above a path. -/
def isHiddenByFile (layers : Layers) (path : List String) : Bool :=
  (above path).any fun outer =>
    match (Setting.table layers.file).at? outer with
    | none | some (.table _) => false
    | some _ => true

/-- The setting of a name, if it has one. -/
def find? (layers : Layers) (name : String) : Option Setting :=
  let path := pathOf name
  let outer := (above path).map nameOf
  match layers.chosen.lookup name with
  | some value => some value
  | none =>
    if outer.any layers.choosable.contains then none
    else match layers.fromEnvironment? name with
      | some value => some (.text value)
      | none =>
        if outer.any fun name => (layers.fromEnvironment? name).isSome then none
        else match layers.fromFile? path with
          | some value => some value
          | none =>
            if layers.isHiddenByFile path then none
            else (Setting.table layers.standard).at? path

/-- A setting as a truth value. -/
def isTrue (layers : Layers) (name : String) : Bool :=
  ((layers.find? name).map Setting.isTrue).getD false

/-- A setting as a text. -/
def toText (layers : Layers) (name : String) : String :=
  ((layers.find? name).map Setting.toText).getD ""

/-- A setting as a signed word. -/
def toWord (layers : Layers) (name : String) : Int64 :=
  ((layers.find? name).map Setting.toWord).getD 0

/-! ## All settings -/

mutual

/-- The names of single values in a value, added to `found`. Nothing is added
below a name that is there already. -/
def addNames (found : List String) (name : String) : Setting → List String
  | .table entries =>
    if found.contains name then found else addNamesOf found (name ++ ".") entries
  | _ => if found.contains name then found else found ++ [name]

def addNamesOf (found : List String) (front : String) :
    List (String × Setting) → List String
  | [] => found
  | (name, value) :: rest => addNamesOf (addNames found (front ++ name) value) front rest

end

/-- The names of all settings, in order. -/
def names (layers : Layers) : List String :=
  let found := addNamesOf layers.choosable "" layers.file
  (addNamesOf found "" layers.standard).mergeSort fun left right => !decide (right < left)

/-- All settings as a table. -/
def settings (layers : Layers) : List (String × Setting) :=
  let add (table : Setting) (name : String) : Setting :=
    match layers.find? name with
    | none => table
    | some value => Setting.putAt value (pathOf name) table
  (layers.names.foldl add (.table [])).entries

/-- The variables of the environment that can make a difference. -/
def environmentNames (layers : Layers) : List String :=
  layers.names.flatMap fun name =>
    variableOf name :: (above (pathOf name)).map fun path => variableOf (nameOf path)

end Layers
end Unsugar
