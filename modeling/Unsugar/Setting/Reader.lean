import Unsugar.Document.Node
import Unsugar.Setting.Scalar
import Unsugar.Text.Case

/-! Settings from the text of a configuration file. The file holds a table; the
entries of other tables may be merged into one, and letter case does not count in
names. -/

namespace Unsugar.Setting

open Document (Node)

/-! ## Names of entries -/

/-- Whether the value of an entry with this name is merged into the table. -/
def isMerge : Node → Bool
  | .scalar none bare content => bare && content = "<<"
  | .scalar (some tag) _ content => tag = "!!merge" && content = "<<"
  | _ => false

/-- Whether a name is a text. -/
def isTextName : Node → Bool
  | .scalar none bare content => !bare || (ofBare content.toList).isText
  | .scalar (some tag) _ _ => tag = "!!str" || tag = "!!merge"
  | .reference _ target => isTextName target
  | _ => false

/-- A name as a value. Lists and tables are no names. -/
def nameValue? : Node → Option Setting
  | .scalar tag bare content => ofScalar? tag bare content
  | .reference _ target => nameValue? target
  | _ => none

/-- A name as the text that was written. The missing value is no name. -/
def nameText? : Node → Option (Option String)
  | .scalar tag bare content => do
    match ← ofScalar? tag bare content with
    | missing => return none
    | text value => return some value
    | bytes value => return some (Text.ofBytes value)
    | _ => return some content
  | .reference _ target => nameText? target
  | _ => none

/-- A name in a table that may or may not have only texts for names. -/
def name? (textual : Bool) (name : Node) : Option (Option Setting) :=
  if textual then (nameText? name).map (·.map text) else (nameValue? name).map some

/-- Whether two names are written alike. -/
def isWrittenAlike : Node → Node → Bool
  | .scalar _ _ left, .scalar _ _ right => left = right
  | .reference left _, .reference right _ => left = right
  | .list _, .list _ | .table _, .table _ => true
  | _, _ => false

/-- Whether a name is given twice. -/
def repeatsName : List (Node × Node) → Bool
  | [] => false
  | (name, _) :: rest => rest.any (isWrittenAlike name ·.1) || repeatsName rest

/-- Whether two names are the same value. -/
def isSameName : Setting → Setting → Bool
  | missing, missing => true
  | truth left, truth right => left = right
  | integer left, integer right => left = right
  | decimal left, decimal right => left.sameNumber right
  | text left, text right => left = right
  | bytes left, bytes right => left = right
  | moment left, moment right => left = right
  | _, _ => false

/-! ## Values -/

/-- A table that is being filled. -/
structure Filling where
  entries : List (Setting × Setting) := []
  /-- Inside a merge, the names that are not given again. -/
  taken : Option (List Setting) := none

namespace Filling

def isTaken (filling : Filling) (name : Setting) : Bool :=
  filling.taken.any fun names => names.any (isSameName name)

/-- Adds an entry, in place of the one of that name. -/
def put (filling : Filling) (name value : Setting) : Filling where
  entries := filling.entries.filter (!isSameName name ·.1) ++ [(name, value)]
  taken := filling.taken.map (name :: ·)

/-- Begins a merge, unless one is under way: the names of the table itself are not
given again. -/
def merging (filling : Filling) (names : List Setting) : Filling :=
  { filling with taken := some (filling.taken.getD names) }

/-- The table, once it is filled. -/
def table (filling : Filling) (textual : Bool) : Setting :=
  if textual then .table (filling.entries.map fun (name, value) => (name.toText, value))
  else .mapping filling.entries

end Filling

/-- The names of a table as values. -/
def nameValues (entries : List (Node × Node)) : List Setting :=
  entries.filterMap fun entry => nameValue? entry.1

mutual

/-- The setting that a value of the file stands for. -/
def ofNode? : Node → Option Setting
  | .scalar tag bare content => ofScalar? tag bare content
  | .list items => (ofNodes? items).map list
  | .table entries =>
    if repeatsName entries then none
    else
      let textual := entries.all fun entry => isTextName entry.1
      (fill? textual (nameValues entries) {} entries).map (·.table textual)
  | .reference _ target => ofNode? target
termination_by structural node => node

def ofNodes? : List Node → Option (List Setting)
  | [] => some []
  | node :: nodes => do return (← ofNode? node) :: (← ofNodes? nodes)
termination_by structural nodes => nodes

/-- Fills a table. What is merged comes last, and gives no name of `names` again. -/
def fill? (textual : Bool) (names : List Setting) (filling : Filling) :
    List (Node × Node) → Option Filling
  | [] => some filling
  | (name, value) :: entries =>
    if isMerge name then do
      let filling ← fill? textual names filling entries
      merge? textual (filling.merging names) value
    else do
      match ← name? textual name with
      | none => fill? textual names filling entries
      | some name =>
        if filling.isTaken name then fill? textual names filling entries
        else
          let value ← ofNode? value
          fill? textual names (filling.put name value) entries
termination_by structural entries => entries

/-- Merges a table, or a list of tables, into another. -/
def merge? (textual : Bool) (filling : Filling) : Node → Option Filling
  | .scalar _ _ _ => none
  | .list items => mergeAll? textual filling items
  | .table entries =>
    if repeatsName entries then none else fill? textual (nameValues entries) filling entries
  | .reference _ target => if target.isTable then merge? textual filling target else none
termination_by structural node => node

def mergeAll? (textual : Bool) (filling : Filling) : List Node → Option Filling
  | [] => some filling
  | item :: items => do
    if item matches .list _ then none
    else mergeAll? textual (← merge? textual filling item) items
termination_by structural items => items

end

/-! ## Letter case -/

/-- Entries with their names in lower case. Of two names that become one, the one
counts that was not in lower case, and of several such names the last. -/
def lowerKeys (entries : List (String × Setting)) : List (String × Setting) :=
  let (kept, changed) := entries.partition fun (name, _) => Text.lowered name = name
  (kept ++ changed).foldl (fun lowered (name, value) => put (Text.lowered name) value lowered) []

mutual

/-- A value with the names in its tables in lower case, and as texts. -/
def lowerNames : Setting → Setting
  | list items => list (lowerItems items)
  | table entries => table (lowerKeys (lowerEntries entries))
  | mapping entries => table (lowerKeys (lowerMapping entries))
  | setting => setting
termination_by structural setting => setting

def lowerItems : List Setting → List Setting
  | [] => []
  | item :: items => lowerNames item :: lowerItems items
termination_by structural items => items

/-- Entries whose values have names in lower case. -/
def lowerEntries : List (String × Setting) → List (String × Setting)
  | [] => []
  | (name, value) :: entries => (name, lowerNames value) :: lowerEntries entries
termination_by structural entries => entries

/-- The entries of a table whose names are not all texts. Lists inside such a
table stay as they are. -/
def lowerMapping : List (Setting × Setting) → List (String × Setting)
  | [] => []
  | (name, value) :: entries => (name.toText, lowerTables value) :: lowerMapping entries
termination_by structural entries => entries

/-- A value with the names in lower case, unless it is a list. -/
def lowerTables : Setting → Setting
  | table entries => table (lowerKeys (lowerTableEntries entries))
  | mapping entries => table (lowerKeys (lowerMapping entries))
  | setting => setting
termination_by structural setting => setting

def lowerTableEntries : List (String × Setting) → List (String × Setting)
  | [] => []
  | (name, value) :: entries => (name, lowerTables value) :: lowerTableEntries entries
termination_by structural entries => entries

end

/-! ## Files -/

/-- The table at the top of a file. All its names are taken for texts. -/
def topTable? : Node → Option Setting
  | .table entries =>
    if repeatsName entries then none
    else (fill? true (nameValues entries) {} entries).map (·.table true)
  | node => do
    match ← ofNode? node with
    | missing => return table []
    | _ => none

/-- The table in the text of a file, if it holds one. An empty file holds an empty
table. -/
def read? (source : List Char) : Option (List (String × Setting)) := do
  match ← Document.read? source with
  | some node => return (lowerNames (← topTable? node)).entries
  | none => return []

end Unsugar.Setting
