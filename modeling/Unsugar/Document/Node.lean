import Unsugar.Document.Lexer

/-! The values of a document. A value may be labelled where it stands, and meant
again by its label further on. -/

namespace Unsugar.Document

inductive Node where
  /-- A single value, which is bare if it was not marked as a text. -/
  | scalar (tag : Option String) (bare : Bool) (content : String)
  | list (items : List Node)
  | table (entries : List (Node × Node))
  /-- The value that has a label. -/
  | reference (label : String) (target : Node)

namespace Node

/-- The value of what is left out. -/
def absent : Node := scalar none true ""

def isTable : Node → Bool
  | table _ => true
  | _ => false

end Node

/-! ## Reading tokens -/

/-- What is left to read, and what is known by then. -/
structure Reader where
  tokens : List Token
  /-- The labelled values, the last one first. A value that is not complete yet
  cannot be meant by its label. -/
  labels : List (String × Option Node) := []
  /-- What the handles of tags stand for. -/
  handles : List (String × String) := []

abbrev Reading := StateT Reader Option

namespace Reading

/-- The next token. -/
def token : Reading Token := do
  match (← get).tokens with
  | token :: _ => return token
  | [] => failure

def skip : Reading Unit :=
  modify fun reader => { reader with tokens := reader.tokens.drop 1 }

/-- Whether one of these tokens is next. -/
def sees (tokens : List Token) : Reading Bool := do
  return tokens.contains (← token)

def expect (token : Token) : Reading Unit := do
  if ← sees [token] then skip else failure

/-- The value of a label. -/
def labelled (label : String) : Reading Node := do
  match (← get).labels.lookup label with
  | some (some node) => return node
  | _ => failure

/-- The labels with the value of the one that came last, of those without. -/
def complete (label : String) (node : Node) :
    List (String × Option Node) → List (String × Option Node)
  | [] => []
  | (other, value) :: rest =>
    if other = label && value.isNone then (other, some node) :: rest
    else (other, value) :: complete label node rest

/-- Reads a value that has a label. -/
def labelling (label : Option String) (read : Reading Node) : Reading Node :=
  match label with
  | none => read
  | some label => do
    modify fun reader => { reader with labels := (label, none) :: reader.labels }
    let node ← read
    modify fun reader => { reader with labels := complete label node reader.labels }
    return node

/-- What the exclamation marks of tags stand for by themselves. -/
def standardHandles : List (String × String) := [("!", "!"), ("!!", "tag:yaml.org,2002:")]

/-- The short form of a tag, if it is one of the standard. A lone exclamation mark
is no tag. -/
def shortTag? (tag : String) : Option String :=
  if tag = "!" then none
  else match tag.dropPrefix? "tag:yaml.org,2002:" with
    | some name => some ("!!" ++ name.toString)
    | none => some tag

/-- The tag that a handle and a suffix stand for. -/
def tagOf (handle suffix : String) : Reading (Option String) := do
  if handle = "" then return shortTag? suffix
  match ((← get).handles ++ standardHandles).lookup handle with
  | some meaning => return shortTag? (meaning ++ suffix)
  | none => failure

/-- The label and the tag before a value, in either order. -/
def properties : Reading (Option String × Option (Option String)) := do
  match ← token with
  | .label label =>
    skip
    match ← token with
    | .tag handle suffix => skip; return (some label, some (← tagOf handle suffix))
    | _ => return (some label, none)
  | .tag handle suffix =>
    skip
    let tag ← tagOf handle suffix
    match ← token with
    | .label label => skip; return (some label, some tag)
    | _ => return (none, some tag)
  | _ => return (none, none)

mutual

/-- A value. It is told by indentation only if it is `indented`; the dashes of a
list need not stand deeper than the entry that it is the value of. At most `fuel`
steps are taken. -/
def node : (fuel : Nat) → (indented inEntry : Bool) → Reading Node
  | 0, _, _ => failure
  | fuel + 1, indented, inEntry => do
    if let .reference label ← token then
      skip
      return .reference label (← labelled label)
    let (label, tag) ← properties
    labelling label do
      match ← token with
      | .scalar bare content =>
        skip
        return .scalar (tag.getD none) bare content
      | .openList => skip; return .list (← bracketItems fuel true)
      | .openTable => skip; return .table (← bracketEntries fuel true)
      | next =>
        if next = .dash && inEntry then return .list (← dashItems fuel)
        else if next = .indentList && indented then
          skip
          return .list (← indentedItems fuel)
        else if next = .indentTable && indented then
          skip
          return .table (← indentedEntries fuel)
        else if label.isSome || tag.isSome then return .scalar (tag.getD none) true ""
        else failure

/-- A value, or nothing before one of these tokens. -/
def nodeUnless : (fuel : Nat) → (stops : List Token) → (indented inEntry : Bool) → Reading Node
  | 0, _, _, _ => failure
  | fuel + 1, stops, indented, inEntry => do
    if ← sees stops then return .absent
    node fuel indented inEntry

/-- The items of a list whose end is told. -/
def indentedItems : (fuel : Nat) → Reading (List Node)
  | 0 => failure
  | fuel + 1 => do
    if ← sees [.dedent] then
      skip
      return []
    expect .dash
    let item ← nodeUnless fuel [.dash, .dedent] true false
    return item :: (← indentedItems fuel)

/-- The items of a list that ends where no dash follows. -/
def dashItems : (fuel : Nat) → Reading (List Node)
  | 0 => failure
  | fuel + 1 => do
    if !(← sees [.dash]) then return []
    skip
    let item ← nodeUnless fuel [.dash, .name, .value, .dedent] true false
    return item :: (← dashItems fuel)

/-- The entries of a table that is told by indentation. -/
def indentedEntries : (fuel : Nat) → Reading (List (Node × Node))
  | 0 => failure
  | fuel + 1 => do
    if ← sees [.dedent] then
      skip
      return []
    expect .name
    let name ← nodeUnless fuel [.name, .value, .dedent] true true
    let value ← valueUnless fuel [.name, .value, .dedent] true
    return (name, value) :: (← indentedEntries fuel)

/-- The value of an entry, if it has one before one of these tokens. -/
def valueUnless : (fuel : Nat) → (stops : List Token) → (indented : Bool) → Reading Node
  | 0, _, _ => failure
  | fuel + 1, stops, indented => do
    if !(← sees [.value]) then return .absent
    skip
    nodeUnless fuel stops indented indented

/-- The items of a list in brackets. An item may be an entry, which stands for a
table of its own. -/
def bracketItems : (fuel : Nat) → (first : Bool) → Reading (List Node)
  | 0, _ => failure
  | fuel + 1, first => do
    if ← sees [.closeList] then
      skip
      return []
    if !first then expect .comma
    if ← sees [.closeList] then
      skip
      return []
    if ← sees [.name] then
      skip
      let bare ← sees [.value, .comma, .closeList]
      let name ← if bare then do skip; pure .absent else node fuel false false
      let value ← valueUnless fuel [.comma, .closeList] false
      return .table [(name, value)] :: (← bracketItems fuel false)
    let item ← node fuel false false
    return item :: (← bracketItems fuel false)

/-- The entries of a table in brackets. A value by itself is the name of an entry. -/
def bracketEntries : (fuel : Nat) → (first : Bool) → Reading (List (Node × Node))
  | 0, _ => failure
  | fuel + 1, first => do
    if ← sees [.closeTable] then
      skip
      return []
    if !first then expect .comma
    if ← sees [.closeTable] then
      skip
      return []
    if ← sees [.name] then
      skip
      let name ← nodeUnless fuel [.value, .comma, .closeTable] false false
      let value ← valueUnless fuel [.comma, .closeTable] false
      return (name, value) :: (← bracketEntries fuel false)
    let name ← node fuel false false
    return (name, .absent) :: (← bracketEntries fuel false)

end

/-- The handles that a document declares, and the mark where it begins. -/
def directives : List Token → Option (List (String × String) × List Token)
  | .version :: rest => directives rest
  | .handle name meaning :: rest => do
    let (handles, rest) ← directives rest
    return ((name, meaning) :: handles, rest)
  | .start :: rest => some ([], rest)
  | _ => none

end Reading

/-- The value of the first document in a text, if the text can be read up to its
end. There may be no document at all. -/
def read? (chars : List Char) : Option (Option Node) :=
  let chars := dropMark chars
  if !chars.all isAllowed then none
  else
    let tokens := tokensOf (unifyBreaks chars)
    let fuel := 4 * (tokens.length + 1)
    let run (reading : Reading Node) (reader : Reader) : Option (Option Node) := do
      let (node, reader) ← reading.run reader
      if reader.tokens.isEmpty then none else some (some node)
    match tokens with
    | [.finish] => some none
    | .version :: _ | .handle _ _ :: _ | .start :: _ => do
      let (handles, tokens) ← Reading.directives tokens
      let isEmpty := tokens.head?.any fun token =>
        match token with
        | .version | .handle _ _ | .start | .stop | .finish => true
        | _ => false
      run (if isEmpty then pure .absent else Reading.node fuel true false) { tokens, handles }
    | _ => run (Reading.node fuel true false) { tokens }

end Unsugar.Document
