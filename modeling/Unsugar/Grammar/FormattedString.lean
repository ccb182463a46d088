import Unsugar.Text.Blank
import Unsugar.Grammar.Check

/-! Formatted strings: the undecoded body is split into text and replacement
fields. All complaints are about the position of the string. -/

namespace Unsugar.Grammar

/-- Joins adjacent texts among the parts of a formatted string, and drops empty
ones. -/
def mergeTexts : List Expr → List Expr
  | [] => []
  | .literal position raw (.text text) :: rest =>
    match mergeTexts rest with
    | .literal nextPosition nextRaw (.text next) :: tail =>
      if text.isEmpty then .literal nextPosition nextRaw (.text next) :: tail
      else .literal position "" (.text (text ++ next)) :: tail
    | merged => if text.isEmpty then merged else .literal position raw (.text text) :: merged
  | part :: rest => part :: mergeTexts rest

/-- Reads text up to the next field or the end. Doubled braces stand for one. -/
def textRun (plain : Bool) : List Char → Except Complaint (List Char × List Char)
  | '\x7b' :: '\x7b' :: rest => do
    let (text, after) ← textRun plain rest
    return ('\x7b' :: text, after)
  | '\x7d' :: '\x7d' :: rest => do
    let (text, after) ← textRun plain rest
    return ('\x7d' :: text, after)
  | '\x7d' :: _ => throw .strayBrace
  | '\x7b' :: rest => return ([], '\x7b' :: rest)
  | '\\' :: char :: rest =>
    if plain then do
      let (text, after) ← textRun plain (char :: rest)
      return ('\\' :: text, after)
    else if char == 'N' && rest.head? == some '\x7b' then throw (.badString .namedEscape)
    else do
      let (text, after) ← textRun plain rest
      return ('\\' :: char :: text, after)
  | char :: rest => do
    let (text, after) ← textRun plain rest
    return (char :: text, after)
  | [] => return ([], [])

/-- Whether an equals sign between these characters is part of an operator. -/
def partOfOperator (previous next : Option Char) : Bool :=
  (match previous with
    | some char => "=!<>:".toList.contains char
    | none => true) ||
  next == some '='

/-- Splits off the expression of a field: the characters up to a closing brace,
an exclamation mark, a colon or an equals sign outside brackets and quotes. -/
def fieldText (depth : Int) (quote previous : Option Char) :
    List Char → Option (List Char × List Char)
  | [] => none
  | char :: rest =>
    let keep (depth : Int) (quote : Option Char) :=
      (fieldText depth quote (some char) rest).map fun (text, after) => (char :: text, after)
    match quote with
    | some mark =>
      if char == '\\' then
        match rest with
        | [] => none
        | escaped :: rest =>
          (fieldText depth quote (some escaped) rest).map fun (text, after) =>
            (char :: escaped :: text, after)
      else if char == mark then keep depth none
      else keep depth quote
    | none =>
      if char == '\'' || char == '"' then keep depth (some char)
      else if char == '(' || char == '[' || char == '\x7b' then keep (depth + 1) none
      else if char == ')' || char == ']' then keep (depth - 1) none
      else if char == '\x7d' then
        if depth == 0 then some ([], char :: rest) else keep (depth - 1) none
      else if depth == 0 && char == '!' && rest.head? != some '=' then some ([], char :: rest)
      else if depth == 0 && char == ':' then some ([], char :: rest)
      else if depth == 0 && char == '=' && !partOfOperator previous rest.head? then
        some ([], char :: rest)
      else keep depth none

/-- Splits off the format of a field: the characters up to the brace that closes
the field. -/
def specText (depth : Nat) : List Char → Option (List Char × List Char)
  | [] => none
  | char :: rest =>
    if char == '\x7d' && depth == 0 then some ([], char :: rest)
    else
      let depth :=
        if char == '\x7b' then depth + 1 else if char == '\x7d' then depth - 1 else depth
      (specText depth rest).map fun (text, after) => (char :: text, after)

/-- The conversion that a letter asks for. -/
def conversion? : Option Char → Option Conversion
  | some 'r' => some .repr
  | some 's' => some .str
  | some 'a' => some .ascii
  | _ => none

/-- Decodes a run of text. Empty text is no part. -/
def textPart (position : Position) (plain : Bool) (text : List Char) :
    Except Complaint (List Expr) :=
  if text.isEmpty then return []
  else match StringLiteral.unescape plain false (Text.encode text) with
    | .ok value => return [.literal position "" (.text (Text.ofBytes value))]
    | .error error => throw (.badString error)

/-- How the expression of a field is read. -/
abbrev FieldReader := List Char → Except Complaint Expr

/-- How the format of a field is read. -/
abbrev SpecReader := List Char → Except Complaint (List Expr)

/-- Reads the field after its opening brace: its parts, and what follows it. A
field that ends in an equals sign shows its own text first. -/
def field (position : Position) (readValue : FieldReader) (readSpec : SpecReader)
    (chars : List Char) : Except Complaint (List Expr × List Char) := do
  let some (text, rest) := fieldText 0 none none chars | throw .openField
  if (Text.trim text).isEmpty then throw .emptyField
  let value ← readValue text
  let shows := rest.head? == some '='
  let rest := if shows then rest.drop 1 else rest
  let (conversion, rest) ←
    if rest.head? == some '!' then
      match conversion? (rest.drop 1).head? with
      | some conversion => pure (some conversion, rest.drop 2)
      | none => throw .badConversion
    else pure (none, rest)
  let (spec, rest) ←
    if rest.head? == some ':' then
      let some (text, rest) := specText 0 (rest.drop 1) | throw .openField
      pure (some (Expr.fstring position "" (mergeTexts (← readSpec text))), rest)
    else pure (none, rest)
  if rest.head? != some '\x7d' then throw .openField
  let conversion :=
    if shows && conversion.isNone && spec.isNone then some Conversion.repr else conversion
  let label := if shows then
      [Expr.literal position "" (.text (String.ofList (text ++ ['='])))]
    else []
  return (label ++ [.field position value conversion spec], rest.drop 1)

/-- Reads text and fields in turn. -/
def parts (position : Position) (plain nests : Bool) (readValue : FieldReader)
    (readSpec : SpecReader) : (fuel : Nat) → List Char → Except Complaint (List Expr)
  | 0, _ => throw .pastEnd
  | fuel + 1, chars => do
    let (text, rest) ← textRun plain chars
    if rest.isEmpty then textPart position plain text
    else
      if !nests then throw .nestedFields
      let before ← textPart position plain text
      let (here, rest) ← field position readValue readSpec (rest.drop 1)
      let after ← parts position plain nests readValue readSpec fuel rest
      return before ++ here ++ after

/-- The parts of a body in which fields may nest `levels` deep. -/
def body (position : Position) (plain : Bool) (readValue : FieldReader) :
    (levels : Nat) → List Char → Except Complaint (List Expr)
  | 0, chars => parts position plain false readValue (fun _ => throw .nestedFields) chars.length.succ chars
  | levels + 1, chars =>
    parts position plain true readValue (body position plain readValue levels) chars.length.succ chars

/-- The parts of a formatted string. -/
def formattedString (position : Position) (plain : Bool) (readValue : FieldReader)
    (chars : List Char) : Except Complaint (List Expr) :=
  mergeTexts <$> body position plain readValue 2 chars

end Unsugar.Grammar
