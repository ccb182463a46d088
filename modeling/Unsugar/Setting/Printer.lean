import Unsugar.Document.Page
import Unsugar.Setting.Order
import Unsugar.Setting.Scalar

/-! The configuration as text. Lists and tables are printed in blocks, tables in the
order of their names; a text is quoted where it would otherwise stand for something
else. -/

namespace Unsugar.Setting

open Document (Page Style)

/-! ## Single values -/

/-- Words that stand for truth values elsewhere, though not here. -/
def isOldTruthWord (word : String) : Bool :=
  ["y", "Y", "yes", "Yes", "YES", "on", "On", "ON",
   "n", "N", "no", "No", "NO", "off", "Off", "OFF"].contains word

/-- Whether a word could be read as a number of base sixty: groups of digits with
colons between them. -/
def isSexagesimal (chars : List Char) : Bool :=
  let isGroup (group : List Char) : Bool :=
    match group with
    | [low] => low.isDigit
    | [high, low] => '0' ≤ high && high ≤ '5' && low.isDigit
    | _ => false
  let isNumeral (digits : List Char) : Bool := digits.all fun char => char.isDigit || char == '_'
  match (Text.splitSign chars).2.splitOn ':' with
  | first :: second :: groups =>
    let groups := second :: groups
    let last := groups.getLastD []
    let fraction := last.dropWhile (· != '.')
    (first.head?.any Char.isDigit) && isNumeral first && groups.dropLast.all isGroup &&
      isGroup (last.takeWhile (· != '.')) && isNumeral (fraction.drop 1)
  | _ => false

/-- Whether a text stands for itself when it is written bare. -/
def standsForItself (value : String) : Bool :=
  (ofBare value.toList).isText && !isOldTruthWord value && !isSexagesimal value.toList

/-- The characters of a number. -/
def decimalChars (value : Binary64) : List Char :=
  if isNan value then ".nan".toList
  else if value.isInfinite then value.signText ++ ".inf".toList
  else value.signText ++ value.finiteText Binary64.decimalText

/-- What is printed for a single value. -/
structure Form where
  tag : String := ""
  /-- How the value is printed if it can be. -/
  style : Style := .bare
  content : List Char

namespace Form

/-- The longest line of bytes. -/
def lineLength : Nat := 70

/-- Characters in lines of the given length. -/
def inLines : (fuel : Nat) → List Char → List Char
  | 0, _ => []
  | fuel + 1, chars =>
    if chars.isEmpty then []
    else chars.take lineLength ++ ['\n'] ++ inLines fuel (chars.drop lineLength)

/-- The form of bytes that are no text. They take a line if they fit. -/
def ofBytes (value : List UInt8) : Form :=
  let chars := Text.base64 value
  if chars.length < lineLength then { tag := "!!binary", content := chars }
  else { tag := "!!binary", style := .lines, content := inLines chars.length chars }

def ofText (value : String) : Form where
  style :=
    if value.toList.contains '\n' then .lines
    else if standsForItself value then .bare
    else .doubleQuoted
  content := value.toList

/-- The form of a value that is no list or table. -/
def ofSetting : Setting → Form
  | truth value => { content := (if value then "true" else "false").toList }
  | integer value => { content := (toString value).toList }
  | decimal value => { content := decimalChars value }
  | text value => ofText value
  | bytes value => ofBytes value
  | moment value => { content := value.text.toList }
  | _ => { content := "null".toList }

/-- Prints a value. Its lines, if it has any of its own, stand at `depth`. -/
def write (form : Form) (inLine : Bool) (depth : Nat) (page : Page) : Page :=
  let page := if form.tag.isEmpty then page else page.separate.mark form.tag
  page.styled (form.style.choose inLine form.content) depth form.content

/-- Whether the name of an entry stands on one line with its value. -/
def isShort (form : Form) : Bool :=
  !form.content.any Style.isLineEnd &&
    form.tag.utf8ByteSize + (Text.encode form.content).length ≤ 128

end Form

/-! ## Lists and tables -/

/-- What a value is part of. -/
inductive Place where
  | document
  | item
  | entry

/-- The depth of a value inside something at a depth. In a list, the dash and a
space come first; otherwise depths are multiples of four. -/
def Place.inner : Place → (depth : Nat) → Nat
  | document, _ => 0
  | item, depth => depth + 2
  | entry, depth => 4 * ((depth + 4) / 4)

/-- Prints an entry, given how its value is printed. -/
def writeEntry (depth : Nat) (name : Setting) (value : Page → Page) (page : Page) : Page :=
  let form := Form.ofSetting name
  let page := page.indent depth
  if form.isShort then value ((form.write true depth page).mark ":")
  else
    let page := form.write false (Place.inner .entry depth) (page.indentMark '?')
    value ((page.indent depth).indentMark ':')

/-- Prints entries in the order of their names. -/
def writeEntries (depth : Nat) (entries : List (Setting × (Page → Page))) (page : Page) : Page :=
  (entries.mergeSort fun left right => !isBefore right.1 left.1).foldl
    (fun page (name, value) => writeEntry depth name value page) page

mutual

/-- Prints a value. -/
def write (place : Place) (depth : Nat) : Setting → Page → Page
  | list [], page => page.separate.mark "[]"
  | table [], page | mapping [], page => page.separate.mark "\x7b\x7d"
  | list (item :: items), page => writeItems (place.inner depth) (item :: items) page
  | table (entry :: entries), page =>
    let inner := place.inner depth
    writeEntries inner (entryWriters inner (entry :: entries)) page
  | mapping (entry :: entries), page =>
    let inner := place.inner depth
    writeEntries inner (mappingWriters inner (entry :: entries)) page
  | setting, page => (Form.ofSetting setting).write false (place.inner depth) page
termination_by structural setting => setting

def writeItems (depth : Nat) : List Setting → Page → Page
  | [], page => page
  | item :: items, page =>
    writeItems depth items (write .item depth item ((page.indent depth).indentMark '-'))
termination_by structural items => items

/-- How the value of each entry is printed. -/
def entryWriters (depth : Nat) : List (String × Setting) → List (Setting × (Page → Page))
  | [] => []
  | (name, value) :: entries =>
    (text name, fun page => write .entry depth value page) :: entryWriters depth entries
termination_by structural entries => entries

def mappingWriters (depth : Nat) : List (Setting × Setting) → List (Setting × (Page → Page))
  | [] => []
  | (name, value) :: entries =>
    (name, fun page => write .entry depth value page) :: mappingWriters depth entries
termination_by structural entries => entries

end

/-- A table as the text of a file. -/
def print (entries : List (String × Setting)) : String :=
  ((write .document 0 (table entries) {}).indent 0).text

end Unsugar.Setting
