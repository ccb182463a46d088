import Unsugar.Document.Style
import Unsugar.Text.Quoted

/-! The page that a document is written on. Whether a space or a line end is needed
before the next thing depends on what was written last, so a page remembers that. -/

namespace Unsugar.Document

structure Page where
  /-- What is written, the last character first. -/
  written : List Char := []
  column : Nat := 0
  /-- Whether nothing needs to separate the next word. -/
  isSeparated : Bool := true
  /-- Whether only indentation and its marks stand on the line. -/
  isIndentation : Bool := true

namespace Page

def text (page : Page) : String := String.ofList page.written.reverse

def put (page : Page) (char : Char) : Page :=
  { page with written := char :: page.written, column := page.column + 1 }

def putAll (page : Page) (chars : List Char) : Page := chars.foldl put page

/-- Ends a line. -/
def putBreak (page : Page) (char : Char) : Page :=
  { page with written := char :: page.written, column := 0, isIndentation := true }

/-- Goes to a column, on the next line unless the column can still be reached on
this one. -/
def indent (page : Page) (depth : Nat) : Page :=
  let isPast := !page.isIndentation || page.column > depth ||
    (page.column = depth && !page.isSeparated)
  let page := if isPast then page.putBreak '\n' else page
  { page.putAll (List.replicate (depth - page.column) ' ') with isSeparated := true }

/-- Puts a space, if one is needed before a word. -/
def separate (page : Page) : Page := if page.isSeparated then page else page.put ' '

/-- Writes a mark of the format. -/
def mark (page : Page) (chars : String) : Page :=
  { page.putAll chars.toList with isSeparated := false, isIndentation := false }

/-- Writes a mark that belongs to the indentation. -/
def indentMark (page : Page) (char : Char) : Page :=
  { page.separate.put char with isSeparated := false }

/-! ## Texts -/

def bare (page : Page) (chars : List Char) : Page :=
  { page.separate.putAll chars with isSeparated := false, isIndentation := false }

/-- Goes on with a text between single quotes. After line ends, the next line
begins at `depth`. -/
def singleQuotedFrom (depth : Nat) (afterBreak : Bool) (page : Page) : List Char → Page
  | [] => page
  | char :: rest =>
    if Style.isLineEnd char then
      let page := if char == '\n' && !afterBreak then page.putBreak '\n' else page
      singleQuotedFrom depth true (page.putBreak char) rest
    else if Style.isSpace char then singleQuotedFrom depth afterBreak (page.put char) rest
    else
      let page := if afterBreak then page.indent depth else page
      let page := if char == '\'' then page.put '\'' else page
      singleQuotedFrom depth false { page.put char with isIndentation := false } rest

def singleQuoted (page : Page) (depth : Nat) (chars : List Char) : Page :=
  (singleQuotedFrom depth false (page.separate.mark "'") chars).mark "'"

/-- A character between double quotes. -/
def escaped (char : Char) : List Char :=
  match char with
  | '"' => ['\\', '"']
  | '\\' => ['\\', '\\']
  | '\n' => ['\\', 'n']
  | '\t' => ['\\', 't']
  | '\r' => ['\\', 'r']
  | '\x00' => ['\\', '0']
  | '\x07' => ['\\', 'a']
  | '\x08' => ['\\', 'b']
  | '\x0B' => ['\\', 'v']
  | '\x0C' => ['\\', 'f']
  | '\x1B' => ['\\', 'e']
  | '\x85' => ['\\', 'N']
  | '\u2028' => ['\\', 'L']
  | '\u2029' => ['\\', 'P']
  | _ =>
    let code := char.toNat
    if Style.isPlain char then [char]
    else if code < 0x100 then ['\\', 'x'] ++ (Text.hexDigits 2 code).map Char.toUpper
    else if code < 0x10000 then ['\\', 'u'] ++ (Text.hexDigits 4 code).map Char.toUpper
    else ['\\', 'U'] ++ (Text.hexDigits 8 code).map Char.toUpper

def doubleQuoted (page : Page) (chars : List Char) : Page :=
  ((page.separate.mark "\"").putAll (chars.flatMap escaped)).mark "\""

/-- What stands before lines: how deep they stand, if that cannot be seen, and
whether the line ends at their end count. -/
def header (chars : List Char) : String :=
  let depth := if chars.head?.any fun char => Style.isSpace char || Style.isLineEnd char
    then "4" else ""
  let chomping := match chars.reverse.map Style.isLineEnd with
    | [true] | true :: true :: _ => "+"
    | true :: _ => ""
    | _ => "-"
  "|" ++ depth ++ chomping

/-- Goes on with a text in lines of its own. -/
def linesFrom (depth : Nat) (afterBreak : Bool) (page : Page) : List Char → Page
  | [] => page
  | char :: rest =>
    if Style.isLineEnd char then linesFrom depth true (page.putBreak char) rest
    else
      let page := if afterBreak then page.indent depth else page
      linesFrom depth false { page.put char with isIndentation := false } rest

def lines (page : Page) (depth : Nat) (chars : List Char) : Page :=
  let page := page.separate.mark (header chars)
  linesFrom depth true { page with isSeparated := true } chars

/-- Writes a text in a style. Its lines stand at `depth`. -/
def styled (page : Page) (style : Style) (depth : Nat) (chars : List Char) : Page :=
  match style with
  | .bare => page.bare chars
  | .singleQuoted => page.singleQuoted depth chars
  | .doubleQuoted => page.doubleQuoted chars
  | .lines => page.lines depth chars

end Page
end Unsugar.Document
