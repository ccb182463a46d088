import Unsugar.Document.Gap

/-! How a text is written in a document: bare, between quotes, or in lines of its
own. Not every text can be written in every way. -/

namespace Unsugar.Document

inductive Style where
  | bare
  | singleQuoted
  | doubleQuoted
  /-- In lines of its own. -/
  | lines
  deriving DecidableEq

namespace Style

/-- The characters that are written as they are. -/
def isPlain (char : Char) : Bool :=
  let code := char.toNat
  code == 0x0A || (0x20 ≤ code && code ≤ 0x7E) || (0xA0 ≤ code && code ≤ 0xD7FF) ||
  (0xE000 ≤ code && code ≤ 0xFFFD && code != 0xFEFF)

/-- The characters that end a line where a text is read. -/
def isLineEnd (char : Char) : Bool :=
  char == '\n' || char == '\r' || char == '\x85' || char == '\u2028' || char == '\u2029'

def isSpace (char : Char) : Bool := char == ' '

/-- Whether a text begins with a mark of the format. -/
def startsWithMark : List Char → Bool
  | '-' :: '-' :: '-' :: _ | '.' :: '.' :: '.' :: _ => true
  | char :: rest =>
    "#,[]\x7b\x7d&*!|>'\"%@\x60".toList.contains char ||
      (['?', ':', '-'].contains char && rest.head?.all isBlank)
  | [] => false

/-- Whether a mark of the format stands inside a text: a colon before a gap, or a
comment after one. -/
def holdsMark : List Char → Bool
  | first :: second :: rest =>
    (second == ':' && rest.head?.all isBlank) ||
      (second == '#' && (isBlank first || isLineEnd first)) || holdsMark (second :: rest)
  | _ => false

/-- Whether two neighbours in a text are of these kinds. -/
def hasNeighbours (before after : Char → Bool) : List Char → Bool
  | first :: second :: rest =>
    (before first && after second) || hasNeighbours before after (second :: rest)
  | _ => false

/-- Whether a text can be written in lines of its own. -/
def allowsLines (chars : List Char) : Bool :=
  !chars.isEmpty && chars.all (fun char => isPlain char || char == '\t') &&
    !hasNeighbours isSpace isLineEnd chars && !chars.getLast?.any isSpace

/-- Whether a text can be written between single quotes. -/
def allowsSingle (chars : List Char) : Bool :=
  chars.all isPlain && !hasNeighbours isSpace isLineEnd chars &&
    !hasNeighbours isLineEnd isSpace chars

/-- Whether a text can be written without quotes. -/
def allowsBare (chars : List Char) : Bool :=
  allowsSingle chars && !chars.any isLineEnd && !startsWithMark chars && !holdsMark chars &&
    !chars.head?.any isSpace && !chars.getLast?.any isSpace

/-- The way to write a text that comes nearest to a wish. A text in line with its
value stays on that line. -/
def choose (wish : Style) (inLine : Bool) (chars : List Char) : Style :=
  if inLine && chars.any isLineEnd then doubleQuoted
  else match wish with
    | bare =>
      if allowsBare chars && !(inLine && chars.isEmpty) then bare
      else if allowsSingle chars then singleQuoted
      else doubleQuoted
    | singleQuoted => if allowsSingle chars then singleQuoted else doubleQuoted
    | lines => if allowsLines chars && !inLine then lines else doubleQuoted
    | doubleQuoted => doubleQuoted

end Style
end Unsugar.Document
