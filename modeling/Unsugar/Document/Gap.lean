/-! The space between words of a document: blanks, line ends, and what is left of
them where a text runs over several lines. -/

namespace Unsugar.Document

/-- The line ends of a document whose lines all end alike. -/
def isBreak (char : Char) : Bool := char == '\n' || char == '\u2028' || char == '\u2029'

def isBlank (char : Char) : Bool := char == ' ' || char == '\t'

/-- Whether a word ends before these characters. -/
def endsWord : List Char → Bool
  | [] => true
  | char :: _ => isBlank char || isBreak char

/-- The characters that a document may hold. -/
def isAllowed (char : Char) : Bool :=
  let code := char.toNat
  code == 0x09 || code == 0x0A || code == 0x0D || code == 0x85 ||
  (0x20 ≤ code && code ≤ 0x7E) || (0xA0 ≤ code && code ≤ 0xFFFD && code != 0xFEFF) ||
  0x10000 ≤ code

/-- A text whose lines end alike, but for the line and paragraph separators, which
stay what they are. -/
def unifyBreaks : List Char → List Char
  | '\r' :: '\n' :: rest => '\n' :: unifyBreaks rest
  | char :: rest =>
    (if char == '\r' || char == '\x85' then '\n' else char) :: unifyBreaks rest
  | [] => []

/-- A text without the mark that may say how it is encoded. -/
def dropMark : List Char → List Char
  | '\uFEFF' :: rest => rest
  | chars => chars

/-- A run of blanks and line ends inside a text. -/
structure Gap where
  /-- The blanks before the first line end, the last one first. -/
  blanks : List Char := []
  /-- Whether the text goes on on another line. -/
  broken : Bool := false
  /-- The first line end, unless it does not count. -/
  first : Option Char := none
  /-- The line ends after the first, the last one first. -/
  breaks : List Char := []

namespace Gap

/-- A gap that an escaped line end begins. -/
def escaped : Gap := { broken := true }

/-- A gap with one more blank or line end. -/
def add (gap : Gap) (char : Char) : Gap :=
  if isBreak char then
    if gap.broken then { gap with breaks := char :: gap.breaks }
    else { gap with broken := true, first := some char }
  else if gap.broken then gap
  else { gap with blanks := char :: gap.blanks }

/-- What stands for a gap in the text: its blanks, if it does not go over a line
end; a space for a single line end; otherwise the line ends after the first. A
separator counts even if it comes first. -/
def text (gap : Gap) : List Char :=
  if gap.broken then
    match gap.first with
    | some '\n' => if gap.breaks.isEmpty then [' '] else gap.breaks.reverse
    | some other => other :: gap.breaks.reverse
    | none => gap.breaks.reverse
  else gap.blanks.reverse

end Gap

/-! ## Lines -/

/-- A line, and what ends it unless the document does. -/
structure Line where
  content : List Char
  stop : Option Char

namespace Line

/-- The number of characters of a line. -/
def length (line : Line) : Nat := line.content.length + (if line.stop.isSome then 1 else 0)

/-- The number of spaces in front of a line. -/
def depth (line : Line) : Nat := (line.content.takeWhile (· == ' ')).length

/-- Whether a line holds nothing but spaces. -/
def isEmpty (line : Line) : Bool := line.content.all (· == ' ')

/-- The lines of a text. -/
def split : List Char → List Line
  | [] => []
  | char :: rest =>
    if isBreak char then ⟨[], some char⟩ :: split rest
    else match split rest with
      | line :: lines => { line with content := char :: line.content } :: lines
      | [] => [⟨[char], none⟩]

end Line
end Unsugar.Document
