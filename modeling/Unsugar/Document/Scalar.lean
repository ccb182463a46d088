import Unsugar.Document.Gap
import Unsugar.Text.Unquoted

/-! Single values in the text of a document. A reading takes the characters from
where a value begins, and gives its content and how many characters it takes. -/

namespace Unsugar.Document

/-- Whether a line of its own separates documents here. -/
def isSeparator : List Char → Bool
  | '-' :: '-' :: '-' :: rest | '.' :: '.' :: '.' :: rest => endsWord rest
  | _ => false

/-- The marks of lists and tables in brackets. -/
def isBracketMark (char : Char) : Bool := ",[]\x7b\x7d".toList.contains char

/-! ## Bare values -/

/-- A bare value. -/
structure BareReading where
  content : List Char
  width : Nat
  /-- Whether the blanks after the value go over a line end. -/
  endsLine : Bool

/-- Goes on with a bare value. `found` is its content so far, the last character
first, and `gap` what follows that. A value goes on on lines that stand at least
as deep as `depth`, and in brackets on any line. -/
def bareFrom (bracketed : Bool) (depth : Nat) (found : List Char) (gap : Gap)
    (column width : Nat) : List Char → BareReading
  | [] => ⟨found.reverse, width, gap.broken⟩
  | char :: rest =>
    if isBreak char then bareFrom bracketed depth found (gap.add char) 0 (width + 1) rest
    else if isBlank char then
      bareFrom bracketed depth found (gap.add char) (column + 1) (width + 1) rest
    else
      let afterGap := gap.broken || !gap.blanks.isEmpty
      let stops :=
        (afterGap && (char == '#' || (column == 0 && isSeparator (char :: rest)))) ||
        (gap.broken && !bracketed && column < depth) ||
        (char == ':' && endsWord rest) || (bracketed && isBracketMark char)
      if stops then ⟨found.reverse, width, gap.broken⟩
      else
        bareFrom bracketed depth (char :: (gap.text.reverse ++ found)) {} (column + 1)
          (width + 1) rest

/-! ## Quoted values -/

/-- Goes on with a value in single quotes; two of them stand for one. -/
def singleQuotedFrom? (found : List Char) (gap : Gap) (width : Nat) :
    List Char → Option (List Char × Nat)
  | '\'' :: '\'' :: rest =>
    singleQuotedFrom? ('\'' :: (gap.text.reverse ++ found)) {} (width + 2) rest
  | '\'' :: _ => some (found.reverse ++ gap.text, width + 1)
  | char :: rest =>
    if isBreak char || isBlank char then
      singleQuotedFrom? found (gap.add char) (width + 1) rest
    else singleQuotedFrom? (char :: (gap.text.reverse ++ found)) {} (width + 1) rest
  | [] => none

/-- The character that a letter after a backslash stands for. -/
def escape? : Char → Option Char
  | '0' => some '\x00'
  | 'a' => some '\x07'
  | 'b' => some '\x08'
  | 't' | '\t' => some '\t'
  | 'n' => some '\n'
  | 'v' => some '\x0B'
  | 'f' => some '\x0C'
  | 'r' => some '\r'
  | 'e' => some '\x1B'
  | ' ' => some ' '
  | '"' => some '"'
  | '\'' => some '\''
  | '/' => some '/'
  | '\\' => some '\\'
  | 'N' => some '\x85'
  | '_' => some '\xA0'
  | 'L' => some '\u2028'
  | 'P' => some '\u2029'
  | _ => none

/-- How many hexadecimal digits follow a letter after a backslash. -/
def escapeWidth? : Char → Option Nat
  | 'x' => some 2
  | 'u' => some 4
  | 'U' => some 8
  | _ => none

/-- Goes on with a value in double quotes. Of a numbered character, `pending`
digits are still to come after those of `code`. -/
def doubleQuotedFrom? (found : List Char) (gap : Gap) (width : Nat) :
    (pending code : Nat) → List Char → Option (List Char × Nat)
  | _, _, [] => none
  | pending + 1, code, digit :: rest => do
    let code := code * 16 + (← Text.digitBelow? 16 digit)
    if pending ≠ 0 then doubleQuotedFrom? found gap (width + 1) pending code rest
    else if code.isValidChar then
      doubleQuotedFrom? (Char.ofNat code :: found) gap (width + 1) 0 0 rest
    else none
  | 0, _, '"' :: _ => some (found.reverse ++ gap.text, width + 1)
  | 0, _, '\\' :: letter :: rest =>
    let found := gap.text.reverse ++ found
    if isBreak letter then doubleQuotedFrom? found .escaped (width + 2) 0 0 rest
    else match escapeWidth? letter with
      | some digits => doubleQuotedFrom? found {} (width + 2) digits 0 rest
      | none => do
        doubleQuotedFrom? ((← escape? letter) :: found) {} (width + 2) 0 0 rest
  | 0, _, char :: rest =>
    if isBreak char || isBlank char then
      doubleQuotedFrom? found (gap.add char) (width + 1) 0 0 rest
    else doubleQuotedFrom? (char :: (gap.text.reverse ++ found)) {} (width + 1) 0 0 rest

/-! ## Values in lines of their own -/

/-- Which of the line ends at the end of a value belong to it. -/
inductive Chomping where
  | strip
  | clip
  | keep

/-- What stands on the line before a value in lines of its own. -/
structure Header where
  chomping : Chomping := .clip
  /-- How much deeper the value stands, if the header says so. -/
  depth : Option Nat := none

namespace Header

def chomping? : Char → Option Chomping
  | '+' => some .keep
  | '-' => some .strip
  | _ => none

def depth? (char : Char) : Option Nat :=
  if '1' ≤ char && char ≤ '9' then some (char.toNat - 0x30) else none

/-- Whether the rest of a header says nothing. -/
def isRest (chars : List Char) : Bool :=
  match chars.dropWhile isBlank with
  | [] => true
  | char :: _ => char == '#'

/-- Reads a header. Its two marks may stand in either order. -/
def ofChars? (chars : List Char) : Option Header :=
  let (header, rest) : Header × List Char := match chars with
    | first :: rest =>
      match chomping? first, depth? first with
      | some chomping, _ =>
        match rest.head?.bind depth? with
        | some depth => (⟨chomping, some depth⟩, rest.drop 1)
        | none => (⟨chomping, none⟩, rest)
      | none, some depth =>
        match rest.head?.bind chomping? with
        | some chomping => (⟨chomping, some depth⟩, rest.drop 1)
        | none => (⟨.clip, some depth⟩, rest)
      | none, none => ({}, chars)
    | [] => ({}, [])
  if isRest rest then some header else none

end Header

/-- A value in lines of its own, so far. -/
structure LinesReading where
  /-- The content, the last character first. -/
  found : List Char := []
  /-- What ends the last line of the content. -/
  stop : Option Char := none
  /-- The ends of the empty lines after that, the last one first. -/
  breaks : List Char := []
  /-- Whether the last line of the content begins with a blank. -/
  startsBlank : Bool := false
  width : Nat := 0

namespace LinesReading

/-- Adds a line of content. If lines are joined, a single line end between two
lines that do not begin with a blank becomes a space, and of several of them the
first is dropped. -/
def add (joined : Bool) (reading : LinesReading) (content : List Char) (stop : Option Char) :
    LinesReading :=
  let startsBlank := content.head?.any isBlank
  let stopText :=
    if joined && !reading.startsBlank && !startsBlank && reading.stop == some '\n' then
      if reading.breaks.isEmpty then [' '] else []
    else reading.stop.toList
  { reading with
    found := content.reverse ++ reading.breaks ++ stopText ++ reading.found
    stop, breaks := [], startsBlank }

/-- Reads the lines that stand as deep as `depth`, and the empty ones between
them. -/
def go (joined : Bool) (depth : Nat) (reading : LinesReading) : List Line → LinesReading
  | [] => reading
  | line :: lines =>
    let passed := { reading with width := reading.width + line.length }
    if line.isEmpty && line.content.length ≤ depth then
      match line.stop with
      | some stop => go joined depth { passed with breaks := stop :: reading.breaks } lines
      | none => reading
    else if line.depth < depth then reading
    else go joined depth (passed.add joined (line.content.drop depth) line.stop) lines

/-- The content, once all lines are read. -/
def content (chomping : Chomping) (reading : LinesReading) : List Char :=
  let tail := match chomping with
    | .strip => []
    | .clip => reading.stop.toList
    | .keep => reading.breaks ++ reading.stop.toList
  (tail ++ reading.found).reverse

/-- How deep the first lines stand, the empty ones included. -/
def firstDepth : List Line → Nat
  | [] => 0
  | line :: lines =>
    if line.isEmpty && line.stop.isSome then max line.depth (firstDepth lines) else line.depth

end LinesReading

/-- A value in lines of its own, from its header on. It stands deeper than `outer`,
the depth of what is around it, if anything is. -/
def linesValue? (joined : Bool) (outer : Option Nat) (chars : List Char) :
    Option (List Char × Nat) :=
  match Line.split chars with
  | [] => some ([], 0)
  | first :: lines => do
    let header ← Header.ofChars? first.content
    let least := (outer.map (· + 1)).getD 0
    let depth := match header.depth with
      | some depth => outer.getD 0 + depth
      | none => max 1 (max least (LinesReading.firstDepth lines))
    let reading := LinesReading.go joined depth { width := first.length } lines
    return (reading.content header.chomping, reading.width)

end Unsugar.Document
