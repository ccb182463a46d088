import Unsugar.Text.Letter
import Unsugar.Token.Numeral

/-! From characters to words. The scanner turns indentation into tokens of its
own, ignores line breaks inside brackets, and takes a null character for the end
of the text. A line ends with a line feed, with a carriage return, or with both in
the opposite order, and is read as if it ended with a line feed. An interactive
scanner reads its lines one at a time, as it needs them. -/

namespace Unsugar

/-- A character as the scanner sees it: either end of a line is a line feed. -/
def seen (char : Char) : Char :=
  if char = '\r' then '\n' else char

/-- What follows the line break at the front, if there is one. -/
def afterBreak? : List Char → Option (List Char)
  | '\r' :: '\n' :: rest => some rest
  | '\r' :: rest => some rest
  | '\n' :: rest => some rest
  | _ => none

/-- Every line break as one line feed. -/
def unifyBreaks : List Char → List Char
  | [] => []
  | '\r' :: '\n' :: rest => '\n' :: unifyBreaks rest
  | char :: rest => seen char :: unifyBreaks rest

/-- The state of reading a text. -/
structure Scanner where
  /-- The characters not yet read; for an interactive scanner, those of the
  current line. -/
  rest : List Char
  file : String
  line : Nat := 1
  column : Nat := 1
  /-- The number of open brackets. -/
  depth : Nat := 0
  /-- The columns of the open blocks, innermost first, down to that of the text
  itself. -/
  levels : List Nat := [0]
  /-- Indents, or if negative outdents, found and not yet returned. -/
  pending : Int := 0
  /-- Whether the next characters are the indentation of a line. -/
  lineStart : Bool := true
  /-- The lines that an interactive scanner has not read. -/
  supply : Option (List (List Char)) := none

/-- A word of the text: its token, how it is spelt, and where it begins. -/
structure Lexeme where
  token : Token
  raw : String
  start : Position

/-- Reading with a scanner. A failed reading keeps the scanner as it was then. -/
abbrev Lexer := EStateM Fault Scanner

namespace Scanner

/-- A scanner at the beginning of a text. -/
def ofText (file : String) (text : List Char) : Scanner :=
  { rest := text, file }

/-- A scanner that reads lines as it needs them. -/
def ofLines (file : String) (lines : List (List Char)) : Scanner :=
  { rest := [], file, supply := some lines }

def position (scanner : Scanner) : Position :=
  .at scanner.file scanner.line scanner.column

/-- The number of characters that the scanner may still read. -/
def size (scanner : Scanner) : Nat :=
  (unifyBreaks scanner.rest).length + ((scanner.supply.getD []).map unifyBreaks).flatten.length

/-- The next character of the current line, or a null character at its end. -/
def front (scanner : Scanner) : Char :=
  seen (scanner.rest.headD '\x00')

/-- The number of open blocks. -/
def height (scanner : Scanner) : Nat :=
  scanner.levels.length - 1

end Scanner

namespace Lexer

/-- Complains about the current position. -/
def complain {α : Type} (complaint : Complaint) : Lexer α := fun scanner =>
  .error ⟨scanner.position, complaint⟩ scanner

/-- Complains about an earlier position. -/
def complainAt {α : Type} (position : Position) (complaint : Complaint) : Lexer α :=
  throw ⟨position, complaint⟩

/-- Reads the next interactive line when the current one is used up. -/
def fill : Lexer Unit := do
  let scanner ← get
  if scanner.rest.isEmpty then
    match scanner.supply with
    | none => return
    | some [] => complain .endOfInput
    | some (line :: lines) => set { scanner with rest := line, supply := some lines }

/-- Whether the text has ended. -/
def atEnd : Lexer Bool := do
  fill
  return (← get).rest.isEmpty

/-- The next character, or a null character at the end. -/
def peek : Lexer Char := do
  fill
  return (← get).front

/-- Reads one character. -/
def read : Lexer Char := do
  fill
  let scanner ← get
  match afterBreak? scanner.rest with
  | some rest =>
    set { scanner with rest, line := scanner.line + 1, column := 1 }
    return '\n'
  | none =>
    match scanner.rest with
    | [] => complain .pastEnd
    | char :: rest =>
      set { scanner with rest, column := scanner.column + 1 }
      return char

/-- Reads `count` characters of the current line. -/
def take (count : Nat) : Lexer (List Char) := do
  let scanner ← get
  let taken := scanner.rest.take count
  if taken.length < count then complain .pastEnd
  set { scanner with rest := scanner.rest.drop count, column := scanner.column + count }
  return taken

/-- Reads the characters of the current line up to the first that is unfit. -/
def takeWhile (fit : Char → Bool) : Lexer (List Char) := do
  fill
  take ((← get).rest.takeWhile fun char => fit (seen char)).length

/-! ## Indentation -/

/-- The width of an indentation, the column after it, and the characters that
follow. A tab reaches to the next multiple of eight columns, and a form feed
starts the width anew. -/
def measure : (width column : Nat) → List Char → Nat × Nat × List Char
  | width, column, ' ' :: rest => measure (width + 1) (column + 1) rest
  | width, column, '\t' :: rest => measure (width + (8 - (column - 1) % 8)) (column + 1) rest
  | _, column, '\x0c' :: rest => measure 0 (column + 1) rest
  | width, column, rest => (width, column, rest)

/-- Whether a character cannot begin anything but an empty line. -/
def endsBlank (char : Char) : Bool :=
  char == '#' || char == '\n' || char == '\x00'

/-- The column of the innermost block. -/
def innermost : Lexer Nat := do
  match (← get).levels with
  | level :: _ => return level
  | [] => complain .noLevel

/-- Opens or closes blocks so that the innermost one has the given column. -/
def align (width : Nat) : Lexer Unit := do
  let scanner ← get
  let current ← innermost
  if width > current then
    set { scanner with levels := width :: scanner.levels, pending := scanner.pending + 1 }
  else if width < current then
    let kept := scanner.levels.dropWhile (width < ·)
    let closed := scanner.levels.length - kept.length
    set { scanner with levels := kept, pending := scanner.pending - closed }
    if width ≠ (← innermost) then complain .unmatchedOutdent

/-- Reads the indentation of a line, and opens and closes blocks unless the line
is blank or continues an expression. The result says whether it is blank. -/
def startLine : Lexer Bool := do
  fill
  let scanner ← get
  let (width, column, rest) := measure 0 scanner.column scanner.rest
  set { scanner with column, rest, lineStart := false }
  let blank := endsBlank (← peek)
  if !blank && scanner.depth == 0 then align width
  return blank

/-- Reads the indentation where a line begins. The result says whether a blank line
begins here. -/
def openLine : Lexer Bool := do
  if (← get).lineStart then startLine else return false

/-- Closes all blocks, leaving their outdents pending. -/
def closeAll : Lexer Unit :=
  modify fun scanner =>
    { scanner with levels := scanner.levels.drop scanner.height, pending := -(scanner.height : Int) }

/-- A word without characters at the current position. -/
def emptyWord (token : Token) (raw : String) : Lexer Lexeme := do
  return ⟨token, raw, (← get).position⟩

/-- Returns one of the pending indents or outdents. -/
def pendingWord : Lexer Lexeme := do
  let scanner ← get
  if scanner.pending < 0 then
    set { scanner with pending := scanner.pending + 1 }
    emptyWord .outdent ""
  else
    set { scanner with pending := scanner.pending - 1 }
    emptyWord .indent ""

/-! ## Words -/

def isNameStart (char : Char) : Bool :=
  ('a' ≤ char && char ≤ 'z') || ('A' ≤ char && char ≤ 'Z') || char == '_' || Text.isLetter char

def isNamePart (char : Char) : Bool :=
  Numeral.isDigit char || isNameStart char

def isQuoteMark (char : Char) : Bool :=
  char == '"' || char == '\''

/-- Marks that may stand before a string, in lower case. -/
def stringMarks : List (List Char) :=
  [['r'], ['b'], ['u'], ['f'], ['b', 'r'], ['r', 'b'], ['f', 'r'], ['r', 'f']]

/-- The number of string marks at the front, if a quote follows them. -/
def marksBeforeQuote? : List Char → Option Nat
  | first :: second :: rest =>
    if isQuoteMark second then
      if stringMarks.contains [first.toLower] then some 1 else none
    else match rest with
      | third :: _ =>
        if isQuoteMark third && stringMarks.contains [first.toLower, second.toLower] then some 2
        else none
      | [] => none
  | _ => none

/-- Whether a character that has been read closes a string. Of three quotes it
reads the other two. -/
def closesString (quote : Char) (triple : Bool) (char : Char) : Lexer Bool := do
  if char != quote then return false
  if !triple then return true
  if (← peek) == quote && ((← get).rest.drop 1).head? == some quote then
    let _ ← read
    let _ ← read
    return true
  return false

/-- Reads the body of a string up to and including its closing quotes. -/
def stringBody (start : Position) (quote : Char) (triple : Bool) : (fuel : Nat) → Lexer (List Char)
  | 0 => complain .pastEnd
  | fuel + 1 => do
    if ← atEnd then complainAt start .openString
    let char ← read
    if ← closesString quote triple char then return []
    if char == '\n' && !triple then complainAt start .brokenString
    if char == '\\' then
      if ← atEnd then complainAt start .openString
      let escaped ← read
      return char :: escaped :: (← stringBody start quote triple fuel)
    return char :: (← stringBody start quote triple fuel)

/-- The word that the parts of a string make. -/
def stringWord (start : Position) (marks quotes body : List Char) : Lexer Lexeme := do
  let raw := marks ++ quotes ++ body ++ quotes
  let lower := marks.map Char.toLower
  if lower.contains 'f' then
    return ⟨.fstring body (lower.contains 'r'), String.ofList raw, start⟩
  match StringLiteral.unquote (Text.encode raw) with
  | .error error => complainAt start (.badString error)
  | .ok reading =>
    let token :=
      if reading.inBytes then Token.bytes reading.value
      else Token.string (Text.ofBytes reading.value)
    return ⟨token, String.ofList raw, start⟩

/-- Reads a string after its marks. -/
def string (start : Position) (marks : List Char) (fuel : Nat) : Lexer Lexeme := do
  let quote ← read
  let triple := (← get).rest.take 2 == [quote, quote]
  if triple then let _ ← take 2
  let body ← stringBody start quote triple fuel
  stringWord start marks (List.replicate (if triple then 3 else 1) quote) body

/-- Reads a number. -/
def number (start : Position) : Lexer Lexeme := do
  let scanner ← get
  match Numeral.read scanner.rest with
  | .ok reading =>
    let raw ← take reading.width
    return ⟨reading.token, String.ofList raw, start⟩
  | .error failure =>
    let _ ← take failure.offset
    complain failure.complaint

/-- Reads a name or a reserved word. -/
def word (start : Position) : Lexer Lexeme := do
  let raw := String.ofList (← takeWhile isNamePart)
  let token := match Keyword.ofText? raw with
    | some keyword => Token.keyword keyword
    | none => Token.name raw
  return ⟨token, raw, start⟩

/-- Punctuation, longer marks before those that begin them. -/
def marks : List Symbol :=
  [.augmented .power, .augmented .floorDivide, .augmented .shiftLeft, .augmented .shiftRight,
   .ellipsis, .operator .power, .operator .floorDivide, .operator .shiftLeft,
   .operator .shiftRight, .lessEqual, .greaterEqual, .doubleEqual, .notEqual, .augmented .add,
   .augmented .subtract, .augmented .multiply, .augmented .divide, .augmented .modulo,
   .augmented .bitAnd, .augmented .bitOr, .augmented .bitXor, .augmented .matrixMultiply,
   .arrow, .colonEquals, .operator .add, .operator .subtract, .operator .multiply,
   .operator .divide, .operator .modulo, .operator .bitAnd, .operator .bitOr, .operator .bitXor,
   .operator .matrixMultiply, .tilde, .dot, .comma, .equals, .semicolon, .colon, .openParen,
   .closeParen, .openBracket, .closeBracket, .openBrace, .closeBrace, .less, .greater]

/-- The longest punctuation at the front. -/
def markAt? (chars : List Char) : Option Symbol :=
  marks.find? fun mark => mark.text.toList.isPrefixOf chars

def isOpening (mark : Symbol) : Bool :=
  mark == .openParen || mark == .openBracket || mark == .openBrace

def isClosing (mark : Symbol) : Bool :=
  mark == .closeParen || mark == .closeBracket || mark == .closeBrace

/-- Reads punctuation, keeping count of the brackets. -/
def punctuation (start : Position) (char : Char) : Lexer Lexeme := do
  let scanner ← get
  match markAt? scanner.rest with
  | none => complain (.unexpectedCharacter char)
  | some mark =>
    if isClosing mark && scanner.depth == 0 then complain (.unmatchedBracket char)
    let _ ← take mark.text.length
    modify fun scanner =>
      { scanner with depth :=
          if isOpening mark then scanner.depth + 1
          else if isClosing mark then scanner.depth - 1
          else scanner.depth }
    return ⟨.symbol mark, mark.text, start⟩

/-- Reads the word that begins with `char`. -/
def wordAt (char : Char) (fuel : Nat) : Lexer Lexeme := do
  let scanner ← get
  let start := scanner.position
  if isQuoteMark char then string start [] fuel
  else if isNameStart char then
    match marksBeforeQuote? scanner.rest with
    | some count => string start (← take count) fuel
    | none => word start
  else if Numeral.isDigit char then number start
  else if char == '.' && ((scanner.rest.drop 1).head?.map Numeral.isDigit).getD false then
    number start
  else punctuation start char

/-- Whether a character stands between words. -/
def isGap (char : Char) : Bool :=
  char == ' ' || char == '\t' || char == '\x0c'

/-- Whether a character belongs to a comment that has begun. -/
def isRemark (char : Char) : Bool :=
  char != '\x00' && char != '\n'

/-- Skips blanks, and a comment up to the end of its line. -/
def skipBlanks : Lexer Unit := do
  let _ ← takeWhile isGap
  if (← peek) == '#' then
    let _ ← takeWhile isRemark

/-- Reads the next word. Each of the at most `fuel` rounds skips a line break or
a continued line, or turns to the outdents that it left pending. -/
def next : (fuel : Nat) → Lexer Lexeme
  | 0 => complain .pastEnd
  | fuel + 1 => do
    let lineStart := (← get).lineStart
    let blank ← openLine
    if (← get).pending ≠ 0 then return ← pendingWord
    skipBlanks
    let char ← peek
    if char == '\n' then
      modify fun scanner => { scanner with lineStart := true }
      let scanner ← get
      if scanner.depth > 0 || (blank && scanner.supply.isNone) then
        let _ ← read
        next fuel
      else if blank && scanner.height > 0 then
        closeAll
        next fuel
      else
        let newline ← emptyWord .newline "\n"
        let _ ← read
        return newline
    else if char == '\x00' then
      if (← get).height = 0 then emptyWord .endOfFile ""
      else if lineStart then
        closeAll
        next fuel
      else
        modify fun scanner => { scanner with lineStart := true }
        emptyWord .newline "\n"
    else if char == '\\' then
      let _ ← read
      if (← peek) != '\n' then complain .strayBackslash
      let _ ← read
      next fuel
    else wordAt char fuel

end Lexer

/-! ## Streams -/

/-- The words of a text, each with what is known after it. A stream ends with the
word that ends the text, or with a fault. -/
inductive Stream (σ : Type) where
  | failed (fault : Fault) (after : σ)
  | last (lexeme : Lexeme) (after : σ)
  | word (lexeme : Lexeme) (after : σ) (rest : Stream σ)

namespace Stream

variable {σ τ : Type}

/-- The words from a scanner on, at most `count` of them, each with the scanner after
it. -/
def read (fuel : Nat) : (count : Nat) → Scanner → Stream Scanner
  | 0, scanner => failed ⟨scanner.position, .pastEnd⟩ scanner
  | count + 1, scanner =>
    match Lexer.next fuel scanner with
    | .error fault after => failed fault after
    | .ok lexeme after =>
      if lexeme.token = .endOfFile then last lexeme after
      else word lexeme after (read fuel count after)

/-- All words of a text. A word takes a character, except line ends and the
outdents that match earlier indents. -/
def ofScanner (scanner : Scanner) : Stream Scanner :=
  let bound := 2 * scanner.size + 2
  read bound bound scanner

/-- The same words, with something else known after them. -/
def map (change : σ → τ) : Stream σ → Stream τ
  | failed fault after => failed fault (change after)
  | last lexeme after => last lexeme (change after)
  | word lexeme after rest => word lexeme (change after) (rest.map change)

/-- The words read before the end or the fault. -/
def lexemes : Stream σ → List Lexeme
  | failed _ _ => []
  | last lexeme _ => [lexeme]
  | word lexeme _ rest => lexeme :: rest.lexemes

/-- The fault that ends the stream, if one does. -/
def fault? : Stream σ → Option Fault
  | failed fault _ => some fault
  | last _ _ => none
  | word _ _ rest => rest.fault?

end Stream
end Unsugar
