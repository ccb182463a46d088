import Unsugar.Document.Scalar
import Unsugar.Document.Token

/-! The tokens in the text of a document. The name of an entry is only known for
one by the colon after it, so the token that announces it is put in before tokens
that are there already. -/

namespace Unsugar.Document

/-- Where the name of an entry may have begun. -/
structure Beginning where
  /-- How many tokens stand before it. -/
  count : Nat
  /-- Whether nothing else than a name can stand there. -/
  required : Bool
  line : Nat
  column : Nat
  offset : Nat

structure Lexer where
  rest : List Char
  line : Nat := 0
  column : Nat := 0
  offset : Nat := 0
  /-- The tokens so far, the last one first. -/
  tokens : List Token := []
  /-- The column of the innermost list or table that is told by indentation. -/
  depth : Option Nat := none
  /-- The columns of those around it, the innermost first. -/
  outerDepths : List (Option Nat) := []
  /-- Where a name may have begun inside the innermost brackets. -/
  beginning : Option Beginning := none
  /-- Where names may have begun around each pair of brackets, the innermost first. -/
  outerBeginnings : List (Option Beginning) := []
  /-- Whether a name may begin here. -/
  allowsName : Bool := true

namespace Lexer

def bracketed (lexer : Lexer) : Bool := !lexer.outerBeginnings.isEmpty

/-- Goes on by a number of characters. -/
def skip : (count : Nat) → Lexer → Lexer
  | 0, lexer => lexer
  | count + 1, lexer =>
    match lexer.rest with
    | [] => lexer
    | char :: rest =>
      let lexer := { lexer with rest, offset := lexer.offset + 1 }
      skip count <|
        if isBreak char then { lexer with line := lexer.line + 1, column := 0 }
        else { lexer with column := lexer.column + 1 }

def push (lexer : Lexer) (token : Token) : Lexer :=
  { lexer with tokens := token :: lexer.tokens }

/-- Puts a token in after the first `count` tokens. -/
def insert (lexer : Lexer) (count : Nat) (token : Token) : Lexer :=
  { lexer with tokens := lexer.tokens.insertIdx (lexer.tokens.length - count) token }

/-! ## Indentation -/

/-- Begins a list or table at a column, if none stands there. Its token comes
after the first `count` tokens. -/
def indent (lexer : Lexer) (column count : Nat) (token : Token) : Lexer :=
  if !lexer.bracketed && lexer.depth.all (· < column) then
    { lexer.insert count token with
      depth := some column, outerDepths := lexer.depth :: lexer.outerDepths }
  else lexer

/-- Ends lists and tables that stand deeper than a column. -/
def dedentFrom (column : Option Nat) (lexer : Lexer) : (outer : List (Option Nat)) → Lexer
  | [] => lexer
  | depth :: outerDepths =>
    if lexer.depth.any fun depth => column.all (· < depth) then
      dedentFrom column { lexer.push .dedent with depth, outerDepths } outerDepths
    else lexer

/-- Ends lists and tables that stand deeper than a column, or all of them. -/
def dedent (lexer : Lexer) (column : Option Nat) : Lexer :=
  if lexer.bracketed then lexer else dedentFrom column lexer lexer.outerDepths

/-! ## Names -/

/-- Gives up that a name has begun. -/
def forgetName? (lexer : Lexer) : Option Lexer :=
  if lexer.beginning.any (·.required) then none else some { lexer with beginning := none }

/-- Notes that a name may begin here. -/
def noteName? (lexer : Lexer) : Option Lexer :=
  if lexer.allowsName then do
    let lexer ← lexer.forgetName?
    let beginning : Beginning :=
      { count := lexer.tokens.length
        required := !lexer.bracketed && lexer.depth == some lexer.column
        line := lexer.line, column := lexer.column, offset := lexer.offset }
    return { lexer with beginning := some beginning }
  else some lexer

/-- The beginning of the name that ends here. A name stands on one line, and has a
limited length. -/
def name? (lexer : Lexer) : Option Beginning :=
  lexer.beginning.filter fun beginning =>
    beginning.line == lexer.line && lexer.offset ≤ beginning.offset + 1024

/-! ## Gaps -/

/-- The number of characters of blanks, comments and line ends at the front, and
whether a name may begin after them. Tabs do not count as indentation. -/
def gapWidth (bracketed allowsName inComment : Bool) : List Char → Nat × Bool
  | [] => (0, allowsName)
  | char :: rest =>
    if isBreak char then
      let (width, allowsName) := gapWidth bracketed (allowsName || !bracketed) false rest
      (width + 1, allowsName)
    else if inComment || char == '#' || char == ' ' ||
        (char == '\t' && (bracketed || !allowsName)) then
      let (width, allowsName) := gapWidth bracketed allowsName (inComment || char == '#') rest
      (width + 1, allowsName)
    else (0, allowsName)

def skipGap (lexer : Lexer) : Lexer :=
  let (width, allowsName) := gapWidth lexer.bracketed lexer.allowsName false lexer.rest
  { lexer.skip width with allowsName }

/-- Goes on to the comment on this line, if nothing but blanks stands before it. -/
def skipToComment (lexer : Lexer) : Lexer :=
  let blanks := lexer.rest.takeWhile isBlank
  if (lexer.rest.drop blanks.length).head? = some '#' then lexer.skip blanks.length else lexer

/-! ## Tokens -/

/-- Adds a token of a number of characters. -/
def take (lexer : Lexer) (width : Nat) (token : Token) : Lexer := (lexer.push token).skip width

def openBracket? (lexer : Lexer) (token : Token) : Option Lexer := do
  let lexer ← lexer.noteName?
  return { lexer.take 1 token with
    beginning := none, outerBeginnings := lexer.beginning :: lexer.outerBeginnings
    allowsName := true }

def closeBracket? (lexer : Lexer) (token : Token) : Option Lexer := do
  let lexer ← lexer.forgetName?
  let lexer := { lexer.take 1 token with allowsName := false }
  match lexer.outerBeginnings with
  | beginning :: outerBeginnings => return { lexer with beginning, outerBeginnings }
  | [] => return lexer

def comma? (lexer : Lexer) : Option Lexer := do
  return { (← lexer.forgetName?).take 1 .comma with allowsName := true }

/-- A dash, or the mark before a name, which may begin a list or table. -/
def mark? (lexer : Lexer) (indentation token : Token) : Option Lexer := do
  if !lexer.bracketed && !lexer.allowsName then none
  else
    let lexer ← (lexer.indent lexer.column lexer.tokens.length indentation).forgetName?
    return lexer.take 1 token

def dash? (lexer : Lexer) : Option Lexer := do
  return { ← lexer.mark? .indentList .dash with allowsName := true }

def nameMark? (lexer : Lexer) : Option Lexer := do
  return { ← lexer.mark? .indentTable .name with allowsName := !lexer.bracketed }

def valueMark? (lexer : Lexer) : Option Lexer :=
  match lexer.name? with
  | some name =>
    let lexer := (lexer.insert name.count .name).indent name.column name.count .indentTable
    some { lexer.take 1 .value with beginning := none, allowsName := false }
  | none =>
    if lexer.beginning.any (·.required) || (!lexer.bracketed && !lexer.allowsName) then none
    else
      let lexer := lexer.indent lexer.column lexer.tokens.length .indentTable
      some { lexer.take 1 .value with beginning := none, allowsName := !lexer.bracketed }

/-- Adds a token that may begin a name. -/
def takeName? (lexer : Lexer) (width : Nat) (token : Token) : Option Lexer := do
  return { (← lexer.noteName?).take width token with allowsName := false }

def isLabelChar (char : Char) : Bool := char.isAlphanum || char == '_' || char == '-'

/-- A label, or a reference to one. -/
def label? (lexer : Lexer) (token : String → Token) : Option Lexer :=
  let label := (lexer.rest.drop 1).takeWhile isLabelChar
  if label.isEmpty then none
  else lexer.takeName? (label.length + 1) (token (String.ofList label))

def bare? (lexer : Lexer) : Option Lexer := do
  let depth := (lexer.depth.map (· + 1)).getD 0
  let reading := bareFrom lexer.bracketed depth [] {} lexer.column 0 lexer.rest
  let lexer ← lexer.takeName? reading.width (.scalar true (String.ofList reading.content))
  return { lexer with allowsName := reading.endsLine }

def quoted? (lexer : Lexer) (reading? : Option (List Char × Nat)) : Option Lexer := do
  let (content, width) ← reading?
  lexer.takeName? (width + 1) (.scalar false (String.ofList content))

def lines? (lexer : Lexer) (joined : Bool) : Option Lexer := do
  let lexer ← lexer.forgetName?
  let (content, width) ← linesValue? joined lexer.depth (lexer.rest.drop 1)
  return { lexer.take (width + 1) (.scalar false (String.ofList content)) with
    allowsName := true }

/-! ## Tags -/

def isTagChar (char : Char) : Bool :=
  isLabelChar char || ";/?:@&=+$.,!~*'()[]%".toList.contains char

/-- The text of a tag, in which a percent sign and two digits stand for a byte. -/
def tagBytes? : List Char → Option (List UInt8)
  | [] => some []
  | '%' :: high :: low :: rest => do
    let byte := (← Text.digitBelow? 16 high) * 16 + (← Text.digitBelow? 16 low)
    return byte.toUInt8 :: (← tagBytes? rest)
  | char :: rest => do return Text.encode [char] ++ (← tagBytes? rest)

def tagText? (chars : List Char) : Option String := (tagBytes? chars).map Text.ofBytes

/-- A tag after its exclamation mark. It is written in full between angle
brackets, or else after a handle. -/
def tag? (lexer : Lexer) : Option Lexer := do
  let chars := lexer.rest.drop 1
  let (token, width) ← match chars with
    | '<' :: chars =>
      let written := chars.takeWhile isTagChar
      if (chars.drop written.length).head? ≠ some '>' then none
      else some (.tag "" (← tagText? written), written.length + 3)
    | _ =>
      let word := chars.takeWhile isLabelChar
      let written := (chars.drop word.length).takeWhile isTagChar
      let width := 1 + word.length + written.length
      match written with
      | '!' :: suffix =>
        if suffix.isEmpty then none
        else some (.tag (String.ofList (['!'] ++ word ++ ['!'])) (← tagText? suffix), width)
      | _ =>
        if (word ++ written).isEmpty then some (.tag "" "!", width)
        else some (.tag "!" (← tagText? (word ++ written)), width)
  if endsWord (lexer.rest.drop width) then lexer.takeName? width token else none

/-! ## Directives and separators -/

/-- What a line after a percent sign says. -/
def directive? (words : List String) : Option Token :=
  match words with
  | "YAML" :: _ => some .version
  | "TAG" :: name :: meaning :: _ => do return .handle name (← tagText? meaning.toList)
  | _ => none

/-- The words of a line. -/
def wordsOf (line : List Char) : List String :=
  ((line.splitBy fun left right => isBlank left == isBlank right).filter
    fun word => !word.any isBlank).map String.ofList

/-- Ends everything that a document holds. -/
def close? (lexer : Lexer) : Option Lexer := do
  return { ← (lexer.dedent none).forgetName? with allowsName := false }

def directiveLine? (lexer : Lexer) : Option Lexer := do
  let lexer ← lexer.close?
  let line := lexer.rest.takeWhile (!isBreak ·)
  return lexer.take line.length (← directive? (wordsOf (line.drop 1)))

def separator? (lexer : Lexer) : Option Lexer := do
  let lexer ← lexer.close?
  return lexer.take 3 (if lexer.rest.head? = some '-' then .start else .stop)

/-! ## All tokens -/

/-- Whether a bare value cannot begin with a character. -/
def isReserved (char : Char) : Bool :=
  isBlank char || ",[]\x7b\x7d#&*!|>'\"%@\x60".toList.contains char

/-- Adds the next token, given the characters that it begins with. -/
def step? (lexer : Lexer) (char : Char) (rest : List Char) : Option Lexer :=
  if lexer.column == 0 && char == '%' then lexer.directiveLine?
  else if lexer.column == 0 && isSeparator lexer.rest then lexer.separator?
  else if char == '[' then lexer.openBracket? .openList
  else if char == '\x7b' then lexer.openBracket? .openTable
  else if char == ']' then lexer.closeBracket? .closeList
  else if char == '\x7d' then lexer.closeBracket? .closeTable
  else if char == ',' then lexer.comma?
  else if char == '-' && endsWord rest then lexer.dash?
  else if char == '?' && (lexer.bracketed || endsWord rest) then lexer.nameMark?
  else if char == ':' && (lexer.bracketed || endsWord rest) then lexer.valueMark?
  else if char == '*' then lexer.label? .reference
  else if char == '&' then lexer.label? .label
  else if char == '!' then lexer.tag?
  else if char == '|' && !lexer.bracketed then lexer.lines? false
  else if char == '>' && !lexer.bracketed then lexer.lines? true
  else if char == '\'' then lexer.quoted? (singleQuotedFrom? [] {} 0 rest)
  else if char == '"' then lexer.quoted? (doubleQuotedFrom? [] {} 0 0 0 rest)
  else if isReserved char then none
  else lexer.bare?

/-- All tokens. Where the text cannot be read, they end; at most `fuel` tokens are
read. -/
def run : (fuel : Nat) → Lexer → List Token
  | 0, lexer => lexer.tokens.reverse
  | fuel + 1, lexer =>
    let lexer := lexer.skipGap
    let lexer := lexer.dedent (some lexer.column)
    match lexer.rest with
    | [] =>
      match lexer.close? with
      | some lexer => (lexer.push .finish).tokens.reverse
      | none => lexer.tokens.reverse
    | char :: rest =>
      match lexer.step? char rest with
      | some lexer =>
        run fuel (if lexer.tokens.head? = some .dash then lexer else lexer.skipToComment)
      | none => lexer.tokens.reverse

end Lexer

/-- The tokens of a text. Each takes a character at least. -/
def tokensOf (chars : List Char) : List Token :=
  Lexer.run (chars.length + 1) { rest := chars }

end Unsugar.Document
