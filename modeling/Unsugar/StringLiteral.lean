import Unsugar.Text.Quoted
import Unsugar.Text.Utf8

/-! String literals: writing a value between quotes, and reading it back. Both
work on bytes, because a bytes literal denotes any byte string and because an
escape sequence is measured in bytes. -/

namespace Unsugar.StringLiteral

/-- Why a literal denotes nothing. -/
inductive Error where
  | invalidMark (byte : UInt8)
  | tooShort
  | invalidQuotes
  | truncatedEscape (text : List UInt8)
  | invalidEscape (text : List UInt8)
  | outOfRange (text : List UInt8)
  | namedEscape

def Error.message : Error → String
  | invalidMark byte => "invalid string prefix " ++ Text.quotedChar (Char.ofNat byte.toNat)
  | tooShort => "string literal too short"
  | invalidQuotes => "string literal has invalid quotes"
  | truncatedEscape text => "truncated escape sequence " ++ Text.ofBytes text
  | invalidEscape text => "invalid escape sequence " ++ Text.ofBytes text
  | outOfRange text =>
    "code point out of range: " ++ Text.ofBytes text ++ " (max \\U0010ffff)"
  | namedEscape => "\\N\x7b...\x7d escapes are not supported"

/-! ## Reading -/

/-- An ASCII character as a byte. -/
def ascii (char : Char) : UInt8 := char.toNat.toUInt8

/-- Whether there are fewer than `count` bytes. -/
def fewer (count : Nat) (bytes : List UInt8) : Bool :=
  (bytes.take count).length < count

/-- The value of a hexadecimal digit in either case. -/
def hexValue? (byte : UInt8) : Option Nat :=
  let code := byte.toNat
  if 0x30 ≤ code ∧ code ≤ 0x39 then some (code - 0x30)
  else if 0x41 ≤ code ∧ code ≤ 0x46 then some (code - 0x37)
  else if 0x61 ≤ code ∧ code ≤ 0x66 then some (code - 0x57)
  else none

/-- The number that hexadecimal digits denote, when all the bytes are such. -/
def hexNumber? (bytes : List UInt8) : Option Nat :=
  bytes.foldlM (fun value byte => (hexValue? byte).map (value * 16 + ·)) 0

def isOctal (byte : UInt8) : Bool :=
  0x30 ≤ byte.toNat && byte.toNat ≤ 0x37

/-- The bytes of a character given by its code; a surrogate has none of its own
and becomes the replacement character. -/
def encodeCode (code : Nat) : List UInt8 :=
  Text.encode [if code.isValidChar then Char.ofNat code else Text.replacement]

/-- The bytes that a code below 256 stands for. -/
def encodeByte (inBytes : Bool) (code : Nat) : List UInt8 :=
  if inBytes ∨ code < 0x80 then [code.toUInt8] else encodeCode code

/-- The value of a one-letter escape. -/
def letterEscape? (byte : UInt8) : Option UInt8 :=
  match Char.ofNat byte.toNat with
  | 'a' => some 0x07
  | 'b' => some 0x08
  | 'f' => some 0x0C
  | 'n' => some 0x0A
  | 'r' => some 0x0D
  | 't' => some 0x09
  | 'v' => some 0x0B
  | '\\' => some byte
  | '\'' => some byte
  | '"' => some byte
  | _ => none

/-- A code point escape of `width` digits; `rest` begins with its letter. -/
def codePointEscape (width : Nat) (rest : List UInt8) : Except Error (List UInt8 × Nat) :=
  let whole := ascii '\\' :: rest
  if fewer (width + 1) rest then throw (.truncatedEscape whole)
  else match hexNumber? ((rest.drop 1).take width) with
    | none => throw (.invalidEscape (whole.take (width + 2)))
    | some code =>
      if code > 0x10FFFF then throw (.outOfRange (whole.take (width + 2)))
      else return (encodeCode code, width + 1)

/-- Decodes the escape sequence whose backslash stands before `rest`: the bytes
it denotes, and how many of `rest` belong to it. An unknown escape keeps its
backslash; an escaped line break denotes nothing. -/
def escape (inBytes : Bool) (rest : List UInt8) : Except Error (List UInt8 × Nat) :=
  let whole := ascii '\\' :: rest
  match rest with
  | [] => throw (.truncatedEscape whole)
  | letter :: after =>
    let kept := ([ascii '\\', letter], 1)
    if letter = ascii '\n' then return ([], 1)
    else if letter = ascii '\r' then
      return ([], if after.head? = some (ascii '\n') then 2 else 1)
    else if let some value := letterEscape? letter then return ([value], 1)
    else if isOctal letter then
      let digits := letter :: (after.take 2).takeWhile isOctal
      let code := digits.foldl (fun value byte => value * 8 + (byte.toNat - 0x30)) 0
      if code ≥ 256 then throw (.invalidEscape (ascii '\\' :: digits))
      else return (encodeByte inBytes code, digits.length)
    else if letter = ascii 'x' then
      if fewer 2 after then throw (.truncatedEscape whole)
      else match hexNumber? (after.take 2) with
        | none => throw (.invalidEscape (whole.take 4))
        | some code => return (encodeByte inBytes code, 3)
    else if letter = ascii 'u' then
      if inBytes then return kept else codePointEscape 4 rest
    else if letter = ascii 'U' then
      if inBytes then return kept else codePointEscape 8 rest
    else if letter = ascii 'N' then
      if inBytes then return kept else throw .namedEscape
    else return kept

/-- Decodes the body of a literal after its first `skipped` bytes, which belong
to the escape decoded last. A `plain` body has no escapes. -/
def unescapeFrom (plain inBytes : Bool) : (skipped : Nat) → List UInt8 → Except Error (List UInt8)
  | _, [] => return []
  | skipped + 1, _ :: rest => unescapeFrom plain inBytes skipped rest
  | 0, byte :: rest =>
    if byte = ascii '\r' then do
      let skipped := if rest.head? = some (ascii '\n') then 1 else 0
      let tail ← unescapeFrom plain inBytes skipped rest
      return ascii '\n' :: tail
    else if byte = ascii '\\' ∧ !plain then do
      let (value, width) ← escape inBytes rest
      let tail ← unescapeFrom plain inBytes width rest
      return value ++ tail
    else do
      let tail ← unescapeFrom plain inBytes 0 rest
      return byte :: tail

/-- The bytes that the body of a literal denotes. -/
def unescape (plain inBytes : Bool) (body : List UInt8) : Except Error (List UInt8) :=
  unescapeFrom plain inBytes 0 body

/-- A literal taken apart. -/
structure Reading where
  value : List UInt8
  triple : Bool
  inBytes : Bool

/-- The marks before the opening quote. -/
structure Marks where
  plain : Bool := false
  inBytes : Bool := false

def isQuote (byte : UInt8) : Bool :=
  byte = ascii '"' || byte = ascii '\''

/-- Reads the marks of a literal and returns what follows them. -/
def readMarks : Marks → List UInt8 → Except Error (Marks × List UInt8)
  | marks, [] => return (marks, [])
  | marks, byte :: rest =>
    if isQuote byte then return (marks, byte :: rest)
    else if byte = ascii 'r' ∨ byte = ascii 'R' then readMarks { marks with plain := true } rest
    else if byte = ascii 'b' ∨ byte = ascii 'B' then readMarks { marks with inBytes := true } rest
    else if byte = ascii 'u' ∨ byte = ascii 'U' then readMarks marks rest
    else throw (.invalidMark byte)

/-- Whether a literal begins and ends with three quotes of one kind. -/
def isTriple (literal : List UInt8) : Bool :=
  let opening := literal.take 3
  literal.length ≥ 6 && opening.all (fun byte => some byte == literal.head?) &&
    opening == literal.drop (literal.length - 3)

/-- The marks of a literal, and its body with the quotes. -/
def readQuoted (literal : List UInt8) : Except Error (Marks × List UInt8) := do
  let (marks, quoted) ← readMarks {} literal
  if quoted.length < 2 then throw .tooShort
  if quoted.head? ≠ quoted.getLast? then throw .invalidQuotes
  return (marks, quoted)

/-- What stands between the quotes of a literal. -/
def betweenQuotes (quoted : List UInt8) : List UInt8 :=
  let width := if isTriple quoted then 3 else 1
  (quoted.drop width).take (quoted.length - 2 * width)

/-- The value of a literal with its quotes and marks. -/
def unquote (literal : List UInt8) : Except Error Reading := do
  let (marks, quoted) ← readQuoted literal
  let value ← unescape marks.plain marks.inBytes (betweenQuotes quoted)
  return { value, triple := isTriple quoted, inBytes := marks.inBytes }

/-! ## Writing -/

/-- The letter of a one-letter escape that is written for a byte. -/
def escapeLetter? (byte : UInt8) : Option Char :=
  match byte.toNat with
  | 0x07 => some 'a'
  | 0x08 => some 'b'
  | 0x0C => some 'f'
  | 0x0A => some 'n'
  | 0x0D => some 'r'
  | 0x09 => some 't'
  | 0x0B => some 'v'
  | 0x5C => some '\\'
  | 0x22 => some '"'
  | _ => none

/-- A byte by its hexadecimal escape. -/
def hexEscape (byte : UInt8) : List Char :=
  ['\\', 'x'] ++ Text.hexDigits 2 byte.toNat

/-- One byte of a bytes literal, or one ASCII character of a string literal.
Triple quotes take a line break as it is. -/
def quoteByte (triple : Bool) (byte : UInt8) : List Char :=
  if triple ∧ byte = ascii '\n' then ['\n']
  else match escapeLetter? byte with
    | some letter => ['\\', letter]
    | none =>
      if byte.toNat < 0x20 ∨ byte.toNat ≥ 0x7F then hexEscape byte
      else [Char.ofNat byte.toNat]

/-- One piece of a string literal. -/
def quotePiece (printable : Char → Bool) (triple : Bool) : Text.Piece → List Char
  | .stray byte => hexEscape byte
  | .char char =>
    if char.toNat < 0x80 then quoteByte triple char.toNat.toUInt8
    else if printable char then [char]
    else if char.toNat < 0x10000 then ['\\', 'u'] ++ Text.hexDigits 4 char.toNat
    else ['\\', 'U'] ++ Text.hexDigits 8 char.toNat

/-- The quotes of a literal. -/
def quotes (triple : Bool) : List Char :=
  if triple then ['"', '"', '"'] else ['"']

/-- The body of a literal that denotes a value. -/
def quoteBody (printable : Char → Bool) (inBytes triple : Bool) (value : List UInt8) : List Char :=
  if inBytes then value.flatMap (quoteByte triple)
  else (Text.pieces value).flatMap (quotePiece printable triple)

/-- A literal for a value, for any choice of the characters shown as themselves. -/
def quoteWith (printable : Char → Bool) (inBytes triple : Bool) (value : List UInt8) : List Char :=
  (if inBytes then ['b'] else []) ++ quotes triple ++
    quoteBody printable inBytes triple value ++ quotes triple

/-- A literal for a value. -/
def quote (inBytes triple : Bool) (value : List UInt8) : String :=
  String.ofList (quoteWith Text.isPrintable inBytes triple value)

/-- A string literal for a text. -/
def quoteText (text : String) : String :=
  quote false false (Text.toBytes text)

/-! ## Surrogates -/

/-- Whether a source holds a code point escape for a surrogate. Such an escape
is lost in decoding. The search stops at an escape that the source cuts short. -/
def hasSurrogateEscape : List UInt8 → Bool
  | [] => false
  | [_] => false
  | first :: second :: rest =>
    if first ≠ ascii '\\' then hasSurrogateEscape (second :: rest)
    else if second = ascii '\\' then hasSurrogateEscape rest
    else if second = ascii 'u' ∨ second = ascii 'U' then
      let width := if second = ascii 'u' then 4 else 8
      if fewer width rest then false
      else match hexNumber? (rest.take width) with
        | some code =>
          (0xD800 ≤ code && code ≤ 0xDFFF) || hasSurrogateEscape (second :: rest)
        | none => hasSurrogateEscape (second :: rest)
    else hasSurrogateEscape (second :: rest)

end Unsugar.StringLiteral
