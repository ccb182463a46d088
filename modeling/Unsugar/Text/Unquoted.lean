import Unsugar.Text.Quoted
import Unsugar.Text.Utf8

/-! Quoted texts read back. A text stands between double quotes, with escapes, or
between back quotes, without them; a single character may stand between single
quotes. -/

namespace Unsugar.Text

/-- The value of a digit below a base. -/
def digitBelow? (base : Nat) (char : Char) : Option Nat :=
  let value :=
    if '0' ≤ char && char ≤ '9' then char.toNat - 0x30
    else if 'a' ≤ char && char ≤ 'f' then char.toNat - 0x57
    else if 'A' ≤ char && char ≤ 'F' then char.toNat - 0x37
    else base
  if value < base then some value else none

/-- The number that exactly `width` digits write, and what follows them. -/
def number? (base : Nat) : (width value : Nat) → List Char → Option (Nat × List Char)
  | 0, value, rest => some (value, rest)
  | width + 1, value, digit :: rest => do
    number? base width (value * base + (← digitBelow? base digit)) rest
  | _ + 1, _, [] => none

/-- The bytes of a code point, if it is one of a character. -/
def codePoint? (code : Nat) : Option (List UInt8) :=
  if code < 0xD800 || (0xDFFF < code && code < 0x110000) then some (encode [Char.ofNat code])
  else none

/-- The bytes that an escape stands for, and what follows it. The backslash is
not part of the input. -/
def escape? (delimiter : Char) : List Char → Option (List UInt8 × List Char)
  | [] => none
  | char :: rest =>
    match char with
    | 'a' => some ([0x07], rest)
    | 'b' => some ([0x08], rest)
    | 'f' => some ([0x0C], rest)
    | 'n' => some ([0x0A], rest)
    | 'r' => some ([0x0D], rest)
    | 't' => some ([0x09], rest)
    | 'v' => some ([0x0B], rest)
    | '\\' => some ([0x5C], rest)
    | 'x' => do
      let (code, rest) ← number? 16 2 0 rest
      return ([code.toUInt8], rest)
    | 'u' => do
      let (code, rest) ← number? 16 4 0 rest
      return (← codePoint? code, rest)
    | 'U' => do
      let (code, rest) ← number? 16 8 0 rest
      return (← codePoint? code, rest)
    | _ =>
      if char == delimiter then some (encode [char], rest)
      else do
        let (code, rest) ← number? 8 3 0 (char :: rest)
        if code < 256 then some ([code.toUInt8], rest) else none

/-- The bytes of one character between `delimiter`s, and what follows it. -/
def quotedUnit? (delimiter : Char) : List Char → Option (List UInt8 × List Char)
  | '\\' :: rest => escape? delimiter rest
  | '\n' :: _ => none
  | char :: rest => some (encode [char], rest)
  | [] => none

/-- The bytes up to the `delimiter` that ends the text. At most `bound` characters
are read. -/
def quotedBytes? (delimiter : Char) : (bound : Nat) → List Char → Option (List UInt8)
  | _, [] => none
  | bound, char :: rest =>
    if char == delimiter then if rest.isEmpty then some [] else none
    else match bound with
      | 0 => none
      | bound + 1 => do
        let (bytes, rest) ← quotedUnit? delimiter (char :: rest)
        return bytes ++ (← quotedBytes? delimiter bound rest)

/-- The bytes that a quoted text stands for. -/
def unquoted? : List Char → Option (List UInt8)
  | '"' :: rest => quotedBytes? '"' rest.length rest
  | '\'' :: rest => quotedBytes? '\'' 1 rest
  | '\x60' :: rest =>
    if rest.findIdx? (· == '\x60') = some (rest.length - 1) then
      some (encode (rest.dropLast.filter (· != '\r')))
    else none
  | _ => none

end Unsugar.Text
