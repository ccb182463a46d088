import Unsugar.Fault

/-! Numbers in source text. A number is read from the front of the remaining
characters of its line; a failed reading says how many characters it got past
before it complained. -/

namespace Unsugar.Numeral

def isDigit (char : Char) : Bool := '0' ≤ char && char ≤ '9'

def isOctalDigit (char : Char) : Bool := '0' ≤ char && char ≤ '7'

def isBinaryDigit (char : Char) : Bool := char == '0' || char == '1'

def isHexDigit (char : Char) : Bool :=
  isDigit char || ('A' ≤ char && char ≤ 'F') || ('a' ≤ char && char ≤ 'f')

/-- The value of a digit in any base up to sixteen. -/
def digitValue (char : Char) : Nat :=
  if isDigit char then char.toNat - 0x30
  else if 'a' ≤ char then char.toNat - 0x57
  else char.toNat - 0x37

/-- The number that digits denote in a base. -/
def value (base : Nat) (digits : List Char) : Nat :=
  digits.foldl (fun value char => value * base + digitValue char) 0

/-- A run of digits, in which underscores may stand anywhere. -/
def run (isDigit : Char → Bool) (chars : List Char) : List Char :=
  chars.takeWhile fun char => isDigit char || char == '_'

/-- The digits of a run. -/
def digitsOf (chars : List Char) : List Char :=
  chars.filter (· != '_')

/-- A complaint, and the number of characters before the place it is about. -/
structure Failure where
  complaint : Complaint
  offset : Nat

/-- A token and the number of characters it takes. -/
structure Reading where
  token : Token
  width : Nat

def isExponentMark (char : Char) : Bool := char == 'e' || char == 'E'

def isImaginaryMark (char : Char) : Bool := char == 'j' || char == 'J'

/-- The number of characters of an exponent at the front, its mark included. A
sign must be followed by a digit. -/
def exponentWidth (offset : Nat) (chars : List Char) : Except Failure Nat :=
  match chars with
  | mark :: rest =>
    if !isExponentMark mark then return 0
    else match rest with
      | '+' :: digits | '-' :: digits =>
        if (digits.head?.map isDigit).getD false then
          return 2 + (digits.takeWhile isDigit).length
        else throw ⟨.floatLiteral, offset + 2⟩
      | digits => return 1 + (digits.takeWhile isDigit).length
  | [] => return 0

/-- The number that a decimal with a fraction or exponent denotes. An exponent
mark without digits denotes none. -/
def decimalValue? (text : List Char) : Option Binary64 :=
  let mantissa := text.takeWhile (!isExponentMark ·)
  let tail := text.drop mantissa.length
  let whole := mantissa.takeWhile (· != '.')
  let fraction := digitsOf (mantissa.drop (whole.length + 1))
  let digits := value 10 (digitsOf whole ++ fraction)
  let power? : Option Int :=
    match tail with
    | [] => some 0
    | _ :: '-' :: exponent => if exponent.isEmpty then none else some (-(value 10 exponent : Int))
    | _ :: '+' :: exponent => if exponent.isEmpty then none else some (value 10 exponent)
    | _ :: exponent => if exponent.isEmpty then none else some (value 10 exponent)
  power?.map fun power => Binary64.ofDecimal digits (power - fraction.length)

/-- Whether an imaginary mark follows the first `width` characters. -/
def imaginaryAt (chars : List Char) (width : Nat) : Bool :=
  ((chars.drop width).head?.map isImaginaryMark).getD false

/-- An integer in a base of its own, after the two characters that announce it.
Octal and binary integers are limited to sixty-three bits. -/
def based (base : Nat) (digits : List Char) (chars : List Char) : Except Failure Reading :=
  let width := 2 + digits.length
  if imaginaryAt chars width then throw ⟨.imaginaryLiteral, 0⟩
  else
    let number := value base (digitsOf digits)
    if (digitsOf digits).isEmpty ∨ (base ≠ 16 ∧ number ≥ Nat.pow 2 63) then throw ⟨.integerLiteral, 0⟩
    else return ⟨.integer number, width⟩

/-- A decimal whose integer part has `whole` characters. -/
def decimal (whole : Nat) (chars : List Char) : Except Failure Reading := do
  let rest := chars.drop whole
  let pointed := rest.head? == some '.'
  let fraction := if pointed then 1 + (run isDigit (rest.drop 1)).length else 0
  let exponent ← exponentWidth (whole + fraction) (rest.drop fraction)
  let width := whole + fraction + exponent
  let text := chars.take width
  if imaginaryAt chars width then
    match decimalValue? text with
    | some number =>
      if number.isInfinite then throw ⟨.imaginaryLiteral, 0⟩
      else return ⟨.imaginary number, width + 1⟩
    | none => throw ⟨.imaginaryLiteral, 0⟩
  else if pointed || exponent > 0 then
    match decimalValue? text with
    | some number => return ⟨.float number, width⟩
    | none => throw ⟨.floatLiteral, 0⟩
  else return ⟨.integer (value 10 (digitsOf text)), width⟩

/-- A decimal that begins with a zero. Without a fraction, exponent or imaginary
mark it must be all zeros. -/
def zeroLed (chars : List Char) : Except Failure Reading :=
  let digits := run isDigit (chars.drop 1)
  let width := 1 + digits.length
  let decides := match (chars.drop width).head? with
    | some char => char == '.' || isExponentMark char || isImaginaryMark char
    | none => false
  if decides || digits.all (fun char => char == '0' || char == '_') then decimal width chars
  else if digits.all (· ≤ '7') then throw ⟨.obsoleteOctal (String.ofList digits), width⟩
  else throw ⟨.integerLiteral, 0⟩

/-- The number at the front of the characters, which begin with a digit, or with
a point and a digit. -/
def read (chars : List Char) : Except Failure Reading :=
  match chars with
  | '0' :: mark :: rest =>
    if mark == 'x' || mark == 'X' then
      let digits := run isHexDigit rest
      if digits.isEmpty then throw ⟨.hexLiteral, 0⟩ else based 16 digits chars
    else if mark == 'o' || mark == 'O' then
      let digits := run isOctalDigit rest
      if digits.isEmpty then throw ⟨.octalLiteral, 2⟩ else based 8 digits chars
    else if mark == 'b' || mark == 'B' then
      let digits := run isBinaryDigit rest
      if digits.isEmpty then throw ⟨.binaryLiteral, 2⟩ else based 2 digits chars
    else zeroLed chars
  | _ => decimal (run isDigit chars).length chars

end Unsugar.Numeral
