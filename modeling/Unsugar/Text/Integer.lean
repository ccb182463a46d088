import Unsugar.Text.Unquoted

/-! Integers as users write them: after a sign, a mark may choose the base, and
single underscores may stand between digits. The values are those of a 64-bit
word. -/

namespace Unsugar.Text

inductive IntegerError where
  | malformed
  | outOfRange

def IntegerError.message : IntegerError → String
  | malformed => "invalid syntax"
  | outOfRange => "value out of range"

/-- The base of a number and its digits. A zero in front means octal. -/
def basedDigits : List Char → Nat × List Char
  | '0' :: mark :: digit :: rest =>
    match mark with
    | 'x' | 'X' => (16, digit :: rest)
    | 'o' | 'O' => (8, digit :: rest)
    | 'b' | 'B' => (2, digit :: rest)
    | _ => (8, mark :: digit :: rest)
  | '0' :: rest => (8, rest)
  | digits => (10, digits)

/-- The value of digits that follow `value`, whatever the underscores. The first
offence counts: a character that is no digit, or a value too large. -/
def digitsValue (base value : Nat) : List Char → Except IntegerError Nat
  | [] => .ok value
  | '_' :: rest => digitsValue base value rest
  | char :: rest =>
    match digitBelow? base char with
    | none => .error .malformed
    | some digit =>
      let value := value * base + digit
      if value < Nat.pow 2 64 then digitsValue base value rest else .error .outOfRange

/-- Whether each underscore stands alone between other characters. -/
def underscoresSeparate (started : Bool) : List Char → Bool
  | [] => true
  | '_' :: rest => started && !rest.isEmpty && underscoresSeparate false rest
  | _ :: rest => underscoresSeparate true rest

/-- A number without a sign. -/
def unsignedInteger (chars : List Char) : Except IntegerError Nat := do
  if chars.isEmpty then throw .malformed
  let (base, digits) := basedDigits chars
  let value ← digitsValue base 0 digits
  if underscoresSeparate false chars then return value else throw .malformed

/-- A sign and what follows it. -/
def splitSign : List Char → Bool × List Char
  | '-' :: rest => (true, rest)
  | '+' :: rest => (false, rest)
  | chars => (false, chars)

/-- The number of a sign and a magnitude, if a signed word can hold it. -/
def signedWord? (negative : Bool) (magnitude : Nat) : Option Int :=
  if negative then if magnitude ≤ Nat.pow 2 63 then some (-magnitude) else none
  else if magnitude < Nat.pow 2 63 then some magnitude else none

/-- A number with or without a sign. -/
def integer (chars : List Char) : Except IntegerError Int := do
  let (negative, rest) := splitSign chars
  match signedWord? negative (← unsignedInteger rest) with
  | some value => return value
  | none => throw .outOfRange

/-- A number in decimal digits alone, with or without a sign. -/
def decimalInteger? (chars : List Char) : Option Int :=
  let (negative, digits) := splitSign chars
  if digits.isEmpty || digits.any (!Char.isDigit ·) then none
  else match digitsValue 10 0 digits with
    | .ok magnitude => signedWord? negative magnitude
    | .error _ => none

/-- The truth value that a word stands for. -/
def truthValue? (word : String) : Option Bool :=
  if ["1", "t", "T", "TRUE", "true", "True"].contains word then some true
  else if ["0", "f", "F", "FALSE", "false", "False"].contains word then some false
  else none

end Unsugar.Text
