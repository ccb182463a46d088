/-! Binary floating-point numbers of double width, held as their bit pattern.
Reading a decimal is exact rational arithmetic followed by one rounding. -/

namespace Unsugar

/-- A floating-point number: sign, eleven exponent bits, fifty-two fraction bits. -/
structure Binary64 where
  bits : UInt64
  deriving DecidableEq

namespace Binary64

def zero : Binary64 := ⟨0⟩

def infinity : Binary64 := ⟨0x7FF0000000000000⟩

/-- The number with the opposite sign. -/
def negate (number : Binary64) : Binary64 := ⟨number.bits ^^^ 0x8000000000000000⟩

/-- Whether the sign bit is set; it is also set in negative zero. -/
def isSigned (number : Binary64) : Bool := number.bits ≥ 0x8000000000000000

/-- The bits without the sign. -/
def magnitude (number : Binary64) : Nat := number.bits.toNat % Nat.pow 2 63

def isInfinite (number : Binary64) : Bool := number.magnitude == 0x7FF0000000000000

/-- Equality of numbers, for which the two zeros are one. -/
def sameNumber (left right : Binary64) : Bool :=
  left == right || (left.magnitude == 0 && right.magnitude == 0)

/-- The bit that stands unwritten before the fraction of a normal number. -/
def leadingBit : Nat := Nat.pow 2 52

/-- The integer `significand` of a finite number, which is
`significand * 2 ^ exponent` up to sign. -/
def significand (number : Binary64) : Nat :=
  let fraction := number.magnitude % leadingBit
  if number.magnitude / leadingBit = 0 then fraction else leadingBit + fraction

/-- The power of two that scales the significand of a finite number. -/
def exponent (number : Binary64) : Int :=
  let field : Nat := number.magnitude / leadingBit
  if field = 0 then -1074 else (field : Int) - 1075

/-- The integer nearest to a quotient; a tie goes to the even neighbour. -/
def roundDiv (dividend divisor : Nat) : Nat :=
  let quotient := dividend / divisor
  let twice := 2 * (dividend % divisor)
  if twice > divisor ∨ (twice = divisor ∧ quotient % 2 = 1) then quotient + 1 else quotient

/-- A quotient divided by `2 ^ power`, as dividend and divisor. -/
def scaled (dividend divisor : Nat) (power : Int) : Nat × Nat :=
  if power ≥ 0 then (dividend, divisor * Nat.pow 2 power.toNat)
  else (dividend * Nat.pow 2 (-power).toNat, divisor)

/-- Packs a significand below `2 ^ 53` and its exponent. A number too large for
the format is infinite. -/
def pack (significand : Nat) (exponent : Int) : Binary64 :=
  if significand < leadingBit then ⟨significand.toUInt64⟩
  else
    let field := exponent + 1075
    if field ≥ 2047 then infinity
    else ⟨(field.toNat * leadingBit + (significand - leadingBit)).toUInt64⟩

/-- The number nearest to a positive quotient. -/
def ofRatio (dividend divisor : Nat) : Binary64 :=
  let estimate := max ((dividend.log2 : Int) - divisor.log2 - 52) (-1074)
  let start := scaled dividend divisor estimate
  let power :=
    if estimate > -1074 ∧ start.1 / start.2 < leadingBit then estimate - 1 else estimate
  let ratio := scaled dividend divisor power
  let rounded := roundDiv ratio.1 ratio.2
  if rounded < 2 * leadingBit then pack rounded power else pack (rounded / 2) (power + 1)

/-- The number of decimal digits of a natural number. -/
def decimalWidth (value : Nat) : Nat := (Nat.toDigits 10 value).length

/-- The number nearest to `digits * 10 ^ power`. Magnitudes far outside the
format are settled by their width, so the arithmetic stays small. -/
def ofDecimal (digits : Nat) (power : Int) : Binary64 :=
  let top := power + decimalWidth digits
  if digits = 0 ∨ top < -400 then zero
  else if top > 400 then infinity
  else if power ≥ 0 then ofRatio (digits * Nat.pow 10 power.toNat) 1
  else ofRatio digits (Nat.pow 10 (-power).toNat)

end Binary64
end Unsugar
