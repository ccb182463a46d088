import Unsugar.Binary64

/-! The shortest decimal that reads back as a given number, and its text. -/

namespace Unsugar.Binary64

/-- A positive decimal: `digits * 10 ^ power`. -/
structure Decimal where
  digits : Nat
  power : Int

namespace Decimal

/-- A decimal as dividend and divisor. -/
def ratio (decimal : Decimal) : Nat × Nat :=
  if decimal.power ≥ 0 then (decimal.digits * Nat.pow 10 decimal.power.toNat, 1)
  else (decimal.digits, Nat.pow 10 (-decimal.power).toNat)

end Decimal

/-- `count * 2 ^ (exponent - 2)` as dividend and divisor. -/
def quarters (count : Nat) (exponent : Int) : Nat × Nat :=
  scaled count 1 (2 - exponent)

def ratioLt (left right : Nat × Nat) : Bool := left.1 * right.2 < right.1 * left.2

def ratioLe (left right : Nat × Nat) : Bool := left.1 * right.2 ≤ right.1 * left.2

/-- Whether a decimal lies in the interval of reals that round to
`significand * 2 ^ exponent`. The ends belong to it when the significand is
even. Below a power of two the neighbours are half as far apart. -/
def rounds (significand : Nat) (exponent : Int) (decimal : Decimal) : Bool :=
  let below := if significand = leadingBit ∧ exponent > -1074 then 1 else 2
  let low := quarters (4 * significand - below) exponent
  let high := quarters (4 * significand + 2) exponent
  let value := decimal.ratio
  if significand % 2 = 0 then ratioLe low value && ratioLe value high
  else ratioLt low value && ratioLt value high

/-- The decimal of `count` digits that rounds to the number, nearest first. -/
def withDigits? (significand : Nat) (exponent leading : Int) (count : Nat) : Option Decimal :=
  let power := leading - count + 1
  let value := scaled significand 1 (-exponent)
  let grid := (Decimal.mk 1 power).ratio
  let dividend := value.1 * grid.2
  let divisor := value.2 * grid.1
  let lower : Decimal := ⟨dividend / divisor, power⟩
  let upper : Decimal := ⟨dividend / divisor + 1, power⟩
  let twice := 2 * (dividend % divisor)
  let upperNearer := twice > divisor || (twice == divisor && lower.digits % 2 == 1)
  let order := if upperNearer then [upper, lower] else [lower, upper]
  order.find? (rounds significand exponent)

/-- The power of ten of the leading digit of a positive number. -/
def leadingPower (significand : Nat) (exponent : Int) : Int :=
  let value := scaled significand 1 (-exponent)
  (decimalWidth (value.1 * Nat.pow 10 350 / value.2) : Int) - 351

/-- The decimal with the fewest digits that reads back as a positive finite
number, and among those the nearest one. -/
def shortest (number : Binary64) : Decimal :=
  let leading := leadingPower number.significand number.exponent
  let found := (List.range 17).findSome? fun count =>
    withDigits? number.significand number.exponent leading (count + 1)
  found.getD ⟨0, 0⟩

/-- Digits without the zeros at their end. -/
def trimZeros (digits : List Char) : List Char :=
  (digits.reverse.dropWhile (· == '0')).reverse

/-- The exponent of a decimal text: a sign and at least two digits. -/
def exponentText (power : Int) : List Char :=
  let sign := if power < 0 then '-' else '+'
  let digits := Nat.toDigits 10 power.natAbs
  'e' :: sign :: (if digits.length < 2 then '0' :: digits else digits)

/-- Digits with a point after `whole` of them. -/
def pointText (digits : List Char) (whole : Int) : List Char :=
  if whole ≤ 0 then
    '0' :: '.' :: (List.replicate (-whole).toNat '0' ++ digits)
  else
    let fraction := digits.drop whole.toNat
    let padding := List.replicate (whole.toNat - digits.length) '0'
    digits.take whole.toNat ++ padding ++ (if fraction.isEmpty then [] else '.' :: fraction)

/-- Digits with a point after `whole` of them, or with an exponent when the
leading digit is worth less than `10 ^ -4` or at least `10 ^ 6`. -/
def decimalText (digits : List Char) (whole : Int) : List Char :=
  let leading := whole - 1
  if leading < -4 ∨ leading ≥ 6 then
    let fraction := digits.drop 1
    digits.take 1 ++ (if fraction.isEmpty then [] else '.' :: fraction) ++ exponentText leading
  else pointText digits whole

/-- The shortest decimal of a finite number, its digits laid out by `layout`. -/
def finiteText (layout : List Char → Int → List Char) (number : Binary64) : List Char :=
  if number.magnitude = 0 then ['0']
  else
    let decimal := number.shortest
    let digits := Nat.toDigits 10 decimal.digits
    layout (trimZeros digits) (decimal.power + digits.length)

def signText (number : Binary64) : List Char :=
  if number.isSigned then ['-'] else []

/-- The text of a number as a literal: the shortest decimal, with a point or an
exponent that tells it from an integer. Infinity is written as a decimal beyond
the format. -/
def literalText (number : Binary64) : String :=
  let body := if number.isInfinite then "1e999".toList else finiteText decimalText number
  let marked := body.any fun char => char == '.' || char == 'e'
  String.ofList (number.signText ++ body ++ (if marked then [] else ['.', '0']))

end Unsugar.Binary64
