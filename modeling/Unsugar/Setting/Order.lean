import Unsugar.Setting
import Unsugar.Text.Digit
import Unsugar.Text.Letter

/-! The order in which the entries of a table are printed. -/

namespace Unsugar.Setting

/-! ## Texts -/

/-- The digits at the front, and the number they write after `value`. Numbers are
those of a 64-bit word. -/
def leadingNumber (value : Int64) : List Char → Int64 × Nat
  | [] => (value, 0)
  | char :: rest =>
    if Text.isDigit char then
      let (total, count) := leadingNumber (value * 10 + .ofNat (char.toNat - 0x30)) rest
      (total, count + 1)
    else (value, 0)

/-- Whether texts that differ from here on are in order. `digits` are the digits
right before, the last one first. Numbers in texts are compared by value, and a
letter goes after what is none, unless a digit stands before both. -/
def isTextBeforeFrom (digits : List Char) : List Char → List Char → Bool
  | left :: lefts, right :: rights =>
    if left = right then
      isTextBeforeFrom (if Text.isDigit left then left :: digits else []) lefts rights
    else if Text.isLetter left && Text.isLetter right then left.toNat < right.toNat
    else if Text.isLetter left || Text.isLetter right then
      if digits.isEmpty then Text.isLetter right else Text.isLetter left
    else
      let start :=
        if (left == '0' || right == '0') && digits.any (· != '0') then 1 else 0
      let (leftValue, leftCount) := leadingNumber start (left :: lefts)
      let (rightValue, rightCount) := leadingNumber start (right :: rights)
      if leftValue ≠ rightValue then leftValue < rightValue
      else if leftCount ≠ rightCount then leftCount < rightCount
      else left.toNat < right.toNat
  | [], _ :: _ => true
  | _, [] => false

/-! ## Values -/

/-- The number of a truth value or a number, such that greater numbers have
greater ones. -/
def rank? : Setting → Option Int
  | truth value => some (rankOf (Binary64.ofDecimal value.toNat 0))
  | integer value =>
    let rank := rankOf (Binary64.ofDecimal value.natAbs 0)
    some (if value < 0 then -rank else rank)
  | decimal value => some (rankOf value)
  | _ => none
where
  rankOf (number : Binary64) : Int :=
    if number.isSigned then -number.magnitude else number.magnitude

/-- The place of a kind of values among the others. -/
def kindRank : Setting → Nat
  | truth _ => 0
  | integer value => if value < Nat.pow 2 63 then 1 else 2
  | decimal _ => 3
  | missing => 4
  | text _ | bytes _ => 5
  | _ => 6

/-- Whether an entry is printed before another, given their names. Numbers go by
their value, texts as above, and otherwise the kind counts. -/
def isBefore (left right : Setting) : Bool :=
  match rank? left, rank? right with
  | some leftRank, some rightRank =>
    if leftRank ≠ rightRank then leftRank < rightRank
    else if left.kindRank ≠ right.kindRank then left.kindRank < right.kindRank
    else match left, right with
      | integer left, integer right => left < right
      | _, _ => false
  | _, _ =>
    if left.kindRank = 5 && right.kindRank = 5 then
      isTextBeforeFrom [] left.toText.toList right.toText.toList
    else left.kindRank < right.kindRank

end Unsugar.Setting
