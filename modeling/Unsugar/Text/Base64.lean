import Unsugar.Text.Utf8

/-! Bytes written with sixty-four characters, four of them for three bytes. -/

namespace Unsugar.Text

/-- The characters that stand for six bits. -/
def base64Alphabet : List Char :=
  "ABCDEFGHIJKLMNOPQRSTUVWXYZabcdefghijklmnopqrstuvwxyz0123456789+/".toList

def base64Digit (value : Nat) : Char := base64Alphabet.getD (value % 64) 'A'

/-- The text of bytes. Fewer than three of them at the end are filled up. -/
def base64 : List UInt8 → List Char
  | first :: second :: third :: rest =>
    let value := (first.toNat * 256 + second.toNat) * 256 + third.toNat
    base64Digit (value / 262144) :: base64Digit (value / 4096) :: base64Digit (value / 64) ::
      base64Digit value :: base64 rest
  | [first, second] =>
    let value := (first.toNat * 256 + second.toNat) * 4
    [base64Digit (value / 4096), base64Digit (value / 64), base64Digit value, '=']
  | [first] =>
    let value := first.toNat * 16
    [base64Digit (value / 64), base64Digit value, '=', '=']
  | [] => []

def base64Value? (char : Char) : Option Nat := base64Alphabet.idxOf? char

/-- The bytes of a text without line ends. -/
def unbase64? : List Char → Option (List UInt8)
  | [] => some []
  | [first, second, '=', '='] => do
    let value := (← base64Value? first) * 64 + (← base64Value? second)
    return [(value / 16).toUInt8]
  | [first, second, third, '='] => do
    let value := ((← base64Value? first) * 64 + (← base64Value? second)) * 64 +
      (← base64Value? third)
    return [(value / 1024).toUInt8, (value / 4).toUInt8]
  | first :: second :: third :: fourth :: rest => do
    let value := (((← base64Value? first) * 64 + (← base64Value? second)) * 64 +
      (← base64Value? third)) * 64 + (← base64Value? fourth)
    return (value / 65536).toUInt8 :: (value / 256).toUInt8 :: value.toUInt8 ::
      (← unbase64? rest)
  | _ => none

end Unsugar.Text
