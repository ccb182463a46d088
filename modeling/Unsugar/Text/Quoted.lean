import Unsugar.Text.Printable
namespace Unsugar.Text

/-! Text quoted inside messages. Quoting escapes the delimiter, the backslash
and whatever is not printable, so a quoted text is always one line. -/

/-- The lower-case hexadecimal digit of a number below sixteen. -/
def hexDigit (value : Nat) : Char :=
  if value < 10 then Char.ofNat (0x30 + value) else Char.ofNat (0x57 + value)

/-- The last `width` hexadecimal digits of `value`. -/
def hexDigits : (width value : Nat) → List Char
  | 0, _ => []
  | width + 1, value => hexDigits width (value / 16) ++ [hexDigit (value % 16)]

/-- One character between `delimiter`s. -/
def escapeChar (delimiter char : Char) : List Char :=
  if char == delimiter || char == '\\' then ['\\', char]
  else if isPrintable char then [char]
  else match char.toNat with
    | 0x07 => ['\\', 'a']
    | 0x08 => ['\\', 'b']
    | 0x0C => ['\\', 'f']
    | 0x0A => ['\\', 'n']
    | 0x0D => ['\\', 'r']
    | 0x09 => ['\\', 't']
    | 0x0B => ['\\', 'v']
    | code =>
      if code < 0x20 || code == 0x7F then ['\\', 'x'] ++ hexDigits 2 code
      else if code < 0x10000 then ['\\', 'u'] ++ hexDigits 4 code
      else ['\\', 'U'] ++ hexDigits 8 code

/-- A text in double quotes. -/
def quoted (text : String) : String :=
  String.ofList (['"'] ++ text.toList.flatMap (escapeChar '"') ++ ['"'])

/-- A character in single quotes. -/
def quotedChar (char : Char) : String :=
  String.ofList (['\''] ++ escapeChar '\'' char ++ ['\''])

end Unsugar.Text
