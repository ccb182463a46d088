import Unsugar.Setting
import Unsugar.Text.Base64
import Unsugar.Token.Numeral

/-! What a word of a configuration file stands for. Words of a fixed list are truth
values and the missing value, numerals are numbers, dates are moments, and
everything else stands for itself. A tag says what a word has to stand for. -/

namespace Unsugar.Setting

/-- The words that do not stand for themselves. -/
def ofWord? (word : String) : Option Setting :=
  if ["", "~", "null", "Null", "NULL"].contains word then some missing
  else if ["true", "True", "TRUE"].contains word then some (truth true)
  else if ["false", "False", "FALSE"].contains word then some (truth false)
  else if [".nan", ".NaN", ".NAN"].contains word then some (decimal ⟨0x7FF8000000000001⟩)
  else if [".inf", ".Inf", ".INF", "+.inf", "+.Inf", "+.INF"].contains word then
    some (decimal .infinity)
  else if ["-.inf", "-.Inf", "-.INF"].contains word then some (decimal Binary64.infinity.negate)
  else none

/-! ## Numbers -/

/-- Whether characters are a sign-free exponent: nothing, or a mark, an optional
sign and digits. -/
def isExponent : List Char → Bool
  | [] => true
  | mark :: rest =>
    let digits := (Text.splitSign rest).2
    Numeral.isExponentMark mark && !digits.isEmpty && digits.all Char.isDigit

/-- Whether a numeral without its sign is a decimal: digits with or without a
point, at least one of them, and an optional exponent. -/
def isDecimal (numeral : List Char) : Bool :=
  let whole := numeral.takeWhile Char.isDigit
  match numeral.drop whole.length with
  | '.' :: rest =>
    let fraction := rest.takeWhile Char.isDigit
    !(whole.isEmpty && fraction.isEmpty) && isExponent (rest.drop fraction.length)
  | rest => !whole.isEmpty && isExponent rest

/-- The number that a decimal with or without a sign denotes, if it is finite. -/
def decimal? (chars : List Char) : Option Binary64 :=
  let (negative, numeral) := Text.splitSign chars
  if isDecimal numeral then
    match Numeral.decimalValue? numeral with
    | some value =>
      if value.isInfinite then none else some (if negative then value.negate else value)
    | none => none
  else none

/-- Whether each underscore stands between digits. `afterDigit` tells whether a
digit stands before the characters. -/
def separatesDigits (afterDigit : Bool) : List Char → Bool
  | [] => true
  | '_' :: rest => afterDigit && rest.head?.any Char.isDigit && separatesDigits false rest
  | char :: rest => separatesDigits char.isDigit rest

/-- The number that a numeral with a point in front denotes. -/
def fraction? (chars : List Char) : Option Binary64 :=
  if separatesDigits false chars then decimal? (chars.filter (· != '_')) else none

/-- The integer after the mark of its base, where it may have a sign. -/
def signedAfterMark? : List Char → Option Int
  | '0' :: mark :: rest => do
    let base ← if mark == 'b' then some 2 else if mark == 'o' then some 8 else none
    let (negative, digits) := Text.splitSign rest
    if digits.isEmpty then none
    else match Text.digitsValue base 0 digits with
      | .ok magnitude => Text.signedWord? negative magnitude
      | .error _ => none
  | _ => none

/-- The number that a numeral denotes. Underscores do not count. -/
def number? (chars : List Char) : Option Setting :=
  let plain := chars.filter (· != '_')
  match Text.integer plain, Text.unsignedInteger plain with
  | .ok value, _ => some (integer value)
  | .error _, .ok value => some (integer value)
  | .error _, .error _ =>
    match decimal? plain with
    | some value => some (decimal value)
    | none => (signedAfterMark? plain).map integer

/-! ## Words -/

/-- The moment that a word denotes. Its year has exactly four digits. -/
def moment? (chars : List Char) : Option Moment :=
  if (chars.takeWhile Char.isDigit).length = 4 then Moment.ofChars? chars else none

/-- What a bare word stands for, moments apart. -/
def ofBareWord (chars : List Char) : Setting :=
  match ofWord? (String.ofList chars) with
  | some setting => setting
  | none =>
    let number := match chars with
      | char :: _ =>
        if char.isDigit || char == '+' || char == '-' then number? chars
        else if char == '.' then (fraction? chars).map decimal
        else none
      | [] => none
    number.getD (text (String.ofList chars))

/-- What a bare word stands for. -/
def ofBare (chars : List Char) : Setting :=
  match moment? chars with
  | some value => moment value
  | none => ofBareWord chars

/-- Whether a setting is a text of characters. -/
def isText : Setting → Bool
  | text _ => true
  | _ => false

/-- The text of bytes, if they are one of characters. -/
def ofBytes (value : List UInt8) : Setting :=
  let isChar (piece : Text.Piece) : Bool := piece matches .char _
  if (Text.pieces value).all isChar then text (Text.ofBytes value) else bytes value

/-! ## Tags -/

/-- What a word stands for that has a tag, if it is what the tag says. Tags that
are not known leave a word what it is. -/
def ofTagged? (tag : String) (content : String) : Option Setting :=
  let chars := content.toList
  match tag, ofBareWord chars with
  | "!!binary", _ =>
    (Text.unbase64? (chars.filter fun char => char != '\n' && char != '\r')).map ofBytes
  | "!!timestamp", _ => (moment? chars).map moment
  | "!!int", integer value => some (integer value)
  | "!!float", decimal value => some (decimal value)
  | "!!float", integer value =>
    let number := Binary64.ofDecimal value.natAbs 0
    some (decimal (if value < 0 then number.negate else number))
  | "!!bool", truth value => some (truth value)
  | "!!null", missing => some missing
  | "!!int", _ | "!!float", _ | "!!bool", _ | "!!null", _ => none
  | _, _ => some (text content)

/-- What a single value stands for. Without a tag, only bare words stand for
anything but themselves. -/
def ofScalar? (tag : Option String) (bare : Bool) (content : String) : Option Setting :=
  match tag with
  | some tag => ofTagged? tag content
  | none => some (if bare then ofBare content.toList else text content)

end Unsugar.Setting
