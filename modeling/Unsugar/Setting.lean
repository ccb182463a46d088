import Unsugar.Binary64.Shortest
import Unsugar.Setting.Moment
import Unsugar.Text.Integer

/-! Values of the configuration. A value comes from a file, from the environment
or from the command line, so its form may be another than its reader hopes for;
the readers below take what they can. -/

namespace Unsugar

inductive Setting where
  | missing
  | truth (value : Bool)
  | integer (value : Int)
  | decimal (value : Binary64)
  | text (value : String)
  /-- A text that is none of characters. -/
  | bytes (value : List UInt8)
  | moment (value : Moment)
  | list (items : List Setting)
  | table (entries : List (String × Setting))
  /-- A table whose names need not be texts. -/
  | mapping (entries : List (Setting × Setting))

namespace Setting

/-- Whether a number is none at all. -/
def isNan (value : Binary64) : Bool := value.magnitude > Binary64.infinity.magnitude

/-- A decimal without an exponent. -/
def positionalText (value : Binary64) : String :=
  if isNan value then "NaN"
  else if value.isInfinite then if value.isSigned then "-Inf" else "+Inf"
  else String.ofList (value.signText ++ value.finiteText Binary64.pointText)

/-- A value as a truth value: numbers other than zero are true, and a word counts
for what it says. -/
def isTrue : Setting → Bool
  | truth value => value
  | integer value => value ≠ 0
  | decimal value => value.magnitude ≠ 0
  | text value => (Text.truthValue? value).getD false
  | _ => false

/-- A value as a text, which is empty if the value is not a single one. -/
def toText : Setting → String
  | truth value => if value then "true" else "false"
  | integer value => toString value
  | decimal value => positionalText value
  | text value => value
  | bytes value => Text.ofBytes value
  | moment value => value.display
  | _ => ""

/-- The integer next to a number toward zero, if a signed word can hold it. -/
def wholePart? (value : Binary64) : Option Int :=
  if value.magnitude ≥ Binary64.infinity.magnitude then none
  else
    let (dividend, divisor) := Binary64.scaled value.significand 1 (-value.exponent)
    Text.signedWord? value.isSigned (dividend / divisor)

/-- A numeral without a point and zeros at its end. -/
def withoutZeros (numeral : List Char) : List Char :=
  let rest := numeral.reverse
  match rest.dropWhile (· == '0') with
  | '.' :: whole => if rest.head? = some '0' then whole.reverse else numeral
  | _ => numeral

/-- A value as a signed word, which is zero if the value is no number. Numbers that
do not fit are taken for the least one. -/
def toWord : Setting → Int64
  | truth value => if value then 1 else 0
  | integer value => .ofInt value
  | decimal value => ((wholePart? value).map .ofInt).getD Int64.minValue
  | text value =>
    match Text.integer (withoutZeros value.toList) with
    | .ok value => .ofInt value
    | .error _ => 0
  | _ => 0

/-- The entries of a table. -/
def entries : Setting → List (String × Setting)
  | table entries => entries
  | _ => []

/-- An association list with a value put in, in place of the one of that name. -/
def put (name : String) (value : Setting) :
    List (String × Setting) → List (String × Setting)
  | [] => [(name, value)]
  | (other, old) :: rest =>
    if other = name then (name, value) :: rest else (other, old) :: put name value rest

/-- The value at a path through tables. -/
def at? : Setting → List String → Option Setting
  | missing, _ => none
  | setting, [] => some setting
  | setting, name :: path => (setting.entries.lookup name).bind (at? · path)

/-- A table with a value put in at a path. What stands in the way of the path is
replaced. -/
def putAt (value : Setting) : (path : List String) → Setting → Setting
  | [], _ => value
  | name :: path, setting =>
    let inner := (setting.entries.lookup name).getD (table [])
    table (put name (putAt value path inner) setting.entries)

end Setting
end Unsugar
