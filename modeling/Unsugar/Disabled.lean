import Unsugar.StringLiteral
import Unsugar.Text.Utf8

/-! Modules that are left as they are. -/

namespace Unsugar

/-- A module whose first line holds this text is left as it is. -/
def disableMarker : String := "diet-python: disabled"

/-- Whether a list of bytes has another somewhere in it. -/
def holdsBytes (wanted : List UInt8) : List UInt8 → Bool
  | [] => wanted.isEmpty
  | first :: rest => wanted.isPrefixOf (first :: rest) || holdsBytes wanted rest

/-- Whether a source is left as it is: its first line asks for it, or an escape in
it stands for a surrogate, which no output can hold. -/
def isDisabled (source : List UInt8) : Bool :=
  let firstLine := source.takeWhile (· != 0x0A)
  holdsBytes (Text.toBytes disableMarker) firstLine || StringLiteral.hasSurrogateEscape source

end Unsugar
