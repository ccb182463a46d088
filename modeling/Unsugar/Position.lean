/-! Places in source text. Lines and columns count from one, and a column counts
characters. Trees that no source wrote have unknown positions. -/

namespace Unsugar

inductive Position where
  | unknown
  | at (file : String) (line column : Nat)
  deriving DecidableEq

namespace Position

def isKnown : Position → Bool
  | unknown => false
  | .at .. => true

/-- The line number, or zero when it is unknown. -/
def line : Position → Nat
  | unknown => 0
  | .at _ line _ => line

def column : Position → Nat
  | unknown => 0
  | .at _ _ column => column

/-- The position just past a text that begins here. -/
def advance : Position → List Char → Position
  | unknown, _ => unknown
  | position, [] => position
  | .at file line _, '\n' :: rest => advance (.at file (line + 1) 1) rest
  | .at file line column, _ :: rest => advance (.at file line (column + 1)) rest

/-- The position just past a string that begins here. -/
def past (position : Position) (text : String) : Position :=
  position.advance text.toList

/-- A position as messages begin with it. -/
def label : Position → String
  | unknown => "<invalid>"
  | .at file line column =>
    if line = 0 then file
    else if column = 0 then file ++ ":" ++ toString line
    else file ++ ":" ++ toString line ++ ":" ++ toString column

end Position
end Unsugar
