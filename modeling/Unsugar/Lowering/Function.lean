import Unsugar.Operator
import Unsugar.Tree.Basic

/-! The functions of the support module that do the work of operators. -/

namespace Unsugar

def BinaryOp.function : BinaryOp → String
  | add => "add"
  | subtract => "sub"
  | multiply => "mul"
  | matrixMultiply => "matmul"
  | divide => "truediv"
  | floorDivide => "floordiv"
  | modulo => "mod"
  | power => "pow"
  | shiftLeft => "lshift"
  | shiftRight => "rshift"
  | bitOr => "or_"
  | bitXor => "xor"
  | bitAnd => "and_"

/-- The function of an augmented assignment. -/
def BinaryOp.inPlaceFunction : BinaryOp → String
  | add => "iadd"
  | subtract => "isub"
  | multiply => "imul"
  | matrixMultiply => "imatmul"
  | divide => "itruediv"
  | floorDivide => "ifloordiv"
  | modulo => "imod"
  | power => "ipow"
  | shiftLeft => "ilshift"
  | shiftRight => "irshift"
  | bitOr => "ior"
  | bitXor => "ixor"
  | bitAnd => "iand"

def UnaryOp.function : UnaryOp → String
  | minus => "neg"
  | plus => "pos"
  | invert => "invert"
  | not => "not_"

/-- The function of a comparison; a membership test has one that takes its
operands in the other order. -/
def CompareOp.function : CompareOp → String
  | equal => "eq"
  | notEqual => "ne"
  | less => "lt"
  | lessEqual => "le"
  | greater => "gt"
  | greaterEqual => "ge"
  | is => "is_"
  | isNot => "is_not"
  | isIn => "contains"
  | notIn => "contains"

/-- The builtin that a replacement field applies to its value. -/
def Conversion.function : Conversion → String
  | repr => "repr"
  | str => "str"
  | ascii => "ascii"

/-- The constant with the opposite sign, if it is a number. -/
def Constant.negated? : Constant → Option Constant
  | integer value => some (integer (-value))
  | float value => some (float value.negate)
  | imaginary value => some (imaginary value.negate)
  | _ => Option.none

/-- A minus sign put into the number it stands before, if the number has a
written text. -/
def Expr.negated? (position : Position) : UnaryOp → Expr → Option Expr
  | .minus, literal _ raw value =>
    if raw.isEmpty then none
    else value.negated?.map (literal position ("-" ++ raw))
  | _, _ => none

end Unsugar
