/-! The operators of expressions and their spelling. -/

namespace Unsugar

/-- Arithmetic and bitwise operators; each has an augmented assignment. -/
inductive BinaryOp where
  | add
  | subtract
  | multiply
  | divide
  | floorDivide
  | modulo
  | bitAnd
  | bitOr
  | bitXor
  | shiftLeft
  | shiftRight
  | matrixMultiply
  | power
  deriving DecidableEq

/-- Operators that may leave their right operand unevaluated. -/
inductive LogicalOp where
  | and
  | or
  deriving DecidableEq

inductive CompareOp where
  | less
  | greater
  | lessEqual
  | greaterEqual
  | equal
  | notEqual
  | isIn
  | notIn
  | is
  | isNot
  deriving DecidableEq

inductive UnaryOp where
  | plus
  | minus
  | invert
  | not
  deriving DecidableEq

/-- The two marks of an unpacked operand. -/
inductive StarOp where
  | star
  | doubleStar
  deriving DecidableEq

def BinaryOp.text : BinaryOp → String
  | add => "+"
  | subtract => "-"
  | multiply => "*"
  | divide => "/"
  | floorDivide => "//"
  | modulo => "%"
  | bitAnd => "&"
  | bitOr => "|"
  | bitXor => "^"
  | shiftLeft => "<<"
  | shiftRight => ">>"
  | matrixMultiply => "@"
  | power => "**"

def LogicalOp.text : LogicalOp → String
  | and => "and"
  | or => "or"

def CompareOp.text : CompareOp → String
  | less => "<"
  | greater => ">"
  | lessEqual => "<="
  | greaterEqual => ">="
  | equal => "=="
  | notEqual => "!="
  | isIn => "in"
  | notIn => "not in"
  | is => "is"
  | isNot => "is not"

def UnaryOp.text : UnaryOp → String
  | plus => "+"
  | minus => "-"
  | invert => "~"
  | not => "not"

def StarOp.text : StarOp → String
  | star => "*"
  | doubleStar => "**"

end Unsugar
