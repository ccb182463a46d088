import Mathlib.Logic.Function.Basic
import Unsugar.Lowering.Function
import Unsugar.Proofs.Grammar.WellFormed
import Unsugar.Tree.Shape

/-! What expressions and the statements made from them mean. What a call or an
operator does, and whether a value counts as true, is up to a runtime, which may answer
or raise an error and bind user names anew each time it is asked. A run keeps the history
of what was asked, so two programs mean the same if they ask for the same operations with
the same operands in the same order, and end alike. -/

namespace Unsugar

/-! ## Operations -/

/-- What a program can ask for. The operands of a call are the callee and the
arguments; a member is named by a text. -/
inductive Operation where
  /-- A call, with the keyword of each argument that has one. -/
  | call (labels : List (Option String))
  | member
  | item
  | slice
  | binary (op : BinaryOp)
  | unary (op : UnaryOp)
  | compare (op : CompareOp)
  | list
  | set
  /-- A dictionary of pairs. -/
  | dict
  | convert (conversion : Conversion)
  | format
  /-- A test whether a value counts as true. -/
  | truth
  deriving DecidableEq

/-- The operation that a function of the support module does. -/
def supportOperation? : String → Option Operation
  | "add" => some (.binary .add)
  | "sub" => some (.binary .subtract)
  | "mul" => some (.binary .multiply)
  | "truediv" => some (.binary .divide)
  | "floordiv" => some (.binary .floorDivide)
  | "mod" => some (.binary .modulo)
  | "and_" => some (.binary .bitAnd)
  | "or_" => some (.binary .bitOr)
  | "xor" => some (.binary .bitXor)
  | "lshift" => some (.binary .shiftLeft)
  | "rshift" => some (.binary .shiftRight)
  | "matmul" => some (.binary .matrixMultiply)
  | "pow" => some (.binary .power)
  | "neg" => some (.unary .minus)
  | "pos" => some (.unary .plus)
  | "invert" => some (.unary .invert)
  | "not_" => some (.unary .not)
  | "lt" => some (.compare .less)
  | "gt" => some (.compare .greater)
  | "le" => some (.compare .lessEqual)
  | "ge" => some (.compare .greaterEqual)
  | "eq" => some (.compare .equal)
  | "ne" => some (.compare .notEqual)
  | "is_" => some (.compare .is)
  | "is_not" => some (.compare .isNot)
  | "getattr" => some .member
  | "getitem" => some .item
  | "slice" => some .slice
  | _ => none

/-- The operation that a builtin of the support module does. -/
def builtinOperation? : String → Option Operation
  | "repr" => some (.convert .repr)
  | "str" => some (.convert .str)
  | "ascii" => some (.convert .ascii)
  | "format" => some .format
  | _ => none

namespace Expr

/-- The operation that a callee does, if it is a function of the support module. -/
def operation? : Expr → Option Operation
  | member (.name _ id) _ function =>
    if id == supportModule then supportOperation? function else none
  | member (member (.name _ id) _ inner) _ function =>
    if id == supportModule && inner == "builtins" then builtinOperation? function else none
  | _ => none

/-- The keyword of an argument. -/
def label? : Expr → Option String
  | keyword _ id _ => some id
  | _ => none

/-- The text of a formatted string that has no parts to put together. -/
def onlyText? : List Expr → Option String
  | [] => some ""
  | [literal _ _ (.text value)] => some value
  | _ => none

end Expr

theorem supportOperation?_binary (op : BinaryOp) :
    supportOperation? op.function = some (.binary op) := by
  cases op <;> rfl

theorem supportOperation?_unary (op : UnaryOp) :
    supportOperation? op.function = some (.unary op) := by
  cases op <;> rfl

theorem supportOperation?_compare {op : CompareOp} (notIn : op ≠ .isIn ∧ op ≠ .notIn) :
    supportOperation? op.function = some (.compare op) := by
  cases op <;> first | rfl | simp at notIn

theorem builtinOperation?_convert (conversion : Conversion) :
    builtinOperation? conversion.function = some (.convert conversion) := by
  cases conversion <;> rfl

/-! ## Runs -/

structure Event (Value : Type) where
  operation : Operation
  operands : List Value

/-- What a user can observe: the operations so far, and the user names. -/
structure World (Value : Type) where
  history : List (Event Value)
  names : String → Option Value

/-- The names of generated code are apart from those of users. -/
structure State (Value : Type) where
  world : World Value
  temporaries : String → Option Value

namespace State

variable {Value : Type}

def lookup (state : State Value) (name : String) : Option Value :=
  if isReserved name then state.temporaries name else state.world.names name

def put (state : State Value) (name : String) (value : Value) : State Value :=
  if isReserved name then
    { state with temporaries := Function.update state.temporaries name (some value) }
  else
    { state with world.names := Function.update state.world.names name (some value) }

end State

/-- Why a run ends without a value. -/
inductive Stop (Error : Type) where
  | raised (error : Error)
  | unbound (name : String)
  /-- The tree is outside the part of the language that has a meaning here. -/
  | meaningless

abbrev Run (Value Error : Type) := ExceptT (Stop Error) (StateM (State Value))

/-- How operations are answered. The answer may depend on all that was asked
before, and on the user names. -/
structure Runtime (Value Error : Type) where
  constant : Constant → Value
  tuple : List Value → Value
  /-- The method of the empty text that puts texts together. -/
  joiner : Value
  /-- The operations whose value is fixed, so that no one sees them done. -/
  known? : Operation → List Value → Option Value
  /-- The answer to an operation, and the user names after it. -/
  respond : World Value → Operation → List Value → Except Error Value × (String → Option Value)
  /-- Whether a value counts as true, and the user names after it was tested. -/
  truth : World Value → Value → Except Error Bool × (String → Option Value)
  /-- The values whose tests no one sees: they bind no name, and a second one gives the same
  answer. -/
  isQuiet : Value → Bool
  known_join : known? .member [constant (.text ""), constant (.text "join")] = some joiner
  known_minus : ∀ {number opposite : Constant}, number.negated? = some opposite →
    known? (.unary .minus) [constant number] = some (constant opposite)
  truth_boolean : ∀ world value, (truth world (constant (.boolean value))).1 = .ok value
  isQuiet_boolean : ∀ value, isQuiet (constant (.boolean value)) = true
  /-- The lowered form of a chain tests a comparison that does not hold once more for each one
  after the next, so what comparisons give is tested without being seen. -/
  isQuiet_known : ∀ {op : CompareOp} {operands : List Value} {value : Value},
    known? (.compare op) operands = some value → isQuiet value = true
  isQuiet_respond : ∀ {world : World Value} {op : CompareOp} {operands : List Value}
    {value : Value}, (respond world (.compare op) operands).1 = .ok value → isQuiet value = true

namespace Runtime

variable {Value Error : Type} (runtime : Runtime Value Error)

def load (name : String) : Run Value Error Value := do
  match (← get).lookup name with
  | some value => return value
  | none => throw (.unbound name)

def store (name : String) (value : Value) : Run Value Error Unit :=
  modify (·.put name value)

/-- The world after a value is tested. -/
def tested (world : World Value) (value : Value) : World Value :=
  if runtime.isQuiet value then world
  else ⟨world.history ++ [⟨.truth, [value]⟩], (runtime.truth world value).2⟩

/-- Whether a value counts as true. -/
def test (value : Value) : Run Value Error Bool := do
  let world := (← get).world
  modify ({ · with world := runtime.tested world value })
  match (runtime.truth world value).1 with
  | .ok holds => return holds
  | .error error => throw (.raised error)

/-- Asks for an operation. -/
def ask (operation : Operation) (operands : List Value) : Run Value Error Value := do
  let world := (← get).world
  let (answer, names) := runtime.respond world operation operands
  modify ({ · with world := ⟨world.history ++ [⟨operation, operands⟩], names⟩ })
  match answer with
  | .ok value => return value
  | .error error => throw (.raised error)

/-- The value of an operation. -/
def perform : Operation → List Value → Run Value Error Value
  | .unary .not, [value] => do return runtime.constant (.boolean !(← runtime.test value))
  | operation, operands =>
    match runtime.known? operation operands with
    | some value => return value
    | none => runtime.ask operation operands

mutual

/-- The value of an expression. Operands are evaluated from left to right, and the
second operand of a short circuit or a later one of a chain of comparisons only if
it is needed. An entry of a dictionary counts as a pair. -/
def eval : Expr → Run Value Error Value
  | .name _ id => load id
  | .literal _ _ value => return runtime.constant value
  | .fstring _ _ parts =>
    match Expr.onlyText? parts with
    | some text => return runtime.constant (.text text)
    | none => do
      let values ← evalAll parts
      runtime.perform (.call [none]) [runtime.joiner, runtime.tuple values]
  | .field _ value conversion spec => do
    let value ← eval value
    let converted ← match conversion with
      | none => pure value
      | some conversion => runtime.perform (.convert conversion) [value]
    let spec ← evalSpec spec
    runtime.perform .format (converted :: spec)
  | .call callee arguments _ =>
    match callee.operation? with
    | some operation => do runtime.perform operation (← evalAll arguments)
    | none => do
      let function ← eval callee
      let values ← evalAll arguments
      runtime.perform (.call (arguments.map Expr.label?)) (function :: values)
  | .keyword _ _ value => eval value
  | .member object _ id => do
    let object ← eval object
    runtime.perform .member [object, runtime.constant (.text id)]
  | .subscript object key _ => do
    let object ← eval object
    let key ← eval key
    runtime.perform .item [object, key]
  | .slice _ first last step => do
    let first ← evalOrAbsent first
    let last ← evalOrAbsent last
    let step ← evalOrAbsent step
    runtime.perform .slice [first, last, step]
  | .binary left _ op right => do
    let left ← eval left
    let right ← eval right
    runtime.perform (.binary op) [left, right]
  | .logical left _ op right => do
    let left ← eval left
    let holds ← runtime.test left
    match op, holds with
    | .and, true | .or, false => eval right
    | .and, false | .or, true => return left
  | .compare left ops rights => do
    let left ← eval left
    evalChain left ops rights
  | .unary _ op operand => do
    let operand ← eval operand
    runtime.perform (.unary op) [operand]
  | .conditional test whenTrue whenFalse => do
    let test ← eval test
    if ← runtime.test test then eval whenTrue else eval whenFalse
  | .list _ items _ => do runtime.perform .list (← evalAll items)
  | .tuple _ items _ => do return runtime.tuple (← evalAll items)
  | .set _ items _ => do runtime.perform .set (← evalAll items)
  | .dict _ items _ => do runtime.perform .dict (← evalAll items)
  | .entry key value => do
    let key ← eval key
    let value ← eval value
    return runtime.tuple [key, value]
  | .named target value => do
    let value ← eval value
    store target.name value
    return value
  | .starred .. | .lambda .. | .comprehension .. | .yield .. => throw .meaningless

def evalAll : List Expr → Run Value Error (List Value)
  | [] => return []
  | first :: rest => do
    let value ← eval first
    let values ← evalAll rest
    return value :: values

/-- The value of an expression that is `None` where it is left out. -/
def evalOrAbsent : Option Expr → Run Value Error Value
  | none => return runtime.constant .none
  | some value => eval value

/-- The format of a replacement field, if it has one. -/
def evalSpec : Option Expr → Run Value Error (List Value)
  | none => return []
  | some spec => do return [← eval spec]

/-- The comparisons of `left` and the operands after it. They end at the first one
that does not hold. -/
def evalChain (left : Value) : List CompareOp → List Expr → Run Value Error Value
  | [op], [right] => do
    let right ← eval right
    runtime.perform (.compare op) [left, right]
  | op :: ops, right :: rights => do
    let right ← eval right
    let result ← runtime.perform (.compare op) [left, right]
    if ← runtime.test result then evalChain right ops rights else return result
  | _, _ => throw .meaningless

end

mutual

/-- Runs a statement that lowering an expression sets aside. -/
def exec : Stmt → Run Value Error Unit
  | .assign [.name _ id] value => do store id (← runtime.eval value)
  | .conditional _ test body _ orelse => do
    let test ← runtime.eval test
    if ← runtime.test test then execAll body else execAll orelse
  | _ => throw .meaningless

def execAll : List Stmt → Run Value Error Unit
  | [] => return
  | first :: rest => do
    exec first
    execAll rest

end

end Runtime

/-! ## Simple expressions -/

namespace Expr

mutual

/-- Whether an expression is made of user names, literals, attributes, calls,
subscripts, slices, operators, comparisons other than membership tests, short
circuits, conditional and assignment expressions, displays without unpacking and
formatted strings. -/
def isSimple : Expr → Bool
  | .name _ id => !isReserved id
  | literal .. => true
  | fstring _ _ parts => parts.all isPart && areSimple parts
  | field _ value _ spec => isSimple value && isSimpleOption spec
  | call callee arguments _ => isSimple callee && areSimple arguments
  | keyword _ _ value => isSimple value
  | member object _ _ => isSimple object
  | subscript object key _ => isSimple object && isSimple key
  | slice _ lower upper step =>
    isSimpleOption lower && isSimpleOption upper && isSimpleOption step
  | binary left _ _ right => isSimple left && isSimple right
  | logical left _ _ right => isSimple left && isSimple right
  | compare left ops rights =>
    isSimple left && ops.all (fun op => op != .isIn && op != .notIn) && !ops.isEmpty &&
      ops.length == rights.length && areSimple rights
  | unary _ _ operand => isSimple operand
  | conditional test whenTrue whenFalse =>
    isSimple test && isSimple whenTrue && isSimple whenFalse
  | list _ items _ => areSimple items
  | tuple _ items _ => areSimple items
  | set _ items _ => areSimple items
  | dict _ items _ => areSimple items
  | entry key value => isSimple key && isSimple value
  | named target value => !isReserved target.name && isSimple value
  | starred .. | lambda .. | comprehension .. | yield .. => false

def isSimpleOption : Option Expr → Bool
  | none => true
  | some value => isSimple value

def areSimple : List Expr → Bool
  | [] => true
  | first :: rest => isSimple first && areSimple rest

end

end Expr
end Unsugar
