import Unsugar.Binary64
import Unsugar.Operator
import Unsugar.Position

/-! Syntax trees of modules. A tree keeps the positions that spans and messages
are made of. An absent list and an empty one are the same: a loop without an
`else` clause has an empty one. -/

namespace Unsugar

/-- An occurrence of a name. -/
structure Ident where
  position : Position
  name : String
  deriving DecidableEq

/-- The value of a literal. -/
inductive Constant where
  | none
  | ellipsis
  | boolean (value : Bool)
  | integer (value : Int)
  | float (value : Binary64)
  | imaginary (value : Binary64)
  | text (value : String)
  | bytes (value : List UInt8)
  deriving DecidableEq

/-- How a replacement field turns its value into text before formatting it. -/
inductive Conversion where
  | repr
  | str
  | ascii
  deriving DecidableEq

def Conversion.letter : Conversion → Char
  | repr => 'r'
  | str => 's'
  | ascii => 'a'

inductive ComprehensionKind where
  | list
  | set
  | dict
  | generator
  deriving DecidableEq

/-- The name of a kind of comprehension; functions made from one are called so. -/
def ComprehensionKind.text : ComprehensionKind → String
  | list => "listcomp"
  | set => "setcomp"
  | dict => "dictcomp"
  | generator => "genexpr"

inductive ParamKind where
  | normal
  | star
  | doubleStar
  /-- The mark after the positional-only parameters. -/
  | slash
  deriving DecidableEq

mutual

inductive Expr where
  | name (position : Position) (id : String)
  /-- A constant, and the text it was written as; the text may be empty. -/
  | literal (position : Position) (raw : String) (value : Constant)
  /-- A formatted string of text literals and replacement fields. -/
  | fstring (position : Position) (raw : String) (parts : List Expr)
  | field (position : Position) (value : Expr) (conversion : Option Conversion)
      (spec : Option Expr)
  | call (callee : Expr) (arguments : List Expr) (closing : Position)
  | keyword (position : Position) (id : String) (value : Expr)
  | starred (position : Position) (op : StarOp) (value : Expr)
  | member (object : Expr) (position : Position) (id : String)
  | subscript (object key : Expr) (closing : Position)
  | slice (position : Position) (lower upper step : Option Expr)
  | binary (left : Expr) (position : Position) (op : BinaryOp) (right : Expr)
  | logical (left : Expr) (position : Position) (op : LogicalOp) (right : Expr)
  /-- A chain of comparisons: as many operators as right operands. -/
  | compare (left : Expr) (ops : List CompareOp) (rights : List Expr)
  | unary (position : Position) (op : UnaryOp) (operand : Expr)
  | conditional (test whenTrue whenFalse : Expr)
  | lambda (position : Position) (params : List Param) (body : Expr)
  | list (opening : Position) (items : List Expr) (closing : Position)
  /-- A tuple; the opening position is unknown when it has no parentheses. -/
  | tuple (opening : Position) (items : List Expr) (closing : Position)
  | set (opening : Position) (items : List Expr) (closing : Position)
  | dict (opening : Position) (items : List Expr) (closing : Position)
  /-- A key and its value, in a dictionary or its comprehension. -/
  | entry (key value : Expr)
  | comprehension (kind : ComprehensionKind) (opening : Position) (body : Expr)
      (clauses : List Clause) (closing : Position)
  /-- An assignment expression. -/
  | named (target : Ident) (value : Expr)
  | yield (position : Position) (delegates : Bool) (value : Option Expr)

/-- A parameter of a function; a bare star and a slash have no name. -/
inductive Param where
  | mk (kind : ParamKind) (position : Position) (ident : Option Ident)
      (hint default : Option Expr)

/-- A clause of a comprehension. -/
inductive Clause where
  | loop (position : Position) (target iterable : Expr)
  | filter (position : Position) (test : Expr)

end

/-- A module or member of an import, and the name it gets. -/
structure Alias where
  position : Position
  path : String
  asName : Option Ident

/-- One context manager of a `with` statement and its target. -/
structure WithItem where
  manager : Expr
  target : Option Expr

inductive BranchKind where
  | breakLoop
  | continueLoop
  | pass
  deriving DecidableEq

def BranchKind.text : BranchKind → String
  | breakLoop => "break"
  | continueLoop => "continue"
  | pass => "pass"

/-- The two declarations that place a name in another scope. -/
inductive Declaration where
  | global
  | nonlocal
  deriving DecidableEq

def Declaration.text : Declaration → String
  | global => "global"
  | nonlocal => "nonlocal"

mutual

inductive Stmt where
  | expression (value : Expr)
  /-- One value stored in each target, from left to right. -/
  | assign (targets : List Expr) (value : Expr)
  | augAssign (target : Expr) (op : BinaryOp) (value : Expr)
  | annAssign (target hint : Expr) (value : Option Expr)
  | delete (position : Position) (targets : List Expr)
  | branch (position : Position) (kind : BranchKind)
  | returns (position : Position) (result : Option Expr)
  | raises (position : Position) (exception cause : Option Expr)
  | declare (position : Position) (declaration : Declaration) (names : List Ident)
  | asserts (position : Position) (test : Expr) (message : Option Expr)
  | imports (position : Position) (names : List Alias)
  /-- An import of members; `level` counts the leading dots of the module. -/
  | importFrom (position : Position) (source : String) (level : Nat) (names : List Alias)
      (closing : Position)
  /-- A conditional; `elsePosition` is where its `else` or `elif` stands. -/
  | conditional (position : Position) (test : Expr) (body : List Stmt) (elsePosition : Position)
      (orelse : List Stmt)
  | whileLoop (position : Position) (test : Expr) (body orelse : List Stmt)
  | forLoop (position : Position) (target iterable : Expr) (body orelse : List Stmt)
  | tryBlock (position : Position) (body : List Stmt) (handlers : List Handler)
      (orelse final : List Stmt)
  | withBlock (position : Position) (items : List WithItem) (body : List Stmt)
  | function (decorators : List Expr) (position : Position) (ident : Ident)
      (params : List Param) (result : Option Expr) (body : List Stmt)
  | classDef (decorators : List Expr) (position : Position) (ident : Ident) (bases : List Expr)
      (body : List Stmt)

/-- An exception handler; a bare one has no type. -/
inductive Handler where
  | mk (position : Position) (type : Option Expr) (ident : Option Ident) (body : List Stmt)

end

namespace Param

def kind : Param → ParamKind
  | mk kind .. => kind

def position : Param → Position
  | mk _ position .. => position

def ident : Param → Option Ident
  | mk _ _ ident .. => ident

def hint : Param → Option Expr
  | mk _ _ _ hint _ => hint

def default : Param → Option Expr
  | mk _ _ _ _ default => default

/-- A parameter without its type hint. -/
def withoutHint : Param → Param
  | mk kind position ident _ default => mk kind position ident none default

/-- A parameter that is only a name. -/
def plain (name : String) : Param :=
  mk .normal .unknown (some ⟨.unknown, name⟩) none none

end Param

namespace Handler

def type : Handler → Option Expr
  | mk _ type .. => type

def body : Handler → List Stmt
  | mk _ _ _ body => body

end Handler

/-- The first component of a dotted path. -/
def firstComponent (path : String) : String :=
  String.ofList (path.toList.takeWhile (· != '.'))

/-- The name that an import binds. -/
def Alias.bound (item : Alias) : String :=
  match item.asName with
  | some ident => ident.name
  | none => firstComponent item.path

end Unsugar
