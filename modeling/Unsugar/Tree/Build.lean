import Unsugar.Tree.Basic

/-! The trees that generated code is made of. They have no positions. Generated
code calls the functions of one support module, `__dp__`. -/

namespace Unsugar

/-- The name of the support module. -/
def supportModule : String := "__dp__"

namespace Expr

def ofName (name : String) : Expr :=
  .name .unknown name

def ofText (value : String) : Expr :=
  literal .unknown "" (.text value)

def ofBool (value : Bool) : Expr :=
  literal .unknown "" (.boolean value)

def ofNat (value : Nat) : Expr :=
  literal .unknown "" (.integer value)

/-- The literal `None`. -/
def absent : Expr :=
  literal .unknown "" .none

def attributeOf (object : Expr) (id : String) : Expr :=
  member object .unknown id

/-- A member of the support module. -/
def support (id : String) : Expr :=
  attributeOf (ofName supportModule) id

/-- A builtin, reached through the support module. -/
def builtin (id : String) : Expr :=
  attributeOf (support "builtins") id

def apply (callee : Expr) (arguments : List Expr) : Expr :=
  call callee arguments .unknown

/-- A call of a function of the support module. -/
def supportCall (id : String) (arguments : List Expr) : Expr :=
  apply (support id) arguments

def tupleOf (items : List Expr) : Expr :=
  tuple .unknown items .unknown

def listOf (items : List Expr) : Expr :=
  list .unknown items .unknown

def dictOf (items : List Expr) : Expr :=
  dict .unknown items .unknown

/-- The call that gives the globals of a module. -/
def globals : Expr :=
  apply (ofName "globals") []

end Expr

namespace Stmt

/-- An assignment to a name. -/
def store (name : String) (value : Expr) : Stmt :=
  assign [.ofName name] value

/-- The deletion of a name. -/
def drop (name : String) : Stmt :=
  delete .unknown [.ofName name]

/-- A call of a function of the support module, for its effect. -/
def perform (id : String) (arguments : List Expr) : Stmt :=
  expression (.supportCall id arguments)

/-- A generated `pass`; its position tells it from a written one. -/
def pass : Stmt :=
  branch .unknown .pass

/-- A conditional that no source wrote. -/
def choose (test : Expr) (body orelse : List Stmt) : Stmt :=
  conditional .unknown test body .unknown orelse

/-- The statements of a body that must not be empty. -/
def orPass (body : List Stmt) : List Stmt :=
  if body.isEmpty then [pass] else body

end Stmt
end Unsugar
