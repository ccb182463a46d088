import Unsugar.Tree.Basic

/-! Where a node begins and ends. The end is the position just past its last
character; a node that was never written has no known span. -/

namespace Unsugar

/-- What a literal without text is called; its span has the length of this. -/
def Constant.kind : Constant → String
  | none => "None"
  | ellipsis => "..."
  | boolean true => "True"
  | boolean false => "False"
  | integer _ => "int literal"
  | float _ => "float literal"
  | imaginary _ => "imaginary literal"
  | text _ => "string literal"
  | bytes _ => "bytes literal"

def Ident.stop (ident : Ident) : Position :=
  ident.position.past ident.name

namespace Expr

mutual

/-- Where an expression begins. -/
def start : Expr → Position
  | name position _ => position
  | literal position .. => position
  | fstring position .. => position
  | field position .. => position
  | call callee .. => callee.start
  | keyword position .. => position
  | starred position .. => position
  | member object .. => object.start
  | subscript object .. => object.start
  | slice position lower _ _ => optionalStart position lower
  | binary left .. => left.start
  | logical left .. => left.start
  | compare left .. => left.start
  | unary position .. => position
  | conditional _ whenTrue _ => whenTrue.start
  | lambda position .. => position
  | list opening .. => opening
  | tuple opening items _ => if opening.isKnown then opening else firstStart items
  | set opening .. => opening
  | dict opening .. => opening
  | entry key _ => key.start
  | comprehension _ opening body .. => if opening.isKnown then opening else body.start
  | named target _ => target.position
  | yield position .. => position

def optionalStart (fallback : Position) : Option Expr → Position
  | none => fallback
  | some value => value.start

def firstStart : List Expr → Position
  | [] => .unknown
  | first :: _ => first.start

end

mutual

/-- The position just past an expression. -/
def stop : Expr → Position
  | name position id => position.past id
  | literal position raw value => position.past (if raw.isEmpty then value.kind else raw)
  | fstring position raw _ => position.past (if raw.isEmpty then "f\"\"" else raw)
  | field _ value .. => value.stop
  | call _ _ closing => closing.past ")"
  | keyword _ _ value => value.stop
  | starred _ _ value => value.stop
  | member _ position id => position.past id
  | subscript _ _ closing => closing.past "]"
  | slice position _ upper step => optionalStop (optionalStop (position.past ":") upper) step
  | binary _ _ _ right => right.stop
  | logical _ _ _ right => right.stop
  | compare _ _ rights => lastStop rights
  | unary _ _ operand => operand.stop
  | conditional _ _ whenFalse => whenFalse.stop
  | lambda _ _ body => body.stop
  | list _ _ closing => closing.past "]"
  | tuple opening items closing => if opening.isKnown then closing.past ")" else lastStop items
  | set _ _ closing => closing.past "\x7d"
  | dict _ _ closing => closing.past "\x7d"
  | entry _ value => value.stop
  | comprehension _ opening _ clauses closing =>
    if opening.isKnown then closing.past "]" else lastClauseStop clauses
  | named _ value => value.stop
  | yield position _ value => optionalStop (position.past "yield") value

def optionalStop (fallback : Position) : Option Expr → Position
  | none => fallback
  | some value => value.stop

def lastStop : List Expr → Position
  | [] => .unknown
  | [last] => last.stop
  | _ :: rest => lastStop rest

def clauseStop : Clause → Position
  | .loop _ _ iterable => iterable.stop
  | .filter _ test => test.stop

def lastClauseStop : List Clause → Position
  | [] => .unknown
  | [last] => clauseStop last
  | _ :: rest => lastClauseStop rest

end

end Expr

namespace Clause

def start : Clause → Position
  | loop position .. => position
  | filter position .. => position

def stop (clause : Clause) : Position := Expr.clauseStop clause

end Clause

namespace Param

def start (param : Param) : Position :=
  match param.kind, param.ident with
  | .normal, some ident => ident.position
  | .normal, none => .unknown
  | _, _ => param.position

def stop (param : Param) : Position :=
  match param.default, param.ident with
  | some value, _ => value.stop
  | none, some ident => ident.stop
  | none, none => param.position.past "*"

end Param

def Alias.stop (item : Alias) : Position :=
  match item.asName with
  | some ident => ident.stop
  | none => item.position.past item.path

/-- Where the last of a list of nodes ends. -/
def stopOfLast {α : Type} (stop : α → Position) (nodes : List α) : Position :=
  (nodes.getLast?.map stop).getD .unknown

namespace Stmt

/-- Where a statement begins; decorators do not count. -/
def start : Stmt → Position
  | expression value => value.start
  | assign targets _ => Expr.firstStart targets
  | augAssign target .. => target.start
  | annAssign target .. => target.start
  | delete position .. => position
  | branch position .. => position
  | returns position .. => position
  | raises position .. => position
  | declare position .. => position
  | asserts position .. => position
  | imports position .. => position
  | importFrom position .. => position
  | conditional position .. => position
  | whileLoop position .. => position
  | forLoop position .. => position
  | tryBlock position .. => position
  | withBlock position .. => position
  | function _ position .. => position
  | classDef _ position .. => position

mutual

/-- The position just past a statement. -/
def stop : Stmt → Position
  | expression value => value.stop
  | assign _ value => value.stop
  | augAssign _ _ value => value.stop
  | annAssign _ hint value => Expr.optionalStop hint.stop value
  | delete position targets =>
    if targets.isEmpty then position.past "del" else Expr.lastStop targets
  | branch position kind => position.past kind.text
  | returns position result => Expr.optionalStop (position.past "return") result
  | raises position exception cause =>
    Expr.optionalStop (Expr.optionalStop (position.past "raise") exception) cause
  | declare _ _ names => stopOfLast Ident.stop names
  | asserts _ test message => Expr.optionalStop test.stop message
  | imports _ names => stopOfLast Alias.stop names
  | importFrom _ _ _ names closing =>
    if closing.isKnown then closing.past ")" else stopOfLast Alias.stop names
  | conditional _ test body _ orelse => bodyStop (bodyStop test.stop body) orelse
  | whileLoop _ test body orelse => bodyStop (bodyStop test.stop body) orelse
  | forLoop _ _ iterable body orelse => bodyStop (bodyStop iterable.stop body) orelse
  | tryBlock _ body handlers orelse final =>
    bodyStop (bodyStop (handlersStop (bodyStop .unknown body) handlers) orelse) final
  | withBlock _ _ body => bodyStop .unknown body
  | function _ _ ident _ _ body => bodyStop ident.stop body
  | classDef _ _ ident _ body => bodyStop ident.stop body

/-- Where a body ends, or a fallback when it is absent. -/
def bodyStop (fallback : Position) : List Stmt → Position
  | [] => fallback
  | [last] => last.stop
  | _ :: rest => bodyStop fallback rest

def handlerStop : Handler → Position
  | .mk _ _ _ body => bodyStop .unknown body

def handlersStop (fallback : Position) : List Handler → Position
  | [] => fallback
  | [last] => handlerStop last
  | _ :: rest => handlersStop fallback rest

end

/-- The start of the first statement and the end of the last. -/
def spanOfBody (body : List Stmt) : Position × Position :=
  ((body.head?.map start).getD .unknown, bodyStop .unknown body)

end Stmt

def Handler.start : Handler → Position
  | mk position .. => position

def Handler.stop (handler : Handler) : Position := Stmt.handlerStop handler

end Unsugar
