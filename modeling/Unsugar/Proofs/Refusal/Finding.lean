import Unsugar.Desugar

/-! What a module holds that is refused, read off its tree. There are three reasons to
refuse a module. Only what is evaluated counts: the hints of parameters and results, of
the variables of functions and of targets that are no names are dropped, and so are all
hints that are kept as text. -/

namespace Unsugar

inductive Reason where
  /-- A starred target that is no element of a pattern. -/
  | loneStar
  /-- An import of all members of a module. -/
  | starImport
  /-- An assignment expression in a comprehension in the body of a class. -/
  | namedInClass
  deriving DecidableEq

/-- The reason for which a construct is refused; the others are never met. -/
def Construct.reason? : Construct → Option Reason
  | loneStarredTarget => some .loneStar
  | importStarFrom _ => some .starImport
  | namedInClassComprehension => some .namedInClass
  | _ => none

/-- Something that a module may be refused for. Where it is not certain, it is left open
whether the module is. -/
structure Finding where
  reason : Reason
  certain : Bool := true
  deriving DecidableEq

def Finding.doubtful (finding : Finding) : Finding :=
  { finding with certain := false }

/-! ## Assignment expressions -/

namespace Expr

mutual

/-- Whether an expression holds an assignment expression outside of lambdas. -/
def assigns : Expr → Bool
  | .name .. => false
  | literal .. => false
  | fstring _ _ parts => assignsInList parts
  | field _ value _ spec => assigns value || assignsInOption spec
  | call callee arguments _ => assigns callee || assignsInList arguments
  | keyword _ _ value => assigns value
  | starred _ _ value => assigns value
  | member object _ _ => assigns object
  | subscript object key _ => assigns object || assigns key
  | slice _ lower upper step =>
    assignsInOption lower || assignsInOption upper || assignsInOption step
  | binary left _ _ right => assigns left || assigns right
  | logical left _ _ right => assigns left || assigns right
  | compare left _ rights => assigns left || assignsInList rights
  | unary _ _ operand => assigns operand
  | conditional test whenTrue whenFalse => assigns test || assigns whenTrue || assigns whenFalse
  | lambda .. => false
  | list _ items _ => assignsInList items
  | tuple _ items _ => assignsInList items
  | set _ items _ => assignsInList items
  | dict _ items _ => assignsInList items
  | entry key value => assigns key || assigns value
  | comprehension _ _ body clauses _ => assigns body || assignsInClauses clauses
  | named .. => true
  | yield _ _ value => assignsInOption value

def assignsInOption : Option Expr → Bool
  | none => false
  | some value => assigns value

def assignsInList : List Expr → Bool
  | [] => false
  | first :: rest => assigns first || assignsInList rest

def assignsInClauses : List Clause → Bool
  | [] => false
  | .loop _ target iterable :: rest =>
    assigns target || assigns iterable || assignsInClauses rest
  | .filter _ test :: rest => assigns test || assignsInClauses rest

end

end Expr

namespace Clause

/-- Whether a clause holds an assignment expression apart from its target. -/
def assigns : Clause → Bool
  | loop _ _ iterable => iterable.assigns
  | filter _ test => test.assigns

/-- Whether the target of a clause holds an assignment expression. -/
def targetAssigns : Clause → Bool
  | loop _ target _ => target.assigns
  | filter .. => false

end Clause

/-- Whether a comprehension holds an assignment expression apart from its first iterable
and from the targets of its loops. -/
def Expr.comprehensionAssigns (body : Expr) : List Clause → Bool
  | .loop .. :: later => body.assigns || later.any Clause.assigns
  | clauses => body.assigns || clauses.any Clause.assigns

/-- The findings of a comprehension as a whole. It is left open whether an assignment
expression in the target of a loop is refused. -/
def Expr.namedFindings (kind : ScopeKind) (body : Expr) (clauses : List Clause) : List Finding :=
  if kind = .classScope then
    (if body.comprehensionAssigns clauses then [⟨.namedInClass, true⟩] else []) ++
      if clauses.any Clause.targetAssigns then [⟨.namedInClass, false⟩] else []
  else []

/-! ## Expressions and targets -/

namespace Expr

mutual

/-- The findings of an expression that is evaluated in a body of a kind. The parts of a
lambda and of a comprehension that are evaluated later are in a function. -/
def findings (kind : ScopeKind) : Expr → List Finding
  | .name .. => []
  | literal .. => []
  | fstring _ _ parts => findingsOfList kind parts
  | field _ value _ spec => findings kind value ++ findingsOfOption kind spec
  | call callee arguments _ => findings kind callee ++ findingsOfList kind arguments
  | keyword _ _ value => findings kind value
  | starred _ _ value => findings kind value
  | member object _ _ => findings kind object
  | subscript object key _ => findings kind object ++ findings kind key
  | slice _ lower upper step =>
    findingsOfOption kind lower ++ (findingsOfOption kind upper ++ findingsOfOption kind step)
  | binary left _ _ right => findings kind left ++ findings kind right
  | logical left _ _ right => findings kind left ++ findings kind right
  | compare left _ rights => findings kind left ++ findingsOfList kind rights
  | unary _ _ operand => findings kind operand
  | conditional test whenTrue whenFalse =>
    findings kind test ++ (findings kind whenTrue ++ findings kind whenFalse)
  | lambda _ params body => findingsOfDefaults kind params ++ findings .functionScope body
  | list _ items _ => findingsOfList kind items
  | tuple _ items _ => findingsOfList kind items
  | set _ items _ => findingsOfList kind items
  | dict _ items _ => findingsOfList kind items
  | entry key value => findings kind key ++ findings kind value
  | comprehension _ _ body clauses _ =>
    namedFindings kind body clauses ++
      (findingsOfClauses true clauses ++ findings .functionScope body ++
        findingsOfFirst kind clauses)
  | named _ value => findings kind value
  | yield _ _ value => findingsOfOption kind value

/-- The findings of a binding target. -/
def targetFindings (kind : ScopeKind) : Expr → List Finding
  | member object _ _ => findings kind object
  | subscript object key _ => findings kind object ++ findings kind key
  | tuple _ items _ => elementFindings kind items
  | list _ items _ => elementFindings kind items
  | starred _ _ value => ⟨.loneStar, true⟩ :: targetFindings kind value
  | _ => []

/-- The findings of the elements of a pattern, where a target may be starred. -/
def elementFindings (kind : ScopeKind) : List Expr → List Finding
  | [] => []
  | starred _ _ value :: rest => targetFindings kind value ++ elementFindings kind rest
  | first :: rest => targetFindings kind first ++ elementFindings kind rest

def findingsOfOption (kind : ScopeKind) : Option Expr → List Finding
  | none => []
  | some value => findings kind value

def findingsOfList (kind : ScopeKind) : List Expr → List Finding
  | [] => []
  | first :: rest => findings kind first ++ findingsOfList kind rest

/-- The findings of the defaults of parameters. -/
def findingsOfDefaults (kind : ScopeKind) : List Param → List Finding
  | [] => []
  | .mk _ _ _ _ default :: rest => findingsOfOption kind default ++ findingsOfDefaults kind rest

/-- The findings of the clauses of a comprehension. The iterable of the first one is
`given` from outside. -/
def findingsOfClauses (given : Bool) : List Clause → List Finding
  | [] => []
  | .loop _ target iterable :: rest =>
    (if given then [] else findings .functionScope iterable) ++
      (targetFindings .functionScope target ++ findingsOfClauses false rest)
  | .filter _ test :: rest => findings .functionScope test ++ findingsOfClauses false rest

/-- The findings of the iterable that a comprehension is given from outside. -/
def findingsOfFirst (kind : ScopeKind) : List Clause → List Finding
  | .loop _ _ iterable :: _ => findings kind iterable
  | _ => []

end

theorem elementFindings_cons_of_plain {kind : ScopeKind} {first : Expr} {rest : List Expr}
    (plain : Lowering.isStarred first = false) :
    elementFindings kind (first :: rest) =
      first.targetFindings kind ++ elementFindings kind rest := by
  cases first with
  | starred => cases plain
  | _ => rfl

end Expr

/-! ## Statements -/

/-- What matters for the findings of a statement besides the body it stands in. -/
structure Reading where
  importStar : ImportStar
  hintsAsText : Bool

namespace Stmt

/-- The findings of the targets of an assignment or a deletion. -/
def targetFindings (kind : ScopeKind) (targets : List Expr) : List Finding :=
  targets.flatMap (Expr.targetFindings kind)

/-- The findings of the hint of a variable. It is evaluated only where it is recorded. -/
def hintFindings (reading : Reading) (kind : ScopeKind) (hint : Expr) : Expr → List Finding
  | .name .. => if kind = .functionScope || reading.hintsAsText then [] else hint.findings kind
  | _ => []

/-- The findings of the managers and targets of a `with` statement. -/
def managerFindings (kind : ScopeKind) (items : List WithItem) : List Finding :=
  items.flatMap fun item =>
    item.manager.findings kind ++ targetFindings kind item.target.toList

mutual

/-- The findings of a statement in a body of a kind. It is left open whether those of a
target that only has a hint are refused. -/
def findings (reading : Reading) (kind : ScopeKind) : Stmt → List Finding
  | expression value => value.findings kind
  | assign targets value => value.findings kind ++ targetFindings kind targets
  | augAssign target _ value => target.targetFindings kind ++ value.findings kind
  | annAssign target hint (some value) =>
    value.findings kind ++ target.targetFindings kind ++ hintFindings reading kind hint target
  | annAssign target hint none =>
    (target.targetFindings kind).map Finding.doubtful ++ hintFindings reading kind hint target
  | delete _ targets => targetFindings kind targets
  | branch .. => []
  | returns _ result => Expr.findingsOfOption kind result
  | raises _ exception cause =>
    Expr.findingsOfOption kind exception ++ Expr.findingsOfOption kind cause
  | declare .. => []
  | asserts _ test message => test.findings kind ++ Expr.findingsOfOption kind message
  | imports .. => []
  | importFrom _ _ _ names _ =>
    if reading.importStar = .refused && names.any (·.path == "*") then [⟨.starImport, true⟩] else []
  | conditional _ test body _ orelse =>
    test.findings kind ++ (findingsOfBody reading kind body ++ findingsOfBody reading kind orelse)
  | whileLoop _ test body orelse =>
    test.findings kind ++ (findingsOfBody reading kind body ++ findingsOfBody reading kind orelse)
  | forLoop _ target iterable body orelse =>
    iterable.findings kind ++ (target.targetFindings kind ++
      (findingsOfBody reading kind body ++ findingsOfBody reading kind orelse))
  | tryBlock _ body handlers orelse final =>
    findingsOfBody reading kind body ++ (findingsOfHandlers reading kind handlers ++
      (findingsOfBody reading kind orelse ++ findingsOfBody reading kind final))
  | withBlock _ items body => managerFindings kind items ++ findingsOfBody reading kind body
  | function decorators _ _ params _ body =>
    Expr.findingsOfList kind decorators ++ (Expr.findingsOfDefaults kind params ++
      findingsOfBody reading .functionScope body)
  | classDef decorators _ _ bases body =>
    Expr.findingsOfList kind decorators ++ (Expr.findingsOfList kind bases ++
      findingsOfBody reading .classScope body)

def findingsOfBody (reading : Reading) (kind : ScopeKind) : List Stmt → List Finding
  | [] => []
  | first :: rest => findings reading kind first ++ findingsOfBody reading kind rest

def findingsOfHandlers (reading : Reading) (kind : ScopeKind) : List Handler → List Finding
  | [] => []
  | .mk _ type _ body :: rest =>
    Expr.findingsOfOption kind type ++ (findingsOfBody reading kind body ++
      findingsOfHandlers reading kind rest)

end

/-- Whether a statement asks that hints are kept as text. -/
def asksForText : Stmt → Bool
  | importFrom _ source level names _ =>
    source == "__future__" && level == 0 && names.any (·.path == "annotations")
  | _ => false

/-- The findings of a module. -/
def moduleFindings (options : Options) (body : List Stmt) : List Finding :=
  findingsOfBody ⟨options.importStar, body.any asksForText⟩ .moduleScope body

end Stmt
end Unsugar
