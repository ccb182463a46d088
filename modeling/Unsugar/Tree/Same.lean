import Unsugar.Tree.Basic

/-! Equality of trees that forgets what a reader of the printed tree does not see:
positions, and how literals were written. -/

namespace Unsugar

/-- Equality of values; the two zeros are one number. -/
def Constant.same : Constant → Constant → Bool
  | float left, float right => left.sameNumber right
  | imaginary left, imaginary right => left.sameNumber right
  | left, right => left == right

def Ident.same (left right : Ident) : Bool :=
  left.name == right.name

def sameOption {α : Type} (same : α → α → Bool) : Option α → Option α → Bool
  | none, none => true
  | some left, some right => same left right
  | _, _ => false

def sameList {α : Type} (same : α → α → Bool) : List α → List α → Bool
  | [], [] => true
  | left :: lefts, right :: rights => same left right && sameList same lefts rights
  | _, _ => false

namespace Expr

mutual

/-- Whether two expressions are the same tree. -/
def same : Expr → Expr → Bool
  | name _ left => fun
    | name _ right => left == right
    | _ => false
  | literal _ _ left => fun
    | literal _ _ right => left.same right
    | _ => false
  | fstring _ _ lefts => fun
    | fstring _ _ rights => sameItems lefts rights
    | _ => false
  | field _ left leftConversion leftSpec => fun
    | field _ right rightConversion rightSpec =>
      same left right && leftConversion == rightConversion && sameOptional leftSpec rightSpec
    | _ => false
  | call left lefts _ => fun
    | call right rights _ => same left right && sameItems lefts rights
    | _ => false
  | keyword _ leftId left => fun
    | keyword _ rightId right => leftId == rightId && same left right
    | _ => false
  | starred _ leftOp left => fun
    | starred _ rightOp right => leftOp == rightOp && same left right
    | _ => false
  | member left _ leftId => fun
    | member right _ rightId => same left right && leftId == rightId
    | _ => false
  | subscript left leftKey _ => fun
    | subscript right rightKey _ => same left right && same leftKey rightKey
    | _ => false
  | slice _ leftLower leftUpper leftStep => fun
    | slice _ rightLower rightUpper rightStep =>
      sameOptional leftLower rightLower && sameOptional leftUpper rightUpper &&
        sameOptional leftStep rightStep
    | _ => false
  | binary left _ leftOp leftRight => fun
    | binary right _ rightOp rightRight =>
      same left right && leftOp == rightOp && same leftRight rightRight
    | _ => false
  | logical left _ leftOp leftRight => fun
    | logical right _ rightOp rightRight =>
      same left right && leftOp == rightOp && same leftRight rightRight
    | _ => false
  | compare left leftOps lefts => fun
    | compare right rightOps rights =>
      same left right && leftOps == rightOps && sameItems lefts rights
    | _ => false
  | unary _ leftOp left => fun
    | unary _ rightOp right => leftOp == rightOp && same left right
    | _ => false
  | conditional leftTest leftTrue leftFalse => fun
    | conditional rightTest rightTrue rightFalse =>
      same leftTest rightTest && same leftTrue rightTrue && same leftFalse rightFalse
    | _ => false
  | lambda _ leftParams left => fun
    | lambda _ rightParams right => sameParams leftParams rightParams && same left right
    | _ => false
  | list _ lefts _ => fun
    | list _ rights _ => sameItems lefts rights
    | _ => false
  | tuple _ lefts _ => fun
    | tuple _ rights _ => sameItems lefts rights
    | _ => false
  | set _ lefts _ => fun
    | set _ rights _ => sameItems lefts rights
    | _ => false
  | dict _ lefts _ => fun
    | dict _ rights _ => sameItems lefts rights
    | _ => false
  | entry leftKey left => fun
    | entry rightKey right => same leftKey rightKey && same left right
    | _ => false
  | comprehension leftKind _ left leftClauses _ => fun
    | comprehension rightKind _ right rightClauses _ =>
      leftKind == rightKind && same left right && sameClauses leftClauses rightClauses
    | _ => false
  | named leftTarget left => fun
    | named rightTarget right => leftTarget.same rightTarget && same left right
    | _ => false
  | yield _ leftDelegates left => fun
    | yield _ rightDelegates right => leftDelegates == rightDelegates && sameOptional left right
    | _ => false
termination_by structural left => left

def sameOptional : Option Expr → Option Expr → Bool
  | none, none => true
  | some left, some right => same left right
  | _, _ => false
termination_by structural left => left

def sameItems : List Expr → List Expr → Bool
  | [], [] => true
  | left :: lefts, right :: rights => same left right && sameItems lefts rights
  | _, _ => false
termination_by structural left => left

def sameParam : Param → Param → Bool
  | .mk leftKind _ left leftHint leftDefault => fun
    | .mk rightKind _ right rightHint rightDefault =>
      leftKind == rightKind && sameOption Ident.same left right &&
        sameOptional leftHint rightHint && sameOptional leftDefault rightDefault
termination_by structural left => left

def sameParams : List Param → List Param → Bool
  | [], [] => true
  | left :: lefts, right :: rights => sameParam left right && sameParams lefts rights
  | _, _ => false
termination_by structural left => left

def sameClause : Clause → Clause → Bool
  | .loop _ leftTarget left => fun
    | .loop _ rightTarget right => same leftTarget rightTarget && same left right
    | _ => false
  | .filter _ left => fun
    | .filter _ right => same left right
    | _ => false
termination_by structural left => left

def sameClauses : List Clause → List Clause → Bool
  | [], [] => true
  | left :: lefts, right :: rights => sameClause left right && sameClauses lefts rights
  | _, _ => false
termination_by structural left => left

end

end Expr

def Alias.same (left right : Alias) : Bool :=
  left.path == right.path && sameOption Ident.same left.asName right.asName

def WithItem.same (left right : WithItem) : Bool :=
  left.manager.same right.manager && Expr.sameOptional left.target right.target

namespace Stmt

mutual

/-- Whether two statements are the same tree. -/
def same : Stmt → Stmt → Bool
  | expression left => fun
    | expression right => left.same right
    | _ => false
  | assign leftTargets left => fun
    | assign rightTargets right => Expr.sameItems leftTargets rightTargets && left.same right
    | _ => false
  | augAssign leftTarget leftOp left => fun
    | augAssign rightTarget rightOp right =>
      leftTarget.same rightTarget && leftOp == rightOp && left.same right
    | _ => false
  | annAssign leftTarget leftHint left => fun
    | annAssign rightTarget rightHint right =>
      leftTarget.same rightTarget && leftHint.same rightHint && Expr.sameOptional left right
    | _ => false
  | delete _ lefts => fun
    | delete _ rights => Expr.sameItems lefts rights
    | _ => false
  | branch _ left => fun
    | branch _ right => left == right
    | _ => false
  | returns _ left => fun
    | returns _ right => Expr.sameOptional left right
    | _ => false
  | raises _ left leftCause => fun
    | raises _ right rightCause =>
      Expr.sameOptional left right && Expr.sameOptional leftCause rightCause
    | _ => false
  | declare _ leftDeclaration lefts => fun
    | declare _ rightDeclaration rights =>
      leftDeclaration == rightDeclaration && sameList Ident.same lefts rights
    | _ => false
  | asserts _ left leftMessage => fun
    | asserts _ right rightMessage =>
      left.same right && Expr.sameOptional leftMessage rightMessage
    | _ => false
  | imports _ lefts => fun
    | imports _ rights => sameList Alias.same lefts rights
    | _ => false
  | importFrom _ leftSource leftLevel lefts _ => fun
    | importFrom _ rightSource rightLevel rights _ =>
      leftSource == rightSource && leftLevel == rightLevel && sameList Alias.same lefts rights
    | _ => false
  | conditional _ leftTest lefts _ leftElse => fun
    | conditional _ rightTest rights _ rightElse =>
      leftTest.same rightTest && sameBody lefts rights && sameBody leftElse rightElse
    | _ => false
  | whileLoop _ leftTest lefts leftElse => fun
    | whileLoop _ rightTest rights rightElse =>
      leftTest.same rightTest && sameBody lefts rights && sameBody leftElse rightElse
    | _ => false
  | forLoop _ leftTarget left lefts leftElse => fun
    | forLoop _ rightTarget right rights rightElse =>
      leftTarget.same rightTarget && left.same right && sameBody lefts rights &&
        sameBody leftElse rightElse
    | _ => false
  | tryBlock _ lefts leftHandlers leftElse leftFinal => fun
    | tryBlock _ rights rightHandlers rightElse rightFinal =>
      sameBody lefts rights && sameHandlers leftHandlers rightHandlers &&
        sameBody leftElse rightElse && sameBody leftFinal rightFinal
    | _ => false
  | withBlock _ leftItems lefts => fun
    | withBlock _ rightItems rights =>
      sameList WithItem.same leftItems rightItems && sameBody lefts rights
    | _ => false
  | function leftDecorators _ left leftParams leftResult lefts => fun
    | function rightDecorators _ right rightParams rightResult rights =>
      Expr.sameItems leftDecorators rightDecorators && left.same right &&
        Expr.sameParams leftParams rightParams && Expr.sameOptional leftResult rightResult &&
        sameBody lefts rights
    | _ => false
  | classDef leftDecorators _ left leftBases lefts => fun
    | classDef rightDecorators _ right rightBases rights =>
      Expr.sameItems leftDecorators rightDecorators && left.same right &&
        Expr.sameItems leftBases rightBases && sameBody lefts rights
    | _ => false

/-- Whether two bodies are the same. -/
def sameBody : List Stmt → List Stmt → Bool
  | [], [] => true
  | left :: lefts, right :: rights => same left right && sameBody lefts rights
  | _, _ => false

def sameHandlers : List Handler → List Handler → Bool
  | [], [] => true
  | .mk _ leftType left leftBody :: lefts, .mk _ rightType right rightBody :: rights =>
    Expr.sameOptional leftType rightType && sameOption Ident.same left right &&
      sameBody leftBody rightBody && sameHandlers lefts rights
  | _, _ => false

end

end Stmt
end Unsugar
