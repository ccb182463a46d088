import Unsugar.Grammar.Expression

/-! The grammar of statements. A block goes back to the statement production; the
nesting of blocks is bounded like that of expressions. -/

namespace Unsugar.Grammar

open Unsugar.Parser

/-- Runs a parser that needs the productions of expressions. -/
def withExpressions {α : Type} (parser : Productions → Parser α) : Parser α := do
  parser (productions (← get).bound)

/-- A test. -/
def anyTest : Parser Expr := withExpressions fun self => self .test

/-- A `yield` expression or a list of expressions. -/
def value : Parser Expr := do
  if ← seesWord .yieldWord then withExpressions yieldExpression
  else withExpressions expressionList

/-- Whether the current token ends a small statement. -/
def endsStatement : Parser Bool := do
  return (← sees .endOfFile) || (← sees .newline) || (← seesMark .semicolon)

/-- Names separated by dots. -/
def dottedName : Parser String := do
  repeating (← ident).name fun path => do
    if !(← skipMark .dot) then return none
    return some (path ++ "." ++ (← ident).name)

/-- Items separated by commas, without a comma at the end. -/
def commaSeparated {α : Type} (item : Parser α) : Parser (List α) := do
  let items ← repeating [← item] fun items => do
    if !(← skipMark .comma) then return none
    return some ((← item) :: items)
  return items.reverse

/-- The name given by `as`, if any. -/
def asName : Parser (Option Ident) := do
  if ← skipWord .asWord then some <$> ident else return none

/-! ## Small statements -/

def returnStatement : Parser Stmt := do
  let position ← advance
  if ← endsStatement then return .returns position none
  return .returns position (some (← withExpressions expressionList))

def branchStatement (kind : BranchKind) : Parser Stmt := do
  return .branch (← advance) kind

/-- One target of a deletion. -/
def deletedTarget : Parser Expr := do
  let item ← withExpressions target
  demandNone (targetFault true item)
  return item

def deleteStatement : Parser Stmt := do
  let position ← advance
  let items ← repeating [← deletedTarget] fun items => do
    if !(← skipMark .comma) || (← endsStatement) then return none
    return some ((← deletedTarget) :: items)
  return .delete position items.reverse

def raiseStatement : Parser Stmt := do
  let position ← advance
  if ← endsStatement then return .raises position none none
  let exception ← anyTest
  let cause ← if ← skipWord .fromWord then some <$> anyTest else pure none
  return .raises position (some exception) cause

def declareStatement (declaration : Declaration) : Parser Stmt := do
  let position ← advance
  return .declare position declaration (← commaSeparated ident)

def assertStatement : Parser Stmt := do
  let position ← advance
  let condition ← anyTest
  let message ← if ← skipMark .comma then some <$> anyTest else pure none
  return .asserts position condition message

/-- A module that is imported as a whole. Its position is that of the word after
its path. -/
def importedModule : Parser Alias := do
  let path ← dottedName
  let position := (← get).lexeme.start
  return ⟨position, path, ← asName⟩

def importStatement : Parser Stmt := do
  let position ← advance
  return .imports position (← commaSeparated importedModule)

/-- A member that is imported from a module. -/
def importedMember : Parser Alias := do
  let name ← ident
  return ⟨name.position, name.name, ← asName⟩

/-- The members of an import, possibly in parentheses. -/
def importedMembers (closed : Bool) : Parser (List Alias) := do
  let items ← repeating [← importedMember] fun items => do
    if !(← skipMark .comma) then return none
    if closed && (← seesMark .closeParen) then return none
    return some ((← importedMember) :: items)
  return items.reverse

def importFromStatement : Parser Stmt := do
  let position ← advance
  let level ← repeating 0 fun level => do
    if ← skipMark .dot then return some (level + 1)
    if ← skipMark .ellipsis then return some (level + 3)
    return none
  let source ←
    if ← seesWord .importWord then
      if level = 0 then unexpected .moduleName
      pure ""
    else dottedName
  let _ ← expectWord .importWord
  if ← seesMark (.operator .multiply) then
    return .importFrom position source level [⟨← advance, "*", none⟩] .unknown
  if ← skipMark .openParen then
    let names ← importedMembers true
    return .importFrom position source level names (← expectMark .closeParen)
  return .importFrom position source level (← importedMembers false) .unknown

/-- The targets and the value of an assignment whose first target has been read. -/
def assignment (first : Expr) : Parser Stmt := do
  let (targets, final) ← repeating (([], first) : List Expr × Expr) fun (targets, last) => do
    if !(← skipMark .equals) then return none
    return some (last :: targets, ← value)
  let targets := targets.reverse
  demandNone (targets.findSome? (targetFault false))
  return .assign targets final

def augmentedAssignment (first : Expr) (op : BinaryOp) : Parser Stmt := do
  let _ ← advance
  if !first.isSingleTarget then complainAt first.start (.badAugmentedTarget first.description)
  return .augAssign first op (← value)

def annotatedAssignment (first : Expr) : Parser Stmt := do
  let _ ← advance
  if !first.isSingleTarget then complainAt first.start (.badAnnotatedTarget first.description)
  let hint ← anyTest
  let initial ← if ← skipMark .equals then some <$> value else pure none
  return .annAssign first hint initial

/-- A statement that begins with an expression. -/
def expressionStatement : Parser Stmt := do
  let first ← value
  match ← token with
  | .symbol .equals => assignment first
  | .symbol (.augmented op) => augmentedAssignment first op
  | .symbol .colon => annotatedAssignment first
  | _ => return .expression first

def smallStatement : Parser Stmt := do
  match ← token with
  | .keyword .returnWord => returnStatement
  | .keyword .breakWord => branchStatement .breakLoop
  | .keyword .continueWord => branchStatement .continueLoop
  | .keyword .passWord => branchStatement .pass
  | .keyword .delWord => deleteStatement
  | .keyword .raiseWord => raiseStatement
  | .keyword .globalWord => declareStatement .global
  | .keyword .nonlocalWord => declareStatement .nonlocal
  | .keyword .assertWord => assertStatement
  | .keyword .importWord => importStatement
  | .keyword .fromWord => importFromStatement
  | _ => expressionStatement

/-- Small statements on one line, without its end. -/
def smallStatements : Parser (List Stmt) := do
  let items ← repeating [← smallStatement] fun items => do
    if !(← skipMark .semicolon) then return none
    if (← sees .newline) || (← sees .endOfFile) then return none
    return some ((← smallStatement) :: items)
  return items.reverse

/-- Small statements on one line. The last line of a text needs no end. -/
def line : Parser (List Stmt) := do
  let items ← smallStatements
  if !(← sees .endOfFile) then let _ ← expect .newline
  return items

/-! ## Compound statements -/

/-- The statements after a colon: an indented block, or the rest of the line. -/
def suite (self : Parser (List Stmt)) : Parser (List Stmt) := do
  if !(← sees .newline) then return ← line
  let _ ← advance
  let _ ← expect .indent
  let groups ← repeating ([] : List (List Stmt)) fun groups => do
    if (← sees .outdent) || (← sees .endOfFile) then return none
    return some ((← self) :: groups)
  let _ ← expect .outdent
  return groups.reverse.flatten

/-- A colon and the statements after it. -/
def block (self : Parser (List Stmt)) : Parser (List Stmt) := do
  let _ ← expectMark .colon
  suite self

/-- The statements of an `else` clause, if there is one. -/
def elseBlock (self : Parser (List Stmt)) : Parser (List Stmt) := do
  if ← skipWord .elseWord then block self else return []

/-- A condition and the statements that depend on it. -/
structure Branch where
  position : Position
  test : Expr
  body : List Stmt

def branch (self : Parser (List Stmt)) : Parser Branch := do
  let position ← advance
  let test ← withExpressions namedTest
  return { position, test, body := ← block self }

/-- Nests the branches of a conditional, each in the `else` clause of the one
before it. -/
def nestBranches (elsePosition : Position) (orelse : List Stmt) : Branch → List Branch → Stmt
  | first, [] => .conditional first.position first.test first.body elsePosition orelse
  | first, next :: rest =>
    .conditional first.position first.test first.body next.position
      [nestBranches elsePosition orelse next rest]

def ifStatement (self : Parser (List Stmt)) : Parser Stmt := do
  let first ← branch self
  let others ← repeating ([] : List Branch) fun others => do
    if !(← seesWord .elifWord) then return none
    return some ((← branch self) :: others)
  let (elsePosition, orelse) ←
    if ← seesWord .elseWord then
      let position ← advance
      pure (position, ← block self)
    else pure (.unknown, [])
  return nestBranches elsePosition orelse first others.reverse

def forStatement (self : Parser (List Stmt)) : Parser Stmt := do
  let position ← advance
  let target ← withExpressions loopTarget
  let _ ← expectWord .inWord
  let iterable ← withExpressions expressionList
  let body ← block self
  return .forLoop position target iterable body (← elseBlock self)

def whileStatement (self : Parser (List Stmt)) : Parser Stmt := do
  let position ← advance
  let condition ← withExpressions namedTest
  let body ← block self
  return .whileLoop position condition body (← elseBlock self)

/-- One exception handler. Only the last handler may be bare. -/
def handler (self : Parser (List Stmt)) (afterBare : Bool) : Parser Handler := do
  let position ← advance
  if ← seesMark (.operator .multiply) then complain .unsupportedExceptStar
  let (type, name) ←
    if ← seesMark .colon then pure (none, none)
    else
      let type ← anyTest
      if ← seesMark .comma then complain .unparenthesizedTypes
      pure (some type, ← asName)
  let body ← block self
  if afterBare then complainAt position .bareHandlerNotLast
  return .mk position type name body

/-- Whether the handler read last is bare. -/
def lastIsBare : List Handler → Bool
  | last :: _ => last.type.isNone
  | [] => false

def tryStatement (self : Parser (List Stmt)) : Parser Stmt := do
  let position ← advance
  let body ← block self
  let handlers ← repeating ([] : List Handler) fun handlers => do
    if !(← seesWord .exceptWord) then return none
    return some ((← handler self (lastIsBare handlers)) :: handlers)
  if (← seesWord .elseWord) && handlers.isEmpty then complain .elseWithoutHandler
  let orelse ← elseBlock self
  let closes ← skipWord .finallyWord
  let final ← if closes then block self else pure []
  if handlers.isEmpty && !closes then unexpected .handler
  return .tryBlock position body handlers.reverse orelse final

/-- One context manager. -/
def withItem : Parser WithItem := do
  let manager ← anyTest
  if ← skipWord .asWord then
    let name ← withExpressions target
    demandNone (targetFault false name)
    return ⟨manager, some name⟩
  return ⟨manager, none⟩

def withStatement (self : Parser (List Stmt)) : Parser Stmt := do
  let position ← advance
  let items ← commaSeparated withItem
  return .withBlock position items (← block self)

def functionStatement (self : Parser (List Stmt)) (decorators : List Expr) : Parser Stmt := do
  let position ← advance
  let name ← ident
  let _ ← expectMark .openParen
  let parameters ← withExpressions fun expr => params expr .closeParen true
  let _ ← expectMark .closeParen
  let result ← if ← skipMark .arrow then some <$> anyTest else pure none
  return .function decorators position name parameters result (← block self)

def classStatement (self : Parser (List Stmt)) (decorators : List Expr) : Parser Stmt := do
  let position ← advance
  let name ← ident
  let bases ←
    if ← skipMark .openParen then
      let bases ← withExpressions arguments
      let _ ← expectMark .closeParen
      pure bases
    else pure []
  return .classDef decorators position name bases (← block self)

def decoratedStatement (self : Parser (List Stmt)) : Parser Stmt := do
  let decorators ← repeating ([] : List Expr) fun decorators => do
    if !(← skipMark (.operator .matrixMultiply)) then return none
    let decorator ← withExpressions namedTest
    let _ ← expect .newline
    return some (decorator :: decorators)
  match ← token with
  | .keyword .defWord => functionStatement self decorators.reverse
  | .keyword .classWord => classStatement self decorators.reverse
  | .keyword .asyncWord => complain .unsupportedAsync
  | _ => unexpected .definition

/-! ## Match statements

`match` is an ordinary name unless the words ahead have the shape of a `match`
statement. -/

/-- The words after the colon that ends a header with a subject. -/
def afterHeader? (words : Nat) : Stream Place → Option (Stream Place)
  | .word lexeme after rest =>
    if lexeme.token = .symbol .colon ∧ after.depth = 0 then
      if words = 0 then none else some rest
    else if lexeme.token = .newline then none
    else afterHeader? (words + 1) rest
  | _ => none

/-- The words after the end of a line. -/
def afterNewline? : Stream Place → Option (Stream Place)
  | .word lexeme _ rest => if lexeme.token = .newline then some rest else none
  | _ => none

/-- Whether a stream begins with the given word. -/
def beginsWith (wanted : Token) : Stream Place → Bool
  | .word lexeme .. => lexeme.token == wanted
  | _ => false

/-- Whether an indented `case` follows a header. An interactive text whose lines
after the header are still unread is decided by the header alone. -/
def caseFollows (interactive : Bool) : Stream Place → Bool
  | .word lexeme _ rest =>
    if lexeme.token = .indent then beginsWith (.name "case") rest
    else lexeme.token == .outdent && interactive
  | .last .. => interactive
  | .failed .. => false

/-- The words after the current one. Of an interactive text they are those of the line
that has been read. -/
def wordsAhead (cursor : Cursor) : Stream Place :=
  match cursor.after.live with
  | some scanner =>
    (Stream.ofScanner { scanner with supply := none }).map (Scanner.place false)
  | none => cursor.rest

/-- Whether the current word begins a `match` statement. -/
def matchAhead : Parser Bool := do
  let cursor ← get
  match (afterHeader? 0 (wordsAhead cursor)).bind afterNewline? with
  | some rest => return caseFollows cursor.after.live.isSome rest
  | none => return false

/-! ## Statements -/

/-- A compound statement, or the small statements of one line. -/
def statement (self : Parser (List Stmt)) : Parser (List Stmt) := do
  match ← token with
  | .symbol (.operator .matrixMultiply) => return [← decoratedStatement self]
  | .keyword .defWord => return [← functionStatement self []]
  | .keyword .classWord => return [← classStatement self []]
  | .keyword .ifWord => return [← ifStatement self]
  | .keyword .forWord => return [← forStatement self]
  | .keyword .whileWord => return [← whileStatement self]
  | .keyword .tryWord => return [← tryStatement self]
  | .keyword .withWord => return [← withStatement self]
  | .keyword .asyncWord => complain .unsupportedAsync
  | .name "match" =>
    if ← matchAhead then complain .unsupportedMatch
    line
  | _ => line

/-- Statements nested at most `depth` deep. -/
def statements : (depth : Nat) → Parser (List Stmt)
  | 0 => complain .pastEnd
  | depth + 1 => statement (statements depth)

/-- One statement, or the small statements of one line. -/
def anyStatement : Parser (List Stmt) := do
  statements (← get).bound

end Unsugar.Grammar
