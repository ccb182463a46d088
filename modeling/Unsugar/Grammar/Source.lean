import Unsugar.Grammar.Statement

/-! Reading whole texts. -/

namespace Unsugar

open Unsugar.Parser Grammar

/-- The statements of a module. -/
def moduleBody : Parser (List Stmt) := do
  let groups ← repeating ([] : List (List Stmt)) fun groups => do
    match ← token with
    | .endOfFile => return none
    | .newline =>
      let _ ← advance
      return some groups
    | _ => return some ((← anyStatement) :: groups)
  return groups.reverse.flatten

/-- Reads the text of a module. -/
def parseModule (file : String) (text : List Char) : Except Fault (List Stmt) :=
  (Cursor.run moduleBody (.ofText file text)).1

/-- A list of expressions that is the whole text. -/
def wholeExpression : Parser Expr := do
  let expr ← withExpressions expressionList
  if ← sees .newline then let _ ← advance
  if !(← sees .endOfFile) then unexpected .endOfExpression
  return expr

/-- Reads the text of an expression. -/
def parseExpression (file : String) (text : List Char) : Except Fault Expr :=
  (Cursor.run wholeExpression (.ofText file text)).1

/-- One compound statement, one line of small statements, or an empty line. The
end of a line is not moved past, since that would need the next line. -/
def interactiveStatements : Parser (List Stmt) := do
  match ← token with
  | .keyword .defWord => anyStatement
  | .keyword .classWord => anyStatement
  | .keyword .ifWord => anyStatement
  | .keyword .forWord => anyStatement
  | .keyword .whileWord => anyStatement
  | .keyword .tryWord => anyStatement
  | .keyword .withWord => anyStatement
  | .symbol (.operator .matrixMultiply) => anyStatement
  | .newline => return []
  | _ =>
    let items ← smallStatements
    if !(← sees .newline) then complain .unfinishedLine
    return items

/-- Reads statements from the front of a supply of lines. The second result is
the lines that were not needed. -/
def parseInteractive (file : String) (lines : List (List Char)) :
    Except Fault (List Stmt) × List (List Char) :=
  let (result, place) := Cursor.run interactiveStatements (.ofLines file lines)
  (result, (place.live.bind (·.supply)).getD [])

end Unsugar
