import Unsugar.Fault
import Unsugar.StringLiteral
import Unsugar.Text.Blank
import Unsugar.Tree.Basic

/-! Templates: sources with placeholders, and the values put in for them. A
placeholder is written `{name:kind}`. Names and literals are put in as text,
expressions and statements as trees. -/

namespace Unsugar.Template

/-- The ways of putting a value in. -/
inductive Kind where
  | ident
  | literal
  | expr
  | stmt
  deriving DecidableEq

def Kind.text : Kind → String
  | ident => "id"
  | literal => "literal"
  | expr => "expr"
  | stmt => "stmt"

def Kind.all : List Kind := [ident, literal, expr, stmt]

/-- A value for a placeholder. -/
inductive Value where
  | nothing
  | boolean (value : Bool)
  /-- An integer, and whether it was given at a fixed width. -/
  | integer (value : Int) (fixedWidth : Bool)
  | text (value : String)
  | texts (values : List String)
  | expr (value : Expr)
  | stmt (value : Stmt)
  | stmts (values : List Stmt)

abbrev Values := List (String × Value)

structure Placeholder where
  name : String
  kind : Kind

/-- A placeholder as it is written. -/
def Placeholder.text (placeholder : Placeholder) : String :=
  "\x7b" ++ placeholder.name ++ ":" ++ placeholder.kind.text ++ "\x7d"

/-- Why a template gives no tree. -/
inductive Error where
  | missing (placeholder : Placeholder)
  | mismatched (value : Value) (placeholder : Placeholder)
  /-- The source, with names and literals put in, cannot be parsed. -/
  | malformed (fault : Fault) (source : String)
  | wrongCount (count : Nat) (source : String)
  | notExpression (source : String)
  | usedTwice (name : String)
  /-- The source names a value that is no expression. -/
  | unbound

/-- The text of an error, if it has one; `typeName` names the type of a value. -/
def Error.message? (typeName : Value → String) : Error → Option String
  | missing placeholder => some ("template: no value for placeholder " ++ placeholder.text)
  | mismatched value placeholder =>
    some ("template: invalid value " ++ typeName value ++ " for placeholder " ++ placeholder.text)
  | malformed fault source => some ("template: " ++ fault.message ++ "\n" ++ source)
  | wrongCount count source =>
    some ("template: got " ++ toString count ++ " statements, want 1: " ++ source)
  | notExpression source => some ("template: not an expression: " ++ source)
  | usedTwice name => some ("template: expression placeholder " ++ name ++ " used twice")
  | unbound => none

/-! ## Layout -/

/-- The lines of a text. -/
def lines (chars : List Char) : List (List Char) :=
  chars.splitOn '\n'

def joinLines (lines : List (List Char)) : List Char :=
  ['\n'].intercalate lines

def isIndent (char : Char) : Bool :=
  char == ' ' || char == '\t'

/-- The indentation that all lines share, blank lines apart. -/
def sharedIndent (lines : List (List Char)) : Nat :=
  let written := lines.filter fun line => !(Text.trim line).isEmpty
  let indents := written.map fun line => (line.takeWhile isIndent).length
  indents.min?.getD 0

/-- A line without its first bytes; a line with fewer loses its indentation. -/
def cutLine (width : Nat) (line : List Char) : List Char :=
  let bytes := Text.encode line
  if width ≤ bytes.length then Text.decode (bytes.drop width) else line.dropWhile isIndent

/-- A source without the empty lines before it and the indentation of all its
lines. -/
def dedent (source : List Char) : List Char :=
  let found := lines (source.dropWhile (· == '\n'))
  match sharedIndent found with
  | 0 => joinLines found
  | width => joinLines (found.map (cutLine width))

/-! ## Placeholders -/

def isNameStart (char : Char) : Bool :=
  char.isAlpha || char == '_'

def isNamePart (char : Char) : Bool :=
  char.isAlphanum || char == '_'

/-- The placeholder that a text begins with, and how many characters it has. -/
def placeholder? : List Char → Option (Placeholder × Nat)
  | '\x7b' :: first :: rest =>
    let name := first :: rest.takeWhile isNamePart
    let found := Kind.all.find? fun kind =>
      (':' :: kind.text.toList ++ ['\x7d']).isPrefixOf (rest.dropWhile isNamePart)
    match found with
    | some kind =>
      if isNameStart first then
        let placeholder : Placeholder := ⟨String.ofList name, kind⟩
        some (placeholder, placeholder.text.length)
      else none
    | none => none
  | _ => none

/-- The name that stands for an expression until it is put in. -/
def exprMark : String := "_dp_placeholder_expr_"

/-- The name that stands for statements until they are put in. -/
def stmtMark : String := "_dp_placeholder_stmt_"

/-- A value as a literal. -/
def Value.literal? : Value → Option String
  | nothing => some "None"
  | boolean true => some "True"
  | boolean false => some "False"
  | integer value _ => some (toString value)
  | text value => some (StringLiteral.quoteText value)
  | texts values =>
    some ("[" ++ ", ".intercalate (values.map StringLiteral.quoteText) ++ "]")
  | _ => none

/-- The text that a placeholder is replaced by. -/
def Placeholder.expand (values : Values) (placeholder : Placeholder) : Except Error String :=
  match values.lookup placeholder.name with
  | none => .error (.missing placeholder)
  | some value =>
    match placeholder.kind, value with
    | .ident, .text value => .ok value
    | .ident, .expr (.name _ id) => .ok id
    | .expr, .expr _ => .ok (exprMark ++ placeholder.name)
    | .stmt, .stmt _ | .stmt, .stmts _ => .ok (stmtMark ++ placeholder.name)
    | .literal, value =>
      match value.literal? with
      | some text => .ok text
      | none => .error (.mismatched value placeholder)
    | _, value => .error (.mismatched value placeholder)

/-- Replaces the placeholders of a source, the first `skipped` characters of which
belong to one that is replaced already. -/
def expand (values : Values) : (skipped : Nat) → List Char → Except Error (List Char)
  | _, [] => .ok []
  | skipped + 1, _ :: rest => expand values skipped rest
  | 0, char :: rest => do
    match placeholder? (char :: rest) with
    | some (placeholder, length) =>
      let text ← placeholder.expand values
      return text.toList ++ (← expand values (length - 1) rest)
    | none => return char :: (← expand values 0 rest)

end Unsugar.Template
