import Unsugar.Binary64.Shortest
import Unsugar.StringLiteral
import Unsugar.Tree.Basic

/-! Trees as source text. Parentheses follow from precedence, so the text reads
back as the same tree. -/

namespace Unsugar

/-- How tightly the parts of an expression hold together, loosest first. -/
structure Precedence where
  level : Nat

namespace Precedence

def lowest : Precedence := ⟨0⟩
def lambda : Precedence := ⟨1⟩
def conditional : Precedence := ⟨2⟩
def named : Precedence := ⟨3⟩
def or : Precedence := ⟨4⟩
def and : Precedence := ⟨5⟩
def not : Precedence := ⟨6⟩
def compare : Precedence := ⟨7⟩
def bitOr : Precedence := ⟨8⟩
def bitXor : Precedence := ⟨9⟩
def bitAnd : Precedence := ⟨10⟩
def shift : Precedence := ⟨11⟩
def sum : Precedence := ⟨12⟩
def product : Precedence := ⟨13⟩
def unary : Precedence := ⟨14⟩
def power : Precedence := ⟨15⟩
def atom : Precedence := ⟨16⟩

/-- The next tighter precedence. -/
def tighter (precedence : Precedence) : Precedence := ⟨precedence.level + 1⟩

def ofBinary : BinaryOp → Precedence
  | .bitOr => bitOr
  | .bitXor => bitXor
  | .bitAnd => bitAnd
  | .shiftLeft => shift
  | .shiftRight => shift
  | .add => sum
  | .subtract => sum
  | .multiply => product
  | .matrixMultiply => product
  | .divide => product
  | .floorDivide => product
  | .modulo => product
  | .power => power

def ofLogical : LogicalOp → Precedence
  | .or => or
  | .and => and

end Precedence

namespace Constant

/-- Whether a constant is written with a leading minus. -/
def isNegative : Constant → Bool
  | integer value => value < 0
  | float value => value.isSigned
  | imaginary value => value.isSigned
  | _ => false

/-- A constant as a literal. -/
def literalText : Constant → String
  | none => "None"
  | ellipsis => "..."
  | boolean true => "True"
  | boolean false => "False"
  | integer value => toString value
  | float value => value.literalText
  | imaginary value => value.literalText ++ "j"
  | text value => StringLiteral.quoteText value
  | bytes value => StringLiteral.quote true false value

end Constant

namespace Expr

/-- How tightly an expression holds together. A negative number without a text
of its own is written like a negation. -/
def precedence : Expr → Precedence
  | yield .. => .lowest
  | lambda .. => .lambda
  | conditional .. => .conditional
  | named .. => .named
  | binary _ _ op _ => .ofBinary op
  | logical _ _ op _ => .ofLogical op
  | compare .. => .compare
  | unary _ .not _ => .not
  | unary .. => .unary
  | literal _ raw value => if raw.isEmpty && value.isNegative then .unary else .atom
  | _ => .atom

/-- Whether an attribute must not directly follow the text of an expression,
because the dot would be read as a part of a number. -/
def absorbsDot : Expr → Bool
  | literal _ _ (.integer _) => true
  | literal _ _ (.float _) => true
  | _ => false

end Expr

namespace Printer

/-- A text in parentheses if asked for. -/
def wrapIf (wraps : Bool) (text : List Char) : List Char :=
  if wraps then '(' :: text ++ [')'] else text

def separator : List Char := [',', ' ']

/-- Doubles the braces of a text and escapes its quotes, as within a formatted
string in single quotes. -/
def fieldSafe : List Char → List Char
  | '\\' :: '"' :: rest => '"' :: fieldSafe rest
  | '\\' :: char :: rest => '\\' :: fieldSafe (char :: rest)
  | '\'' :: rest => '\\' :: '\'' :: fieldSafe rest
  | '\x7b' :: rest => '\x7b' :: '\x7b' :: fieldSafe rest
  | '\x7d' :: rest => '\x7d' :: '\x7d' :: fieldSafe rest
  | char :: rest => char :: fieldSafe rest
  | [] => []

/-- A text literal as a part of a formatted string. -/
def textPart (text : String) : List Char :=
  fieldSafe (StringLiteral.quoteBody Text.isPrintable false false (Text.toBytes text))

def brackets : ComprehensionKind → Char × Char
  | .list => ('[', ']')
  | .set => ('\x7b', '\x7d')
  | .dict => ('\x7b', '\x7d')
  | .generator => ('(', ')')

def marks : ParamKind → List Char
  | .normal => []
  | .star => ['*']
  | .doubleStar => ['*', '*']
  | .slash => ['/']

end Printer

open Printer

namespace Expr

mutual

/-- An expression as text, in parentheses if it holds together less tightly than
its surroundings ask. In a `bare` place the elements of a tuple stand without
parentheses. -/
def print (bare : Bool) (around : Precedence) : Expr → List Char
  | name _ id => id.toList
  | literal position raw value =>
    wrapIf ((literal position raw value).precedence.level < around.level)
      (if raw.isEmpty then value.literalText.toList else raw.toList)
  | fstring _ raw parts =>
    if raw.isEmpty then 'f' :: '\'' :: printParts parts ++ ['\''] else raw.toList
  | field _ value _ _ => '\x7b' :: print false .lambda value ++ ['\x7d']
  | call callee arguments _ =>
    print false .atom callee ++ '(' :: printList .lambda arguments ++ [')']
  | keyword _ id value => id.toList ++ '=' :: print false .lambda value
  | starred _ op value => op.text.toList ++ print false .bitOr value
  | member object _ id =>
    (if object.absorbsDot then '(' :: print false .lowest object ++ [')'] else print false .atom object) ++
      '.' :: id.toList
  | subscript object key _ => print false .atom object ++ '[' :: print true .lambda key ++ [']']
  | slice _ lower upper step =>
    printOptional lower ++ ':' :: printOptional upper ++ printStep step
  | binary left _ op right =>
    let own := Precedence.ofBinary op
    let text :=
      if op = .power then print false .atom left ++ " ** ".toList ++ print false .unary right
      else print false own left ++ ' ' :: op.text.toList ++ ' ' :: print false own.tighter right
    wrapIf (own.level < around.level) text
  | logical left _ op right =>
    let own := Precedence.ofLogical op
    wrapIf (own.level < around.level)
      (print false own left ++ ' ' :: op.text.toList ++ ' ' :: print false own.tighter right)
  | compare left ops rights =>
    wrapIf (Precedence.compare.level < around.level)
      (print false .bitOr left ++ printComparisons ops rights)
  | unary _ op operand =>
    if op = .not then
      wrapIf (Precedence.not.level < around.level) ("not ".toList ++ print false .not operand)
    else
      wrapIf (Precedence.unary.level < around.level) (op.text.toList ++ print false .unary operand)
  | conditional test whenTrue whenFalse =>
    wrapIf (Precedence.conditional.level < around.level)
      (print false .or whenTrue ++ " if ".toList ++ print false .or test ++ " else ".toList ++
        print false .conditional whenFalse)
  | lambda _ params body =>
    wrapIf (Precedence.lambda.level < around.level)
      ("lambda".toList ++ (if params.isEmpty then [] else ' ' :: printParams params) ++
        ':' :: ' ' :: print false .lambda body)
  | list _ items _ => '[' :: printList .lambda items ++ [']']
  | tuple _ items _ => wrapIf (!bare || items.isEmpty) (printTuple items)
  | set _ items _ => '\x7b' :: printList .lambda items ++ ['\x7d']
  | dict _ items _ => '\x7b' :: printList .lambda items ++ ['\x7d']
  | entry key value => print false .lambda key ++ ':' :: ' ' :: print false .lambda value
  | comprehension kind _ body clauses _ =>
    (brackets kind).1 :: print false .lambda body ++ printClauses clauses ++ [(brackets kind).2]
  | named target value =>
    '(' :: target.name.toList ++ " := ".toList ++ print false .lambda value ++ [')']
  | yield _ delegates value =>
    wrapIf (Precedence.lowest.level < around.level) ("yield".toList ++ printYielded delegates value)

/-- What follows the word of a `yield`. -/
def printYielded (delegates : Bool) : Option Expr → List Char
  | none => []
  | some value =>
    if delegates then " from ".toList ++ print false .lambda value else ' ' :: print false .lowest value

/-- Expressions separated by commas. -/
def printList (around : Precedence) : List Expr → List Char
  | [] => []
  | [last] => print false around last
  | first :: rest => print false around first ++ separator ++ printList around rest

/-- The elements of a tuple; a single one is followed by a comma. -/
def printTuple : List Expr → List Char
  | [] => []
  | [single] => print false .lambda single ++ [',']
  | first :: rest => print false .lambda first ++ separator ++ printList .lambda rest

/-- The operators of a comparison with the operands to their right. -/
def printComparisons (ops : List CompareOp) : List Expr → List Char
  | [] => []
  | right :: rest =>
    match ops with
    | [] => []
    | op :: ops => ' ' :: op.text.toList ++ ' ' :: print false .bitOr right ++ printComparisons ops rest

/-- The step of a slice. -/
def printStep : Option Expr → List Char
  | none => []
  | some step => ':' :: print false .lambda step

def printOptional : Option Expr → List Char
  | none => []
  | some value => print false .lambda value

/-- Parameters separated by commas. -/
def printParams : List Param → List Char
  | [] => []
  | [last] => printParam last
  | first :: rest => printParam first ++ separator ++ printParams rest

def printParam : Param → List Char
  | .mk kind _ ident hint default =>
    marks kind ++ ((ident.map (·.name.toList)).getD []) ++ printHint hint ++
      printDefault hint.isSome default

def printHint : Option Expr → List Char
  | none => []
  | some hint => ':' :: ' ' :: print false .lambda hint

/-- The default of a parameter; after a type hint the equals sign has blanks
around it. -/
def printDefault (hinted : Bool) : Option Expr → List Char
  | none => []
  | some value => (if hinted then " = ".toList else ['=']) ++ print false .lambda value

def printClauses : List Clause → List Char
  | [] => []
  | first :: rest => printClause first ++ printClauses rest

def printClause : Clause → List Char
  | .loop _ target iterable =>
    " for ".toList ++ print true .bitOr target ++ " in ".toList ++ print false .or iterable
  | .filter _ test => " if ".toList ++ print false .or test

/-- The body of a formatted string in single quotes. -/
def printParts : List Expr → List Char
  | [] => []
  | part :: rest => printPart part ++ printParts rest

/-- One part of a formatted string. A field whose text begins with a brace is set
off by a blank. -/
def printPart : Expr → List Char
  | literal _ _ (.text text) => textPart text
  | field _ value conversion spec =>
    let text := print false .lowest value
    '\x7b' :: (if text.head? = some '\x7b' then ' ' :: text else text) ++
      ((conversion.map fun conversion => ['!', conversion.letter]).getD []) ++
      printSpec spec ++ ['\x7d']
  | _ => []

/-- The format of a field. -/
def printSpec : Option Expr → List Char
  | none => []
  | some (fstring _ _ parts) => ':' :: printParts parts
  | some _ => [':']

end

end Expr

namespace Printer

/-- A line of text at a depth of nesting. -/
def line (depth : Nat) (text : List Char) : List Char :=
  List.replicate (4 * depth) ' ' ++ text ++ ['\n']

/-- An expression where a bare tuple would need parentheses. -/
def operandText (value : Expr) : List Char := value.print false .lambda

/-- An expression where a `yield` needs no parentheses. -/
def valueText (value : Expr) : List Char := value.print false .lowest

/-- An optional expression after some words. -/
def optionalText (words : String) : Option Expr → List Char
  | none => []
  | some value => words.toList ++ operandText value

def aliasText (item : Alias) : List Char :=
  item.path.toList ++
    match item.asName with
    | some ident => " as ".toList ++ ident.name.toList
    | none => []

def withItemText (item : WithItem) : List Char :=
  operandText item.manager ++
    match item.target with
    | some target => " as ".toList ++ target.print false .atom
    | none => []

/-- Texts separated by commas. -/
def commaText (texts : List (List Char)) : List Char :=
  separator.intercalate texts

def decoratorLines (depth : Nat) (decorators : List Expr) : List Char :=
  decorators.flatMap fun decorator => line depth ('@' :: operandText decorator)

/-- The line that opens a handler. -/
def handlerHead (type : Option Expr) (ident : Option Ident) : List Char :=
  "except".toList ++
    match type with
    | none => [':']
    | some type =>
      ' ' :: operandText type ++
        ((ident.map fun ident => " as ".toList ++ ident.name.toList).getD []) ++ [':']

/-- The line that opens a function. -/
def functionHead (ident : Ident) (params : List Param) (result : Option Expr) : List Char :=
  "def ".toList ++ ident.name.toList ++ '(' :: Expr.printParams params ++ ')' ::
    optionalText " -> " result ++ [':']

/-- The line that opens a class. -/
def classHead (ident : Ident) (bases : List Expr) : List Char :=
  "class ".toList ++ ident.name.toList ++
    (if bases.isEmpty then [] else '(' :: Expr.printList .lambda bases ++ [')']) ++ [':']

/-- Whether a statement is a conditional that an `elif` at the given position
began. -/
def beganAt (position : Position) : Stmt → Bool
  | .conditional own .. => own.isKnown && own == position
  | _ => false

end Printer

namespace Stmt

mutual

/-- A statement as lines of text. A conditional that continues the one around it
opens with `elif`. -/
def print (depth : Nat) (continues : Bool) : Stmt → List Char
  | expression value => line depth (valueText value)
  | assign targets value =>
    line depth (targets.flatMap (fun target => valueText target ++ " = ".toList) ++ valueText value)
  | augAssign target op value =>
    line depth (target.print false .atom ++ ' ' :: op.text.toList ++ "= ".toList ++ valueText value)
  | annAssign target hint value =>
    line depth (target.print false .atom ++ ':' :: ' ' :: operandText hint ++
      ((value.map fun value => " = ".toList ++ valueText value).getD []))
  | delete _ targets => line depth ("del ".toList ++ Expr.printList .bitOr targets)
  | branch _ kind => line depth kind.text.toList
  | returns _ result => line depth ("return".toList ++ optionalText " " result)
  | raises _ exception cause =>
    line depth ("raise".toList ++ optionalText " " exception ++
      (if exception.isSome then optionalText " from " cause else []))
  | declare _ declaration names =>
    line depth (declaration.text.toList ++ ' ' :: commaText (names.map (·.name.toList)))
  | asserts _ test message =>
    line depth ("assert ".toList ++ operandText test ++ optionalText ", " message)
  | imports _ names => line depth ("import ".toList ++ commaText (names.map aliasText))
  | importFrom _ source level names _ =>
    line depth ("from ".toList ++ List.replicate level '.' ++ source.toList ++
      " import ".toList ++ commaText (names.map aliasText))
  | conditional _ test body elsePosition orelse =>
    line depth ((if continues then "elif " else "if ").toList ++ operandText test ++ [':']) ++
      printBlock depth body ++ printElse depth elsePosition orelse
  | whileLoop _ test body orelse =>
    line depth ("while ".toList ++ operandText test ++ [':']) ++ printBlock depth body ++
      printClause depth "else:" orelse
  | forLoop _ target iterable body orelse =>
    line depth ("for ".toList ++ target.print true .bitOr ++ " in ".toList ++ valueText iterable ++
      [':']) ++ printBlock depth body ++ printClause depth "else:" orelse
  | tryBlock _ body handlers orelse final =>
    line depth "try:".toList ++ printBlock depth body ++ printHandlers depth handlers ++
      printClause depth "else:" orelse ++
      (if handlers.isEmpty then line depth "finally:".toList ++ printBlock depth final
        else printClause depth "finally:" final)
  | withBlock _ items body =>
    line depth ("with ".toList ++ commaText (items.map withItemText) ++ [':']) ++
      printBlock depth body
  | function decorators _ ident params result body =>
    decoratorLines depth decorators ++ line depth (functionHead ident params result) ++
      printBlock depth body
  | classDef decorators _ ident bases body =>
    decoratorLines depth decorators ++ line depth (classHead ident bases) ++ printBlock depth body

/-- Statements one after another. -/
def printAll (depth : Nat) : List Stmt → List Char
  | [] => []
  | first :: rest => print depth false first ++ printAll depth rest

/-- The statements under a line at the given depth; an empty block is a `pass`. -/
def printBlock (depth : Nat) : List Stmt → List Char
  | [] => line (depth + 1) "pass".toList
  | first :: rest => print (depth + 1) false first ++ printAll (depth + 1) rest

/-- A clause that is left out when it is empty. -/
def printClause (depth : Nat) (head : String) : List Stmt → List Char
  | [] => []
  | first :: rest =>
    line depth head.toList ++ print (depth + 1) false first ++ printAll (depth + 1) rest

/-- The rest of a conditional: an `elif` where one stood, or an `else`. -/
def printElse (depth : Nat) (elsePosition : Position) : List Stmt → List Char
  | [] => []
  | [single] =>
    if beganAt elsePosition single then print depth true single
    else line depth "else:".toList ++ print (depth + 1) false single
  | first :: rest =>
    line depth "else:".toList ++ print (depth + 1) false first ++ printAll (depth + 1) rest

def printHandlers (depth : Nat) : List Handler → List Char
  | [] => []
  | first :: rest => printHandler depth first ++ printHandlers depth rest

def printHandler (depth : Nat) : Handler → List Char
  | .mk _ type ident body => line depth (handlerHead type ident) ++ printBlock depth body

end

end Stmt

/-- The text of a module. -/
def printModule (body : List Stmt) : String :=
  String.ofList (Stmt.printAll 0 body)

/-- The text of an expression. -/
def printExpression (value : Expr) : String :=
  String.ofList (value.print false .lowest)

end Unsugar
