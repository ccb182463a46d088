import Unsugar.Binary64
import Unsugar.Operator

/-! The words of source text. A token carries the value its spelling denotes, so
nothing after the lexer reads digits or escapes again. -/

namespace Unsugar

/-- Punctuation. -/
inductive Symbol where
  | operator (op : BinaryOp)
  /-- An operator joined to an equals sign, such as `+=`. -/
  | augmented (op : BinaryOp)
  | tilde
  | dot
  | comma
  | equals
  | semicolon
  | colon
  | openParen
  | closeParen
  | openBracket
  | closeBracket
  | openBrace
  | closeBrace
  | less
  | greater
  | greaterEqual
  | lessEqual
  | doubleEqual
  | notEqual
  | arrow
  | colonEquals
  | ellipsis
  deriving DecidableEq

/-- Reserved words. -/
inductive Keyword where
  | andWord
  | asWord
  | assertWord
  | asyncWord
  | awaitWord
  | breakWord
  | classWord
  | continueWord
  | defWord
  | delWord
  | elifWord
  | elseWord
  | exceptWord
  | falseWord
  | finallyWord
  | forWord
  | fromWord
  | globalWord
  | ifWord
  | importWord
  | inWord
  | isWord
  | lambdaWord
  | noneWord
  | nonlocalWord
  | notWord
  | orWord
  | passWord
  | raiseWord
  | returnWord
  | trueWord
  | tryWord
  | whileWord
  | withWord
  | yieldWord
  deriving DecidableEq

inductive Token where
  | endOfFile
  | newline
  | indent
  | outdent
  | name (text : String)
  | integer (value : Nat)
  | float (value : Binary64)
  | imaginary (value : Binary64)
  | string (value : String)
  | bytes (value : List UInt8)
  /-- A formatted string by its undecoded body; `plain` says that backslashes in
  it are ordinary characters. -/
  | fstring (body : List Char) (plain : Bool)
  | symbol (mark : Symbol)
  | keyword (word : Keyword)
  deriving DecidableEq

namespace Symbol

def text : Symbol → String
  | operator op => op.text
  | augmented op => op.text ++ "="
  | tilde => "~"
  | dot => "."
  | comma => ","
  | equals => "="
  | semicolon => ";"
  | colon => ":"
  | openParen => "("
  | closeParen => ")"
  | openBracket => "["
  | closeBracket => "]"
  | openBrace => "\x7b"
  | closeBrace => "\x7d"
  | less => "<"
  | greater => ">"
  | greaterEqual => ">="
  | lessEqual => "<="
  | doubleEqual => "=="
  | notEqual => "!="
  | arrow => "->"
  | colonEquals => ":="
  | ellipsis => "..."

end Symbol

namespace Keyword

def text : Keyword → String
  | andWord => "and"
  | asWord => "as"
  | assertWord => "assert"
  | asyncWord => "async"
  | awaitWord => "await"
  | breakWord => "break"
  | classWord => "class"
  | continueWord => "continue"
  | defWord => "def"
  | delWord => "del"
  | elifWord => "elif"
  | elseWord => "else"
  | exceptWord => "except"
  | falseWord => "False"
  | finallyWord => "finally"
  | forWord => "for"
  | fromWord => "from"
  | globalWord => "global"
  | ifWord => "if"
  | importWord => "import"
  | inWord => "in"
  | isWord => "is"
  | lambdaWord => "lambda"
  | noneWord => "None"
  | nonlocalWord => "nonlocal"
  | notWord => "not"
  | orWord => "or"
  | passWord => "pass"
  | raiseWord => "raise"
  | returnWord => "return"
  | trueWord => "True"
  | tryWord => "try"
  | whileWord => "while"
  | withWord => "with"
  | yieldWord => "yield"

/-- All reserved words. -/
def all : List Keyword :=
  [andWord, asWord, assertWord, asyncWord, awaitWord, breakWord, classWord, continueWord,
   defWord, delWord, elifWord, elseWord, exceptWord, falseWord, finallyWord, forWord, fromWord,
   globalWord, ifWord, importWord, inWord, isWord, lambdaWord, noneWord, nonlocalWord, notWord,
   orWord, passWord, raiseWord, returnWord, trueWord, tryWord, whileWord, withWord, yieldWord]

/-- The reserved word that a spelling is, if any. -/
def ofText? (text : String) : Option Keyword :=
  all.find? (·.text == text)

/-- Every reserved word is the one its spelling names. -/
theorem ofText?_text (keyword : Keyword) : ofText? keyword.text = some keyword := by
  cases keyword <;> decide

end Keyword

/-- Whether a name is a reserved word. -/
def isKeyword (name : String) : Bool :=
  (Keyword.ofText? name).isSome

namespace Token

/-- The kind of a token: what it is called, or how it is spelt. -/
def kind : Token → String
  | endOfFile => "end of file"
  | newline => "newline"
  | indent => "indent"
  | outdent => "outdent"
  | name _ => "identifier"
  | integer _ => "int literal"
  | float _ => "float literal"
  | imaginary _ => "imaginary literal"
  | string _ => "string literal"
  | bytes _ => "bytes literal"
  | fstring .. => "f-string literal"
  | symbol mark => mark.text
  | keyword word => word.text

/-- The kind as messages give it, with punctuation in quotes. -/
def label : Token → String
  | symbol mark => "'" ++ mark.text ++ "'"
  | token => token.kind

end Token
end Unsugar
