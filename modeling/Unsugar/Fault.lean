import Unsugar.Position
import Unsugar.StringLiteral
import Unsugar.Token

/-! Faults of source text. A fault is a position and a complaint, and the wording
of every complaint stands in one place. -/

namespace Unsugar

/-- What a place in the grammar accepts. -/
inductive Wanted where
  | token (wanted : Token)
  | identifier
  | primary
  | definition
  | handler
  | moduleName
  | membership
  /-- Another clause of a comprehension, or the mark that closes it. -/
  | clause (closing : Symbol)
  | endOfField
  | endOfExpression

def Wanted.phrase : Wanted → String
  | token wanted => wanted.label
  | identifier => "identifier"
  | primary => "primary expression"
  | definition => "def or class after decorator"
  | handler => "except or finally"
  | moduleName => "module name"
  | membership => "in"
  | clause closing => "'" ++ closing.text ++ "', for, or if"
  | endOfField => "'\x7d'"
  | endOfExpression => "EOF"

/-- What is wrong with a source text. -/
inductive Complaint where
  -- words
  | unmatchedOutdent
  | strayBackslash
  | unmatchedBracket (char : Char)
  | unexpectedCharacter (char : Char)
  | openString
  | brokenString
  | badString (error : StringLiteral.Error)
  | hexLiteral
  | octalLiteral
  | binaryLiteral
  | obsoleteOctal (digits : String)
  | integerLiteral
  | floatLiteral
  | imaginaryLiteral
  /-- The supply of interactive lines is used up. -/
  | endOfInput
  /-- Reading beyond the end, which no caller does. -/
  | pastEnd
  /-- Asking for the innermost block where there is none, which no caller does. -/
  | noLevel
  -- structure
  | unexpected (got : Token) (want : Wanted)
  | unfinishedLine
  | unsupportedAsync
  | unsupportedAwait
  | unsupportedMatch
  | unsupportedExceptStar
  | parameterAfterKeywords
  | misplacedSlash
  | repeatedStar
  | missingDefault
  | duplicateParameter (name : String)
  | unparenthesizedTypes
  | bareHandlerNotLast
  | elseWithoutHandler
  | badAugmentedTarget (description : String)
  | badAnnotatedTarget (description : String)
  | badNamedTarget (description : String)
  | badKeywordName (description : String)
  | badTarget (description : String)
  | badDeletion (description : String)
  | repeatedStarTarget
  | conditionalWithoutElse
  | unparenthesizedGenerator
  | unpackingAfterKeywords
  | positionalAfterKeywords
  | positionalAfterKeyword
  | misplacedStar
  | starInDictionary
  | starInComprehension
  | mixedBytes
  -- formatted strings
  | strayBrace
  | nestedFields
  | openField
  | emptyField
  | badConversion
  /-- A complaint about the expression of a replacement field. -/
  | inField (inner : Complaint)

namespace Complaint

def message : Complaint → String
  | unmatchedOutdent => "unindent does not match any outer indentation level"
  | strayBackslash => "stray backslash in program"
  | unmatchedBracket char => "unexpected " ++ Text.quotedChar char
  | unexpectedCharacter char => "unexpected input character " ++ Text.quotedChar char
  | openString => "unexpected EOF in string"
  | brokenString => "unexpected newline in string"
  | badString error => error.message
  | hexLiteral => "invalid hex literal"
  | octalLiteral => "invalid octal literal"
  | binaryLiteral => "invalid binary literal"
  | obsoleteOctal digits => "obsolete form of octal literal; use 0o" ++ digits
  | integerLiteral => "invalid int literal"
  | floatLiteral => "invalid float literal"
  | imaginaryLiteral => "invalid imaginary literal"
  | endOfInput => "EOF"
  | pastEnd => "internal scanner error: read past the end"
  | noLevel => "internal scanner error: no block is open"
  | unexpected got .endOfExpression => "got " ++ got.label ++ " after expression, want EOF"
  | unexpected got want => "got " ++ got.label ++ ", want " ++ want.phrase
  | unfinishedLine => "invalid syntax"
  | unsupportedAsync => "async is not supported"
  | unsupportedAwait => "await is not supported"
  | unsupportedMatch => "match statement is not supported"
  | unsupportedExceptStar => "except* is not supported"
  | parameterAfterKeywords => "parameter follows **kwargs"
  | misplacedSlash => "invalid / in parameter list"
  | repeatedStar => "multiple * parameters"
  | missingDefault => "non-default parameter follows default parameter"
  | duplicateParameter name => "duplicate parameter: " ++ name
  | unparenthesizedTypes => "multiple exception types must be parenthesized"
  | bareHandlerNotLast => "default 'except:' must be last"
  | elseWithoutHandler => "else clause requires an except clause"
  | badAugmentedTarget description =>
    "'" ++ description ++ "' is an illegal expression for augmented assignment"
  | badAnnotatedTarget description =>
    "only single target (not " ++ description ++ ") can be annotated"
  | badNamedTarget description => "cannot use assignment expressions with " ++ description
  | badKeywordName description =>
    "expression " ++ description ++ " cannot be used as a keyword argument name"
  | badTarget description => "cannot assign to " ++ description
  | badDeletion description => "cannot delete " ++ description
  | repeatedStarTarget => "multiple starred expressions in assignment"
  | conditionalWithoutElse => "conditional expression without else clause"
  | unparenthesizedGenerator => "generator expression must be parenthesized"
  | unpackingAfterKeywords =>
    "iterable argument unpacking follows keyword argument unpacking"
  | positionalAfterKeywords => "positional argument follows keyword argument unpacking"
  | positionalAfterKeyword => "positional argument follows keyword argument"
  | misplacedStar => "cannot use starred expression here"
  | starInDictionary => "cannot use a starred expression in a dictionary value"
  | starInComprehension => "iterable unpacking cannot be used in comprehension"
  | mixedBytes => "cannot mix bytes and nonbytes literals"
  | strayBrace => "f-string: single '\x7d' is not allowed"
  | nestedFields => "f-string: expressions nested too deeply"
  | openField => "f-string: expecting '\x7d'"
  | emptyField => "f-string: empty expression not allowed"
  | badConversion => "f-string: invalid conversion character: expected 's', 'r', or 'a'"
  | inField inner => "f-string: " ++ inner.message

end Complaint

structure Fault where
  position : Position
  complaint : Complaint

/-- The position of a fault and its complaint, on one line. -/
def Fault.message (fault : Fault) : String :=
  fault.position.label ++ ": " ++ fault.complaint.message

end Unsugar
