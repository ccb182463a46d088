import Unsugar.Grammar.FormattedString

/-! The grammar of expressions. The productions stand in order of precedence, and
each refers to the ones before it. A production that has consumed a word may go
back to a looser one through a goal. -/

namespace Unsugar.Grammar

open Unsugar.Parser

/-- The productions that others go back to. -/
inductive Goal where
  | test
  /-- A test that leaves a following `if` alone. -/
  | plainTest
  | disjunction
  | negation
  /-- Operands joined by operators of the given level or a tighter one. -/
  | operand (level : Nat)
  | factor
  | primary

/-- The way back to a production. -/
abbrev Productions := Goal → Parser Expr

/-! ## Parts of expressions -/

/-- Whether a token ends a list of expressions. -/
def endsList : Token → Bool
  | .endOfFile => true
  | .newline => true
  | .symbol .equals => true
  | .symbol .closeBrace => true
  | .symbol .closeBracket => true
  | .symbol .closeParen => true
  | .symbol .semicolon => true
  | .symbol .colon => true
  | .symbol (.augmented _) => true
  | _ => false

/-- An operand with a star before it, or a test. -/
def starOrTest (self : Productions) : Parser Expr := do
  if ← seesMark (.operator .multiply) then
    let position ← advance
    return .starred position .star (← self (.operand 0))
  self .test

/-- Expressions separated by commas; a comma makes a tuple. -/
def expressionList (self : Productions) : Parser Expr := do
  let first ← starOrTest self
  if !(← seesMark .comma) then return first
  let items ← repeating [first] fun items => do
    if !(← skipMark .comma) || endsList (← token) then return none
    return some ((← starOrTest self) :: items)
  return .tuple .unknown items.reverse .unknown

/-- A test, possibly given a name. -/
def namedTest (self : Productions) : Parser Expr := do
  let value ← self .test
  if ← seesMark .colonEquals then
    match value with
    | .name position id =>
      let _ ← advance
      return .named ⟨position, id⟩ (← self .test)
    | _ => complainAt value.start (.badNamedTarget value.description)
  return value

/-- An element of a display or subscript. -/
def namedOrStar (self : Productions) : Parser Expr := do
  if ← seesMark (.operator .multiply) then starOrTest self else namedTest self

/-- The rest of a display after its first element, without the closing mark. -/
def displayTail (self : Productions) (first : Expr) (closing : Symbol) : Parser (List Expr) := do
  let items ← repeating [first] fun items => do
    if !(← skipMark .comma) then return none
    if ← seesMark closing then return none
    return some ((← namedOrStar self) :: items)
  return items.reverse

/-- A `yield` expression. -/
def yieldExpression (self : Productions) : Parser Expr := do
  let position ← advance
  if ← skipWord .fromWord then return .yield position true (some (← self .test))
  if endsList (← token) then return .yield position false none
  return .yield position false (some (← expressionList self))

/-- A target of a loop, a `with` item or a deletion. -/
def target (self : Productions) : Parser Expr := do
  if ← seesMark (.operator .multiply) then
    let position ← advance
    return .starred position .star (← self (.operand 0))
  self (.operand 0)

/-- The targets of a loop. -/
def loopTarget (self : Productions) : Parser Expr := do
  let first ← target self
  let whole ←
    if ← seesMark .comma then
      let items ← repeating [first] fun items => do
        if !(← skipMark .comma) then return none
        if ← seesWord .inWord then return none
        return some ((← target self) :: items)
      pure (Expr.tuple .unknown items.reverse .unknown)
    else pure first
  demandNone (targetFault false whole)
  return whole

/-- The clauses of a comprehension up to its closing mark. -/
def comprehension (self : Productions) (kind : ComprehensionKind) (opening : Position)
    (body : Expr) (closing : Symbol) : Parser Expr := do
  if let some position := body.starPosition? then complainAt position .starInComprehension
  let clauses ← repeating ([] : List Clause) fun clauses => do
    if ← seesMark closing then return none
    match ← token with
    | .keyword .forWord =>
      let position ← advance
      let target ← loopTarget self
      let _ ← expectWord .inWord
      return some (.loop position target (← self .disjunction) :: clauses)
    | .keyword .ifWord =>
      let position ← advance
      return some (.filter position (← self .plainTest) :: clauses)
    | .keyword .asyncWord => complain .unsupportedAsync
    | other =>
      if other = .symbol .comma ∧ !opening.isKnown then
        complainAt body.start .unparenthesizedGenerator
      unexpected (.clause closing)
  let end_ ← if opening.isKnown then advance else pure .unknown
  return .comprehension kind opening body clauses.reverse end_

/-! ## Parameters and arguments -/

/-- The type hint of a parameter, where hints are allowed. -/
def typeHint (hinted : Bool) (parser : Parser Expr) : Parser (Option Expr) := do
  if hinted && (← seesMark .colon) then
    let _ ← advance
    return some (← parser)
  return none

/-- One parameter. -/
def param (self : Productions) (hinted : Bool) : Parser Param := do
  match ← token with
  | .symbol (.operator .divide) => return .mk .slash (← advance) none none none
  | .symbol (.operator .multiply) =>
    let position ← advance
    match ← token with
    | .name _ =>
      let name ← ident
      return .mk .star position (some name) (← typeHint hinted (starOrTest self)) none
    | _ => return .mk .star position none none none
  | .symbol (.operator .power) =>
    let position ← advance
    let name ← ident
    return .mk .doubleStar position (some name) (← typeHint hinted (self .test)) none
  | _ =>
    let name ← ident
    let hint ← typeHint hinted (self .test)
    let default ← if ← skipMark .equals then some <$> self .test else pure none
    return .mk .normal .unknown (some name) hint default

/-- Parameters up to the closing mark, which is left. -/
def params (self : Productions) (closing : Symbol) (hinted : Bool) : Parser (List Param) := do
  let (items, _) ← repeating (([] : List Param), true) fun (items, more) => do
    if !more || (← seesMark closing) then return none
    let item ← param self hinted
    return some (item :: items, ← skipMark .comma)
  demandNone (paramsFault {} items.reverse)
  return items.reverse

/-- Arguments as they are read, the last one first. -/
structure ArgumentsRead where
  items : List Expr := []
  more : Bool := true
  /-- A generator that is the only argument and has no parentheses. -/
  generator : Option Expr := none

/-- One argument more. -/
def argument (self : Productions) (read : ArgumentsRead) : Parser ArgumentsRead := do
  let add (item : Expr) : Parser ArgumentsRead := do
    return { read with items := item :: read.items, more := ← skipMark .comma }
  match ← token with
  | .symbol (.operator .multiply) =>
    let position ← advance
    add (.starred position .star (← self .test))
  | .symbol (.operator .power) =>
    let position ← advance
    add (.starred position .doubleStar (← self .test))
  | _ =>
    let value ← namedTest self
    match ← token with
    | .symbol .equals =>
      match value with
      | .name position id =>
        let _ ← advance
        add (.keyword position id (← self .test))
      | _ => complainAt value.start (.badKeywordName value.description)
    | .keyword .forWord =>
      if !read.items.isEmpty then complainAt value.start .unparenthesizedGenerator
      let generator ← comprehension self .generator .unknown value .closeParen
      return { read with more := false, generator := some generator }
    | _ => add value

/-- Arguments up to the closing parenthesis, which is left. -/
def arguments (self : Productions) : Parser (List Expr) := do
  let read ← repeating ({} : ArgumentsRead) fun read => do
    if !read.more || (← seesMark .closeParen) then return none
    return some (← argument self read)
  match read.generator with
  | some generator => return [generator]
  | none =>
    demandNone (argumentsFault false false read.items.reverse)
    return read.items.reverse

/-! ## Strings -/

/-- Reads the expression of a replacement field, as if in parentheses. -/
def fieldValue (self : Productions) (position : Position) : FieldReader := fun text =>
  let scanner : Scanner :=
    { rest := '(' :: text ++ [')'], file := "", line := position.line, column := position.column }
  let scanner := match position with
    | .at file .. => { scanner with file }
    | .unknown => scanner
  let whole : Parser Expr := do
    let value ← self .primary
    if ← sees .newline then let _ ← advance
    if !(← sees .endOfFile) then unexpected .endOfField
    return value
  match (Cursor.run whole scanner).1 with
  | .ok value => return value
  | .error fault => throw (.inField fault.complaint)

/-- Adjacent string literals as they are read. -/
structure StringsRead where
  raws : List String := []
  parts : List Expr := []
  text : String := ""
  bytes : List UInt8 := []
  formatted : Bool := false

/-- The parts read so far, the text after the last field among them. -/
def StringsRead.allParts (read : StringsRead) : List Expr :=
  if read.text.isEmpty then read.parts
  else read.parts ++ [.literal .unknown "" (.text read.text)]

/-- One literal more. -/
def stringAfter (self : Productions) (inBytes : Bool) (read : StringsRead) :
    Parser (Option StringsRead) := do
  let lexeme := (← get).lexeme
  let raws := read.raws ++ [lexeme.raw]
  let mixed : Parser Unit := complainAt lexeme.start .mixedBytes
  match lexeme.token with
  | .string value =>
    if inBytes then mixed
    let _ ← advance
    return some { read with raws, text := read.text ++ value }
  | .bytes value =>
    if !inBytes then mixed
    let _ ← advance
    return some { read with raws, bytes := read.bytes ++ value }
  | .fstring chars plain =>
    if inBytes then mixed
    match formattedString lexeme.start plain (fieldValue self lexeme.start) chars with
    | .error complaint => complainAt lexeme.start complaint
    | .ok parts =>
      let _ ← advance
      return some { raws, parts := read.allParts ++ parts, formatted := true }
  | _ => return none

/-- Adjacent string literals, which denote one value. -/
def strings (self : Productions) (inBytes : Bool) : Parser Expr := do
  let position := (← get).lexeme.start
  let read ← repeating ({} : StringsRead) (stringAfter self inBytes)
  let raw := " ".intercalate read.raws
  if read.formatted then return .fstring position raw (mergeTexts read.allParts)
  return .literal position raw (if inBytes then .bytes read.bytes else .text read.text)

/-! ## Productions -/

/-- A literal of one word. -/
def constant (value : Constant) (raw : String) : Parser Expr := do
  return .literal (← advance) raw value

/-- A list or list comprehension. -/
def listDisplay (self : Productions) : Parser Expr := do
  let opening ← advance
  if ← seesMark .closeBracket then return .list opening [] (← advance)
  let first ← namedOrStar self
  if ← seesWord .forWord then return ← comprehension self .list opening first .closeBracket
  let items ← displayTail self first .closeBracket
  return .list opening items (← expectMark .closeBracket)

/-- A mapping that is unpacked into a dictionary. -/
def unpackedMapping (self : Productions) : Parser Expr := do
  let position ← advance
  return .starred position .doubleStar (← self (.operand 0))

/-- One entry of a dictionary after the first. -/
def dictEntry (self : Productions) : Parser Expr := do
  if ← seesMark (.operator .power) then return ← unpackedMapping self
  let key ← self .test
  let _ ← expectMark .colon
  return .entry key (← self .test)

/-- The rest of a dictionary after its first entry. -/
def dictTail (self : Productions) (opening : Position) (first : Expr) : Parser Expr := do
  let items ← repeating [first] fun items => do
    if !(← skipMark .comma) then return none
    if ← seesMark .closeBrace then return none
    return some ((← dictEntry self) :: items)
  return .dict opening items.reverse (← expectMark .closeBrace)

/-- A dictionary, a set, or a comprehension of either. -/
def braceDisplay (self : Productions) : Parser Expr := do
  let opening ← advance
  if ← seesMark .closeBrace then return .dict opening [] (← advance)
  if ← seesMark (.operator .power) then
    let first ← unpackedMapping self
    return ← dictTail self opening first
  let first ← namedOrStar self
  if ← seesMark .colon then
    if first.starPosition?.isSome then complainAt first.start .starInDictionary
    let _ ← advance
    let entry := Expr.entry first (← self .test)
    if ← seesWord .forWord then return ← comprehension self .dict opening entry .closeBrace
    dictTail self opening entry
  else
    if ← seesWord .forWord then return ← comprehension self .set opening first .closeBrace
    let items ← displayTail self first .closeBrace
    return .set opening items (← expectMark .closeBrace)

/-- A tuple, a generator, a `yield`, or any expression in parentheses. -/
def parenthesized (self : Productions) : Parser Expr := do
  let opening ← advance
  if ← seesMark .closeParen then return .tuple opening [] (← advance)
  if ← seesWord .yieldWord then
    let value ← yieldExpression self
    let _ ← expectMark .closeParen
    return value
  let first ← namedOrStar self
  if ← seesWord .forWord then return ← comprehension self .generator opening first .closeParen
  if ← seesMark .comma then
    let items ← displayTail self first .closeParen
    return .tuple opening items (← expectMark .closeParen)
  if first.starPosition?.isSome then complainAt first.start .misplacedStar
  let _ ← expectMark .closeParen
  return first

/-- A name, a literal, or anything in brackets. -/
def primary (self : Productions) : Parser Expr := do
  let lexeme := (← get).lexeme
  match lexeme.token with
  | .name id => return .name (← advance) id
  | .integer value => constant (.integer value) lexeme.raw
  | .float value => constant (.float value) lexeme.raw
  | .imaginary value => constant (.imaginary value) lexeme.raw
  | .string _ => strings self false
  | .fstring .. => strings self false
  | .bytes _ => strings self true
  | .keyword .noneWord => constant .none ""
  | .keyword .trueWord => constant (.boolean true) ""
  | .keyword .falseWord => constant (.boolean false) ""
  | .symbol .ellipsis => constant .ellipsis ""
  | .symbol .openBracket => listDisplay self
  | .symbol .openBrace => braceDisplay self
  | .symbol .openParen => parenthesized self
  | _ => unexpected .primary

/-- A test in a subscript, or a slice. -/
def subscriptItem (self : Productions) : Parser Expr := do
  let lower ← if ← seesMark .colon then pure none else some <$> namedOrStar self
  match lower with
  | some value => if !(← seesMark .colon) then return value
  | none => pure ()
  let position ← advance
  let absent : Parser Bool := do return (← seesMark .comma) || (← seesMark .closeBracket)
  let upper ← if (← seesMark .colon) || (← absent) then pure none else some <$> self .test
  let step ←
    if ← skipMark .colon then
      if ← absent then pure none else some <$> self .test
    else pure none
  return .slice position lower upper step

/-- The key of a subscript, after its opening bracket. -/
def subscriptKey (self : Productions) : Parser Expr := do
  let first ← subscriptItem self
  if !(← seesMark .comma) then return first
  let items ← repeating [first] fun items => do
    if !(← skipMark .comma) then return none
    if ← seesMark .closeBracket then return none
    return some ((← subscriptItem self) :: items)
  return .tuple .unknown items.reverse .unknown

/-- A primary expression with the attributes, subscripts and calls after it. -/
def suffixed (self : Productions) : Parser Expr := do
  repeating (← primary self) fun value => do
    match ← token with
    | .symbol .dot =>
      let _ ← advance
      let name ← ident
      return some (.member value name.position name.name)
    | .symbol .openBracket =>
      let _ ← advance
      let key ← subscriptKey self
      return some (.subscript value key (← expectMark .closeBracket))
    | .symbol .openParen =>
      let _ ← advance
      let items ← arguments self
      return some (.call value items (← expectMark .closeParen))
    | _ => return none

/-- A power; it binds tighter than a sign before it. -/
def power (self : Productions) : Parser Expr := do
  if ← seesWord .awaitWord then complain .unsupportedAwait
  let base ← suffixed self
  if ← seesMark (.operator .power) then
    let position ← advance
    return .binary base position .power (← self .factor)
  return base

/-- The sign that a token is, if any. -/
def sign? : Token → Option UnaryOp
  | .symbol (.operator .add) => some .plus
  | .symbol (.operator .subtract) => some .minus
  | .symbol .tilde => some .invert
  | _ => none

def factor (self : Productions) : Parser Expr := do
  match sign? (← token) with
  | some op =>
    let position ← advance
    return .unary position op (← self .factor)
  | none => power self

/-- How tightly an operator binds; powers are not among these. -/
def level? : BinaryOp → Option Nat
  | .bitOr => some 0
  | .bitXor => some 1
  | .bitAnd => some 2
  | .shiftLeft => some 3
  | .shiftRight => some 3
  | .add => some 4
  | .subtract => some 4
  | .multiply => some 5
  | .matrixMultiply => some 5
  | .divide => some 5
  | .floorDivide => some 5
  | .modulo => some 5
  | .power => none

/-- The operator of at least the given level that a token is, with its level. -/
def operatorAbove? (level : Nat) : Token → Option (BinaryOp × Nat)
  | .symbol (.operator op) =>
    match level? op with
    | some own => if own < level then none else some (op, own)
    | none => none
  | _ => none

/-- Factors joined by operators, from left to right. -/
def operand (self : Productions) (level : Nat) : Parser Expr := do
  repeating (← factor self) fun left => do
    match operatorAbove? level (← token) with
    | some (op, own) =>
      let position ← advance
      return some (.binary left position op (← self (.operand (own + 1))))
    | none => return none

/-- Moves past a comparison operator, if there is one. -/
def comparison? : Parser (Option CompareOp) := do
  let single (op : CompareOp) : Parser (Option CompareOp) := do
    let _ ← advance
    return some op
  match ← token with
  | .symbol .less => single .less
  | .symbol .greater => single .greater
  | .symbol .lessEqual => single .lessEqual
  | .symbol .greaterEqual => single .greaterEqual
  | .symbol .doubleEqual => single .equal
  | .symbol .notEqual => single .notEqual
  | .keyword .inWord => single .isIn
  | .keyword .isWord =>
    let _ ← advance
    return some (if ← skipWord .notWord then .isNot else .is)
  | .keyword .notWord =>
    let _ ← advance
    if !(← seesWord .inWord) then unexpected .membership
    single .notIn
  | _ => return none

/-- Operands joined by comparisons into one chain. -/
def comparison (self : Productions) : Parser Expr := do
  let left ← operand self 0
  let (ops, rights) ← repeating (([], []) : List CompareOp × List Expr) fun (ops, rights) => do
    match ← comparison? with
    | some op => return some (op :: ops, (← operand self 0) :: rights)
    | none => return none
  if ops.isEmpty then return left
  return .compare left ops.reverse rights.reverse

def negation (self : Productions) : Parser Expr := do
  if ← seesWord .notWord then
    let position ← advance
    return .unary position .not (← self .negation)
  comparison self

/-- Operands joined by one logical operator, from left to right. -/
def logicalChain (operand : Parser Expr) (word : Keyword) (op : LogicalOp) : Parser Expr := do
  repeating (← operand) fun left => do
    if !(← seesWord word) then return none
    let position ← advance
    return some (.logical left position op (← operand))

def disjunction (self : Productions) : Parser Expr :=
  logicalChain (logicalChain (negation self) .andWord .and) .orWord .or

/-- A lambda whose body is read by the given production. -/
def lambda (self : Productions) (body : Goal) : Parser Expr := do
  let position ← advance
  let items ← params self .colon false
  let _ ← expectMark .colon
  return .lambda position items (← self body)

def plainTest (self : Productions) : Parser Expr := do
  if ← seesWord .lambdaWord then lambda self .plainTest else disjunction self

def test (self : Productions) : Parser Expr := do
  if ← seesWord .lambdaWord then return ← lambda self .test
  let value ← disjunction self
  if !(← seesWord .ifWord) then return value
  let position ← advance
  let condition ← disjunction self
  if !(← seesWord .elseWord) then complainAt position .conditionalWithoutElse
  let _ ← advance
  return .conditional condition value (← self .test)

/-- The production of a goal. -/
def production (self : Productions) : Goal → Parser Expr
  | .test => test self
  | .plainTest => plainTest self
  | .disjunction => disjunction self
  | .negation => negation self
  | .operand level => operand self level
  | .factor => factor self
  | .primary => primary self

/-- The productions, nested at most `depth` deep. -/
def productions : (depth : Nat) → Productions
  | 0 => fun _ => complain .pastEnd
  | depth + 1 => production (productions depth)

end Unsugar.Grammar
