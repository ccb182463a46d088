import Unsugar.Token.Lexer
import Unsugar.Tree.Basic

/-! Parsers over a stream of words. A parser looks at one word and complains, if
it must, about the place that the scanner has reached after that word. -/

namespace Unsugar

/-- How far a scanner has got. A scanner that reads lines as they are needed is kept,
since what it has not read is not known. -/
structure Place where
  position : Position
  /-- The number of open brackets. -/
  depth : Nat
  live : Option Scanner

/-- The place that a scanner has reached. -/
def Scanner.place (interactive : Bool) (scanner : Scanner) : Place :=
  ⟨scanner.position, scanner.depth, if interactive then some scanner else none⟩

/-- A place in a stream. -/
structure Cursor where
  lexeme : Lexeme
  after : Place
  rest : Stream Place
  /-- No repetition and no nesting in the text exceeds this number. -/
  bound : Nat

abbrev Parser := EStateM Fault Cursor

namespace Parser

/-- Complains about the place the scanner has reached. -/
def complain {α : Type} (complaint : Complaint) : Parser α := fun cursor =>
  .error ⟨cursor.after.position, complaint⟩ cursor

/-- Complains about an earlier position. -/
def complainAt {α : Type} (position : Position) (complaint : Complaint) : Parser α :=
  throw ⟨position, complaint⟩

/-- The current token. -/
def token : Parser Token := do
  return (← get).lexeme.token

/-- Complains that the current token is not what the grammar wants. -/
def unexpected {α : Type} (want : Wanted) : Parser α := do
  complain (.unexpected (← token) want)

/-- Whether the current token is the given one. -/
def sees (wanted : Token) : Parser Bool := do
  return (← token) == wanted

def seesMark (mark : Symbol) : Parser Bool := sees (.symbol mark)

def seesWord (word : Keyword) : Parser Bool := sees (.keyword word)

/-- Moves to the next word, and returns where the current one began. The last
word of a text is followed by itself. -/
def advance : Parser Position := fun cursor =>
  match cursor.rest with
  | .failed fault after => .error fault { cursor with after }
  | .last lexeme after => .ok cursor.lexeme.start { cursor with lexeme, after }
  | .word lexeme after rest => .ok cursor.lexeme.start { cursor with lexeme, after, rest }

/-- Moves past the given token, which must be the current one. -/
def expect (wanted : Token) : Parser Position := do
  if !(← sees wanted) then unexpected (.token wanted)
  advance

def expectMark (mark : Symbol) : Parser Position := expect (.symbol mark)

def expectWord (word : Keyword) : Parser Position := expect (.keyword word)

/-- Moves past the given punctuation if it is the current token. -/
def skipMark (mark : Symbol) : Parser Bool := do
  if ← seesMark mark then
    let _ ← advance
    return true
  return false

/-- Moves past the given word if it is the current token. -/
def skipWord (word : Keyword) : Parser Bool := do
  if ← seesWord word then
    let _ ← advance
    return true
  return false

/-- Moves past a name. -/
def ident : Parser Ident := do
  match ← token with
  | .name name => return ⟨← advance, name⟩
  | _ => unexpected .identifier

/-- Takes steps until one has no successor. -/
def iterate {σ : Type} (step : σ → Parser (Option σ)) : (fuel : Nat) → σ → Parser σ
  | 0, _ => complain .pastEnd
  | fuel + 1, state => do
    match ← step state with
    | none => return state
    | some next => iterate step fuel next

/-- Takes steps until one has no successor; the bound of the text is enough. -/
def repeating {σ : Type} (state : σ) (step : σ → Parser (Option σ)) : Parser σ := do
  iterate step (← get).bound state

end Parser

namespace Cursor

/-- Runs a parser over the words of a scanner, from the first word on. The second
result is the place that was reached when the parser finished or failed. -/
def run {α : Type} (parser : Parser α) (scanner : Scanner) : Except Fault α × Place :=
  let bound := 4 * scanner.size + 8
  let enter (lexeme : Lexeme) (after : Place) (rest : Stream Place) : Except Fault α × Place :=
    match parser { lexeme, after, rest, bound } with
    | .ok value cursor => (.ok value, cursor.after)
    | .error fault cursor => (.error fault, cursor.after)
  match (Stream.ofScanner scanner).map (Scanner.place scanner.supply.isSome) with
  | .failed fault after => (.error fault, after)
  | .last lexeme after => enter lexeme after (.last lexeme after)
  | .word lexeme after rest => enter lexeme after rest

end Cursor
end Unsugar
