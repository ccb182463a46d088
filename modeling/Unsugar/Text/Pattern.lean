import Unsugar.Text.Utf8

/-! Patterns that messages are searched for. What a pattern matches is up to its
reader. Here plain patterns are read: a point stands for any character of a line, a
backslash takes the special meaning from the character after it, and other
characters stand for themselves. Groups and classes have to be closed, and are not
offered. -/

namespace Unsugar.Text

structure Pattern where
  /-- The pattern as it was written. -/
  source : String
  /-- Whether a message has a match of the pattern. -/
  isIn : String → Bool

/-- What matches one character. -/
inductive PatternItem where
  | any
  | char (char : Char)
  deriving DecidableEq

inductive PatternError where
  | unclosedGroup (pattern : String)
  | unclosedClass (rest : String)

def PatternError.message : PatternError → String
  | unclosedGroup pattern => "error parsing regexp: missing closing ): \x60" ++ pattern ++ "\x60"
  | unclosedClass rest => "error parsing regexp: missing closing ]: \x60" ++ rest ++ "\x60"

namespace PatternItem

def accepts (item : PatternItem) (found : Char) : Bool :=
  match item with
  | any => found != '\n'
  | char wanted => found == wanted

/-- The items of a pattern, and whether a group was opened. -/
def read : List Char → Except PatternError (List PatternItem × Bool)
  | [] => .ok ([], false)
  | '[' :: rest => .error (.unclosedClass (String.ofList ('[' :: rest)))
  | '(' :: rest => do
    let (items, _) ← read rest
    return (items, true)
  | '.' :: rest => do
    let (items, opened) ← read rest
    return (any :: items, opened)
  | '\\' :: escaped :: rest => do
    let (items, opened) ← read rest
    return (char escaped :: items, opened)
  | found :: rest => do
    let (items, opened) ← read rest
    return (char found :: items, opened)

/-- Whether a text begins with a match. -/
def matchesFront : List PatternItem → List Char → Bool
  | [], _ => true
  | _ :: _, [] => false
  | item :: items, found :: rest => item.accepts found && matchesFront items rest

/-- Whether a text has a match anywhere. -/
def occursIn (items : List PatternItem) : List Char → Bool
  | [] => matchesFront items []
  | found :: rest => matchesFront items (found :: rest) || occursIn items rest

end PatternItem

namespace Pattern

/-- What reads the bytes of patterns. It says what is wrong with the others. -/
abbrev Reader := List UInt8 → Except String Pattern

def ofText (text : List Char) : Except PatternError Pattern := do
  let (items, opened) ← PatternItem.read text
  if opened then .error (.unclosedGroup (String.ofList text))
  else .ok ⟨String.ofList text, fun message => PatternItem.occursIn items message.toList⟩

/-- Reads plain patterns. -/
def plain : Reader :=
  fun bytes => (ofText (decode bytes)).mapError PatternError.message

end Pattern
end Unsugar.Text
