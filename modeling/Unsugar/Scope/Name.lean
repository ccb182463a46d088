/-! Names that generated code reserves, and what they display as. -/

namespace Unsugar

/-- Whether a text begins with another. -/
def beginsWithText (front text : String) : Bool :=
  front.toList.isPrefixOf text.toList

/-- Whether a name is reserved for generated code. Reserved names are never
captured, renamed, or moved into the namespace of a class. -/
def isReserved (name : String) : Bool :=
  beginsWithText "_dp_" name || name == "__dp__"

/-- Splits characters at their last underscore. -/
def splitLastUnderscore? (chars : List Char) : Option (List Char × List Char) :=
  let tail := chars.reverse.takeWhile (· != '_')
  match chars.reverse.drop tail.length with
  | _ :: front => some (front.reverse, tail.reverse)
  | [] => none

def isDecimal (chars : List Char) : Bool :=
  !chars.isEmpty && chars.all fun char => '0' ≤ char && char ≤ '9'

/-- Functions made from expressions, by the beginning of their names. -/
def helperNames : List (String × String) :=
  [("_dp_lambda_", "<lambda>"), ("_dp_genexpr_", "<genexpr>"), ("_dp_listcomp_", "<listcomp>"),
   ("_dp_setcomp_", "<setcomp>"), ("_dp_dictcomp_", "<dictcomp>")]

/-- The characters after a front that a text begins with. -/
def afterFront? (front text : String) : Option (List Char) :=
  if beginsWithText front text then some (text.toList.drop front.length) else none

/-- The name that a user knows a function by. A renamed function displays as the
name it had, and a function made from an expression as the kind of expression. -/
def displayName (name : String) : String :=
  match helperNames.find? fun (front, _) => beginsWithText front name with
  | some (_, display) => display
  | none =>
    match afterFront? "_dp_fn_" name with
    | none => name
    | some rest =>
      match splitLastUnderscore? rest with
      | some (base, digits) =>
        String.ofList (if !base.isEmpty && isDecimal digits then base else rest)
      | none => String.ofList rest

/-- The base of a numbered reserved name: what stands before its last underscore,
if a number of at most sixty-four bits follows. -/
def freshBase? (name : String) : Option String := do
  let rest ← afterFront? "_dp_" name
  let (base, digits) ← splitLastUnderscore? rest
  let value := digits.foldl (fun value char => value * 10 + (char.toNat - '0'.toNat)) 0
  if isDecimal digits && value < Nat.pow 2 64 then some ("_dp_" ++ String.ofList base) else none

end Unsugar
