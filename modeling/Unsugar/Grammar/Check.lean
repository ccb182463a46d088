import Unsugar.Grammar.Parser
import Unsugar.Tree.Span

/-! Conditions that the grammar leaves to be checked on the tree: what may be a
target, and in which order parameters and arguments may stand. -/

namespace Unsugar

/-- A short phrase that names the kind of an expression. -/
def Expr.description : Expr → String
  | literal .. => "literal"
  | fstring .. => "f-string expression"
  | call .. => "function call"
  | compare .. => "comparison"
  | conditional .. => "conditional expression"
  | lambda .. => "lambda"
  | dict .. => "dict literal"
  | set .. => "set display"
  | comprehension .list .. => "list comprehension"
  | comprehension .set .. => "set comprehension"
  | comprehension .dict .. => "dict comprehension"
  | comprehension .generator .. => "generator expression"
  | named .. => "named expression"
  | yield .. => "yield expression"
  | starred .. => "starred"
  | keyword .. => "keyword argument"
  | slice .. => "slice"
  | name .. => "name"
  | member .. => "attribute"
  | subscript .. => "subscript"
  | tuple .. => "tuple"
  | list .. => "list"
  | field .. => "expression"
  | binary .. => "expression"
  | logical .. => "expression"
  | unary .. => "expression"
  | entry .. => "expression"

/-- Whether an expression is a name, an attribute or a subscript. -/
def Expr.isSingleTarget : Expr → Bool
  | .name .. => true
  | .member .. => true
  | .subscript .. => true
  | _ => false

/-- The position of the mark of a starred expression. -/
def Expr.starPosition? : Expr → Option Position
  | .starred position .. => some position
  | _ => none

namespace Grammar

/-! ## Targets -/

mutual

/-- The fault of an expression as a target, if any. A deletion has no starred
target. -/
def targetFault (deletes : Bool) : Expr → Option Fault
  | .name .. => none
  | .member .. => none
  | .subscript .. => none
  | .tuple _ items _ => targetsFault deletes false items
  | .list _ items _ => targetsFault deletes false items
  | .starred position op value =>
    if op = .star ∧ !deletes then targetFault deletes value
    else some ⟨position, if deletes then .badDeletion "starred" else .badTarget "starred"⟩
  | other =>
    let description := other.description
    some ⟨other.start, if deletes then .badDeletion description else .badTarget description⟩

/-- The first fault of a list of targets, of which one at most may be starred. -/
def targetsFault (deletes starSeen : Bool) : List Expr → Option Fault
  | [] => none
  | first :: rest =>
    match first.starPosition? with
    | some position =>
      if starSeen then some ⟨position, .repeatedStarTarget⟩
      else (targetFault deletes first).orElse fun _ => targetsFault deletes true rest
    | none => (targetFault deletes first).orElse fun _ => targetsFault deletes starSeen rest

end

/-- Complains with a fault, if there is one. -/
def demandNone (fault? : Option Fault) : Parser Unit :=
  match fault? with
  | some fault => throw fault
  | none => pure ()

/-! ## Parameters -/

/-- What has been seen of a parameter list. -/
structure ParamsSeen where
  names : List String := []
  star : Bool := false
  doubleStar : Bool := false
  slash : Bool := false
  default : Bool := false

/-- The fault of the next parameter, considered by its kind. -/
def kindFault (seen : ParamsSeen) (param : Param) : Option Fault :=
  if seen.doubleStar then some ⟨param.start, .parameterAfterKeywords⟩
  else match param.kind with
    | .slash => if seen.slash || seen.star then some ⟨param.position, .misplacedSlash⟩ else none
    | .star => if seen.star then some ⟨param.position, .repeatedStar⟩ else none
    | .doubleStar => none
    | .normal =>
      if param.default.isNone && seen.default && !seen.star then
        some ⟨param.start, .missingDefault⟩
      else none

/-- The fault of the next parameter, considered by its name. -/
def nameFault (seen : ParamsSeen) (param : Param) : Option Fault :=
  match param.ident with
  | some ident =>
    if seen.names.contains ident.name then
      some ⟨ident.position, .duplicateParameter ident.name⟩
    else none
  | none => none

/-- What has been seen after one more parameter. -/
def ParamsSeen.add (seen : ParamsSeen) (param : Param) : ParamsSeen :=
  let names := match param.ident with
    | some ident => ident.name :: seen.names
    | none => seen.names
  let seen := { seen with names }
  match param.kind with
  | .slash => { seen with slash := true }
  | .star => { seen with star := true }
  | .doubleStar => { seen with doubleStar := true }
  | .normal => { seen with default := seen.default || param.default.isSome }

/-- The first fault of a parameter list. -/
def paramsFault (seen : ParamsSeen) : List Param → Option Fault
  | [] => none
  | param :: rest =>
    ((kindFault seen param).orElse fun _ => nameFault seen param).orElse fun _ =>
      paramsFault (seen.add param) rest

/-! ## Arguments -/

/-- The first fault in the order of arguments: none by position may follow one
by keyword, and no unpacking may follow a mapping. -/
def argumentsFault (keyword mapping : Bool) : List Expr → Option Fault
  | [] => none
  | .keyword .. :: rest => argumentsFault true mapping rest
  | .starred _ .doubleStar _ :: rest => argumentsFault keyword true rest
  | .starred position .star _ :: rest =>
    if mapping then some ⟨position, .unpackingAfterKeywords⟩
    else argumentsFault keyword mapping rest
  | argument :: rest =>
    if mapping then some ⟨argument.start, .positionalAfterKeywords⟩
    else if keyword then some ⟨argument.start, .positionalAfterKeyword⟩
    else argumentsFault keyword mapping rest

end Grammar
end Unsugar
