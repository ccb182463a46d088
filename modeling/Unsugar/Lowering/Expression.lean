import Unsugar.Lowering.Function
import Unsugar.Lowering.Operand
import Unsugar.Scope.Tree
import Unsugar.Tree.Span

/-! Lowering of expressions, and of assignments to targets. Operators, subscripts
and displays with unpacked items become calls. Conditional expressions, short
circuits and assignment expressions become statements that come ahead, and so do
lambdas and comprehensions, which become functions. -/

namespace Unsugar
namespace Lowering

/-! ## Parts of formatted strings -/

inductive Part where
  | text (value : String)
  | made (value : Lowering Expr)

def Part.action : Part → Lowering Expr
  | text value => return .ofText value
  | made value => value

/-- The value of a replacement field, converted and formatted. -/
def formatting (conversion : Option Conversion) (value : Lowering Expr)
    (spec : List (Lowering Expr)) : Lowering Expr :=
  let converted := match conversion with
    | none => value
    | some conversion => applying (return .builtin conversion.function) [value]
  applying (return .builtin "format") (converted :: spec)

/-- An attribute of a lowered object; `object` is what the object was. -/
def memberOf (env : Env) (object : Expr) (position : Position) (id : String)
    (lowered : Lowering Expr) : Lowering Expr := do
  if env.options.lowerAttributes && !object.isReservedPath then
    touch
    supporting "getattr" [lowered, return .ofText id]
  else return .member (← lowered) position id

/-- The text made of the parts of a formatted string. -/
def joining (env : Env) : List Part → Lowering Expr
  | [] => return .ofText ""
  | [.text value] => return .ofText value
  | parts =>
    applying (memberOf env (.ofText "") .unknown "join" (return .ofText ""))
      [do return .tupleOf (← operands (parts.map Part.action))]

/-! ## Comparisons -/

/-- One comparison. A membership test evaluates the container first. -/
def comparing (op : CompareOp) (left right : Lowering Expr) : Lowering Expr := do
  touch
  match op with
  | .isIn => supporting op.function [right, left]
  | .notIn => supporting "not_" [supporting op.function [right, left]]
  | _ => supporting op.function [left, right]

/-- The comparisons of a chain. An operand between two comparisons is evaluated
once: unless it may be evaluated twice, the first comparison stores it. -/
def chain (left : Lowering Expr) :
    List (CompareOp × Expr × Lowering Expr) → Lowering (List (Lowering Expr))
  | [] => return []
  | [(op, _, right)] => return [comparing op left right]
  | (op, operand, right) :: rest => do
    if operand.isReusable then
      return comparing op left right :: (← chain right rest)
    else
      let stored ← fresh "tmp"
      let here := comparing op left (assigning stored right)
      return here :: (← chain (return .ofName stored) rest)

/-- A chain of comparisons holds if all of them do. -/
def chained (left : Lowering Expr) (rights : List (CompareOp × Expr × Lowering Expr)) :
    Lowering Expr := do
  match ← chain left rights with
  | [] => return .absent
  | first :: rest => rest.foldl (shortCircuit .and .unknown) first

/-! ## Loops -/

/-- A loop over an iterable. The loop asks for the next item until it is told that
there is none, and only then is the `else` clause run. -/
def looping (position : Position) (assign : Expr → Desugar (List Stmt))
    (iterable : Lowering Expr) (body : Desugar (List Stmt))
    (orelse : Option (Desugar (List Stmt))) : Desugar (List Stmt) := do
  let iterator ← Desugar.fresh "iter"
  let item ← Desugar.fresh "tmp"
  let completed ← Desugar.fresh "completed"
  Desugar.apply .forLoop .walk position
  let start ← storing iterator (supporting "iter" [iterable])
  let assigned ← assign (.ofName item)
  let body ← body
  let loop : Stmt := .whileLoop .unknown (.supportCall "not_" [.ofName completed])
    [.store item (.supportCall "next_or_sentinel" [.ofName iterator]),
     .choose (.supportCall "is_" [.ofName item, .support "ITER_COMPLETE"])
      [.store completed (.ofBool true)] (assigned ++ body)] []
  let after ← match orelse with
    | none => pure []
    | some orelse => do pure [.choose (.ofName completed) (← orelse) []]
  return .store completed (.ofBool false) :: start ++ loop :: after

/-! ## Comprehensions -/

/-- The targets of the assignment expressions in an expression; those in lambdas
belong to the lambda. -/
def namedTargets (expr : Expr) : List String :=
  (expr.walk (fun | .expr (.lambda ..) => false | _ => true) 0).filterMap fun visit =>
    match visit.node with
    | .expr (.named target _) => some target.name
    | _ => none

/-- The targets of the assignment expressions that a comprehension evaluates
itself. Its first iterable is evaluated in the body around it. -/
def comprehensionTargets (body : Expr) (clauses : List Clause) : List String :=
  let inClause : Clause → List String
    | .loop _ _ iterable => namedTargets iterable
    | .filter _ test => namedTargets test
  let inFirst : Clause → List String
    | .loop .. => []
    | .filter _ test => namedTargets test
  Scope.sortNames
    ((clauses.take 1).flatMap inFirst ++ (clauses.drop 1).flatMap inClause ++ namedTargets body)

/-- How the function made from a comprehension declares the targets of its
assignment expressions, which bind in the body around it. -/
def declarationIn (frame : Frame) (position : Position) : Lowering Declaration := do
  match frame with
  | .moduleFrame => return .global
  | .classFrame => Desugar.refuse position .namedInClassComprehension
  | .functionFrame name => return ((← getThe Context).helpers.lookup name).getD .nonlocal

/-- The declaration of targets, if there are any. -/
def declaring (env : Env) (helper : String) (position : Position) (targets : List String) :
    Lowering (List Stmt) := do
  if targets.isEmpty then return []
  let declaration ← declarationIn env.frame position
  modifyThe Context fun context =>
    { context with helpers := (helper, declaration) :: context.helpers }
  return [.declare .unknown declaration (targets.map (⟨.unknown, ·⟩))]

/-- The collection that a comprehension starts with. -/
def emptyResult : ComprehensionKind → Option Expr
  | .list => some (.listOf [])
  | .set => some (.apply (.builtin "set") [])
  | .dict => some (.dictOf [])
  | .generator => none

/-- The statement that a comprehension runs for each item. -/
def collecting (kind : ComprehensionKind) (result : String) (body : Lowering Expr)
    (entry : List (Lowering Expr)) : Desugar (List Stmt) :=
  flush do
    match kind with
    | .list =>
      return .expression (← applying (return .attributeOf (.ofName result) "append") [body])
    | .set =>
      return .expression (← applying (return .attributeOf (.ofName result) "add") [body])
    | .dict => return .expression (← supporting "setitem" ((return .ofName result) :: entry))
    | .generator => return .expression (.yield .unknown false (some (← body)))

/-! ## Assignments -/

/-- The name under which a value is saved ahead of the parts of its target, if it
has to be: the parts are written before it, and must be evaluated after it. -/
def saveAhead (value : Expr) (parts : List Expr) : Desugar (Option String) := do
  if value.isPure || parts.all (Expr.isStable value.hasNamed) then return none
  return some (← Desugar.fresh "tmp")

/-- Finishes a statement with a value that may have to be saved ahead. -/
def finishing (saved : Option String) (value : Lowering Expr)
    (finish : Lowering Expr → Lowering Stmt) : Desugar (List Stmt) := do
  match saved with
  | none => flush (finish value)
  | some name =>
    let ahead ← storing name value
    return ahead ++ (← flush (finish (return .ofName name)))

/-- The call that stores an attribute. -/
def settingAttribute (object : Lowering Expr) (id : String) (value : Lowering Expr) :
    Lowering Stmt := do
  return .expression (← supporting "setattr" [object, return .ofText id, value])

/-- The call that stores an item. -/
def settingItem (object key value : Lowering Expr) : Lowering Stmt := do
  return .expression (← supporting "setitem" [object, key, value])

def isStarred : Expr → Bool
  | .starred .. => true
  | _ => false

/-- An assignment to the elements of a pattern. The value is unpacked into a
temporary tuple, which is let go whatever happens. -/
def unpacking (position : Position) (items : List Expr) (value : Lowering Expr)
    (assign : String → Desugar (List Stmt)) : Desugar (List Stmt) := do
  match (items.filter isStarred).drop 1 with
  | second :: _ => Desugar.refuse second.start .severalStarredTargets
  | [] =>
    let unpacked ← Desugar.fresh "tmp"
    Desugar.apply .assign .visit position
    let spec := Expr.tupleOf (items.map fun item => .ofBool !isStarred item)
    let ahead ← storing unpacked (supporting "unpack" [value, return spec])
    let body ← assign unpacked
    return ahead ++
      [.tryBlock .unknown (Stmt.orPass body) [] [] [.store unpacked .absent]]

/-! ## Expressions and targets -/

mutual

/-- Lowers an expression. -/
def lower (env : Env) : Expr → Lowering Expr
  | .name position id => return .name position id
  | .literal position raw value => return .literal position raw value
  | .fstring _ _ parts => do
    touch
    joining env (lowerParts env parts)
  | .field _ value conversion spec => do
    touch
    formatting conversion (lower env value) (lowerSpec env spec)
  | .call callee arguments closing => do
    match ← operands (lower env callee :: (lowerItems env arguments).map Item.argument) with
    | callee :: arguments => return .call callee arguments closing
    | [] => return .absent
  | .keyword position id value => do return .keyword position id (← lower env value)
  | .starred position op value => do return .starred position op (← lower env value)
  | .member object position id => memberOf env object position id (lower env object)
  | .subscript object key _ => do
    touch
    supporting "getitem" [lower env object, lower env key]
  | .slice _ first last step => do
    touch
    supporting "slice" [lowerOrAbsent env first, lowerOrAbsent env last, lowerOrAbsent env step]
  | .binary left _ op right => do
    touch
    supporting op.function [lower env left, lower env right]
  | .logical left position op right =>
    shortCircuit op position (lower env left) (lower env right)
  | .compare left ops rights =>
    chained (lower env left) (ops.zip (rights.zip (lowerList env rights)))
  | .unary position op operand => do
    touch
    match Expr.negated? position op operand with
    | some number => return number
    | none => supporting op.function [lower env operand]
  | .conditional test whenTrue whenFalse =>
    choosing (lower env test) (lower env whenTrue) (lower env whenFalse)
  | .lambda position params body => do
    touch
    let name ← fresh "lambda"
    emit <| flush do
      let params ← lowerParams env params
      let result ← flush do
        return .returns position (some (← lower { env with frame := .functionFrame name } body))
      return .function [] position ⟨position, name⟩ (params.map Param.withoutHint) none result
    return .ofName name
  | .list opening items closing => do
    let items := lowerItems env items
    if items.any Item.isUnpacked then
      touch
      supporting "list" [splat items]
    else return .list opening (← operands (items.map Item.argument)) closing
  | .tuple opening items closing => do
    let items := lowerItems env items
    if items.any Item.isUnpacked then
      touch
      splat items
    else return .tuple opening (← operands (items.map Item.argument)) closing
  | .set opening items closing => do
    let items := lowerItems env items
    if items.any Item.isUnpacked then
      touch
      supporting "set" [splat items]
    else return .set opening (← operands (items.map Item.argument)) closing
  | .dict opening items closing => do
    let items := lowerItems env items
    if items.any Item.isUnpacked then
      touch
      merge items
    else return .dict opening (← operands (items.map Item.argument)) closing
  | .entry key value => do
    match ← operands [lower env key, lower env value] with
    | [key, value] => return .entry key value
    | _ => return .absent
  | .comprehension kind opening body clauses closing => do
    touch
    let name ← fresh kind.text
    let iterator ← fresh "iter"
    let declares ← declaring env name (Expr.comprehension kind opening body clauses closing).start
      (comprehensionTargets body clauses)
    let result ← match kind with
      | .generator => pure ""
      | _ => fresh "result"
    let inner := { env with frame := .functionFrame name }
    let position := match clauses with
      | .loop position .. :: _ => position
      | _ => .unknown
    emit do
      let loops ← lowerClauses inner (some (.ofName iterator))
        (collecting kind result (lower inner body) (lowerEntry inner body)) clauses
      let starts := (emptyResult kind).toList.map (Stmt.store result)
      let stops := (emptyResult kind).toList.map fun _ => .returns .unknown (some (.ofName result))
      return [.function [] position ⟨position, name⟩ [.plain iterator] none
        (declares ++ starts ++ loops ++ stops)]
    applying (return .ofName name) [supporting "iter" (firstIterable env clauses)]
  | .named target value => assigning target.name (lower env value)
  | .yield position delegates value => do
    return .yield position delegates (← lowerOption env value)

def lowerOption (env : Env) : Option Expr → Lowering (Option Expr)
  | none => return none
  | some value => do return some (← lower env value)

/-- Lowers an expression that is `None` where it is left out. -/
def lowerOrAbsent (env : Env) : Option Expr → Lowering Expr
  | none => return .absent
  | some value => lower env value

def lowerList (env : Env) : List Expr → List (Lowering Expr)
  | [] => []
  | first :: rest => lower env first :: lowerList env rest

/-- Lowers the items of a display or the arguments of a call. -/
def lowerItems (env : Env) : List Expr → List (Item (Lowering Expr))
  | [] => []
  | .starred position op value :: rest =>
    .unpacked position op (lower env value) :: lowerItems env rest
  | first :: rest => .plain (lower env first) :: lowerItems env rest

/-- Lowers the parts of a formatted string. -/
def lowerParts (env : Env) : List Expr → List Part
  | [] => []
  | .literal _ _ (.text value) :: rest => .text value :: lowerParts env rest
  | .field _ value conversion spec :: rest =>
    .made (formatting conversion (lower env value) (lowerSpec env spec)) :: lowerParts env rest
  | _ :: rest => lowerParts env rest

def lowerSpec (env : Env) : Option Expr → List (Lowering Expr)
  | none => []
  | some spec => [lower env spec]

/-- Lowers the defaults of parameters. -/
def lowerParams (env : Env) : List Param → Lowering (List Param)
  | [] => return []
  | .mk kind position ident hint default :: rest => do
    let default ← lowerOption env default
    return .mk kind position ident hint default :: (← lowerParams env rest)

/-- The key and the value of an entry. -/
def lowerEntry (env : Env) : Expr → List (Lowering Expr)
  | .entry key value => [lower env key, lower env value]
  | _ => []

/-- The iterable that a comprehension is given from outside. -/
def firstIterable (env : Env) : List Clause → List (Lowering Expr)
  | .loop _ _ iterable :: _ => [lower env iterable]
  | _ => []

/-- Lowers the clauses of a comprehension around the statement that it runs for
each item. The first loop runs over what the comprehension is `given`. -/
def lowerClauses (env : Env) (given : Option Expr) (inner : Desugar (List Stmt)) :
    List Clause → Desugar (List Stmt)
  | [] => inner
  | .loop position target iterable :: rest =>
    let source := match given with
      | some given => return given
      | none => lower env iterable
    looping position (fun item => assignTo env target item (return item)) source
      (lowerClauses env none inner rest) none
  | .filter position test :: rest =>
    flush do
      let test ← lower env test
      return .conditional position test (← lowerClauses env none inner rest) .unknown []

/-- Lowers an assignment to a target; `value` is what its value was. -/
def assignTo (env : Env) : Expr → (value : Expr) → (lowered : Lowering Expr) →
    Desugar (List Stmt)
  | .name position id, _, lowered =>
    flush do return .assign [.name position id] (← lowered)
  | .tuple opening items closing, _, lowered =>
    unpacking (Expr.tuple opening items closing).start items lowered fun unpacked =>
      assignItems env unpacked 0 items
  | .list opening items closing, _, lowered =>
    unpacking (Expr.list opening items closing).start items lowered fun unpacked =>
      assignItems env unpacked 0 items
  | .member object position id, value, lowered => do
    if env.options.lowerAttributes && !object.isReservedPath then
      let saved ← saveAhead value [object]
      Desugar.apply .assign .visit object.start
      finishing saved lowered (settingAttribute (lower env object) id)
    else
      let saved ← if object.needsStatements && !value.isPure then some <$> Desugar.fresh "tmp"
        else pure none
      if saved.isSome then Desugar.apply .assign .visit object.start
      finishing saved lowered fun lowered => do
        let value ← lowered
        return .assign [.member (← lower env object) position id] value
  | .subscript object key _, value, lowered => do
    let saved ← saveAhead value [object, key]
    Desugar.apply .assign .visit object.start
    finishing saved lowered (settingItem (lower env object) (lower env key))
  | .starred position .., _, _ => Desugar.refuse position .loneStarredTarget
  | other, _, _ => Desugar.refuse other.start (.assignmentTo other.kindName)

/-- Lowers the assignments to the elements of a pattern from `index` on. A starred
element gets a list. -/
def assignItems (env : Env) (unpacked : String) (index : Nat) : List Expr → Desugar (List Stmt)
  | [] => return []
  | .starred _ _ target :: rest => do
    let item := Expr.supportCall "list" [.supportCall "getitem" [.ofName unpacked, .ofNat index]]
    let here ← assignTo env target item (return item)
    return here ++ (← assignItems env unpacked (index + 1) rest)
  | target :: rest => do
    let item := Expr.supportCall "getitem" [.ofName unpacked, .ofNat index]
    let here ← assignTo env target item (return item)
    return here ++ (← assignItems env unpacked (index + 1) rest)

end

end Lowering
end Unsugar
