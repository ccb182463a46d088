import Unsugar.Address
import Unsugar.Proofs.Tree.Revision

/-! The references of a module, and what addressing makes of them. A reference is an
occurrence of a name that is evaluated, bound or deleted, or the name of a function where it
is defined; it stands in frames, which are the bodies of functions and, last, the module. The
references of the addressed module are those of the module, each name written as its frames
ask for. -/

namespace Unsugar

/-! ## Names in expressions -/

namespace Expr

mutual

/-- The names in an expression that are evaluated, or bound by the clauses of a comprehension,
in the order in which the expression is revised. -/
def references : Expr → List String
  | name _ id => [id]
  | literal .. => []
  | fstring _ _ parts => referencesOfList parts
  | field _ value _ spec => references value ++ referencesOfOption spec
  | call callee arguments _ => references callee ++ referencesOfList arguments
  | keyword _ _ value => references value
  | starred _ _ value => references value
  | member object _ _ => references object
  | subscript object key _ => references object ++ references key
  | slice _ lower upper step =>
    referencesOfOption lower ++ referencesOfOption upper ++ referencesOfOption step
  | binary left _ _ right => references left ++ references right
  | logical left _ _ right => references left ++ references right
  | compare left _ rights => references left ++ referencesOfList rights
  | unary _ _ operand => references operand
  | conditional test whenTrue whenFalse =>
    references test ++ references whenTrue ++ references whenFalse
  | lambda _ params body => referencesOfParams params ++ references body
  | list _ items _ => referencesOfList items
  | tuple _ items _ => referencesOfList items
  | set _ items _ => referencesOfList items
  | dict _ items _ => referencesOfList items
  | entry key value => references key ++ references value
  | comprehension _ _ body clauses _ => referencesOfClauses clauses ++ references body
  | named _ value => references value
  | yield _ _ value => referencesOfOption value

/-- The names in a target that are bound or deleted, and those in the operands of its
attributes and subscripts. -/
def referencesOfTarget : Expr → List String
  | name _ id => [id]
  | list _ items _ => referencesOfTargets items
  | tuple _ items _ => referencesOfTargets items
  | starred _ _ value => referencesOfTarget value
  | member object _ _ => references object
  | subscript object key _ => references object ++ references key
  | _ => []

def referencesOfOption : Option Expr → List String
  | none => []
  | some value => references value

def referencesOfList : List Expr → List String
  | [] => []
  | first :: rest => references first ++ referencesOfList rest

def referencesOfTargets : List Expr → List String
  | [] => []
  | first :: rest => referencesOfTarget first ++ referencesOfTargets rest

def referencesOfParams : List Param → List String
  | [] => []
  | .mk _ _ _ hint default :: rest =>
    referencesOfOption hint ++ referencesOfOption default ++ referencesOfParams rest

def referencesOfClauses : List Clause → List String
  | [] => []
  | .loop _ target iterable :: rest =>
    references iterable ++ referencesOfTarget target ++ referencesOfClauses rest
  | .filter _ test :: rest => references test ++ referencesOfClauses rest

end

/-! ### Addressed names -/

section Revise

variable (place : Address.Place)

mutual

theorem references_revise : ∀ expr : Expr,
    (Id.run (expr.revise place.visitor)).references = expr.references.map place.address
  | .name .. => rfl
  | .literal .. => rfl
  | .fstring _ _ items | .list _ items _ | .tuple _ items _ | .set _ items _
  | .dict _ items _ => references_reviseList items
  | .field _ value _ spec => by
    rw [references, List.map_append, ← references_revise value, ← references_reviseOption spec]
    rfl
  | .call callee arguments _ => by
    rw [references, List.map_append, ← references_revise callee,
      ← references_reviseArguments arguments]
    rfl
  | .keyword _ _ value | .starred _ _ value | .member value _ _ | .unary _ _ value =>
    references_revise value
  | .subscript left right _ | .binary left _ _ right | .logical left _ _ right
  | .entry left right => by
    rw [references, List.map_append, ← references_revise left, ← references_revise right]
    rfl
  | .slice _ lower upper step => by
    rw [references, List.map_append, List.map_append, ← references_reviseOption lower,
      ← references_reviseOption upper, ← references_reviseOption step]
    rfl
  | .compare left _ rights => by
    rw [references, List.map_append, ← references_revise left, ← references_reviseList rights]
    rfl
  | .conditional test whenTrue whenFalse => by
    rw [references, List.map_append, List.map_append, ← references_revise test,
      ← references_revise whenTrue, ← references_revise whenFalse]
    rfl
  | .lambda _ params body => by
    rw [references, List.map_append, ← references_reviseParams params, ← references_revise body]
    rfl
  | .comprehension _ _ body clauses _ => by
    rw [references, List.map_append, ← references_reviseClauses clauses, ← references_revise body]
    rfl
  | .named _ value => references_revise value
  | .yield _ _ value => references_reviseOption value

theorem references_reviseTarget : ∀ expr : Expr,
    (Id.run (expr.reviseTarget place.visitor)).referencesOfTarget =
      expr.referencesOfTarget.map place.address
  | .name .. => rfl
  | .list _ items _ | .tuple _ items _ => references_reviseTargets items
  | .starred _ _ value => references_reviseTarget value
  | .member object _ _ => references_revise object
  | .subscript object key _ => by
    rw [referencesOfTarget, List.map_append, ← references_revise object, ← references_revise key]
    rfl
  | .literal .. | .fstring .. | .field .. | .call .. | .keyword .. | .slice .. | .binary ..
  | .logical .. | .compare .. | .unary .. | .conditional .. | .lambda .. | .set .. | .dict ..
  | .entry .. | .comprehension .. | .named .. | .yield .. => rfl

theorem references_reviseOption : ∀ value : Option Expr,
    referencesOfOption (Id.run (reviseOption place.visitor value)) =
      (referencesOfOption value).map place.address
  | none => rfl
  | some value => references_revise value

theorem references_reviseList : ∀ items : List Expr,
    referencesOfList (Id.run (reviseList place.visitor items)) =
      (referencesOfList items).map place.address
  | [] => rfl
  | first :: rest => by
    rw [referencesOfList, List.map_append, ← references_revise first, ← references_reviseList rest]
    rfl

/-- No argument of a call is replaced as a whole. -/
theorem references_reviseArguments : ∀ items : List Expr,
    referencesOfList (Id.run (reviseArguments place.visitor [] items)) =
      (referencesOfList items).map place.address
  | [] => rfl
  | first :: rest => by
    rw [referencesOfList, List.map_append, ← references_revise first,
      ← references_reviseArguments rest]
    rfl

theorem references_reviseTargets : ∀ items : List Expr,
    referencesOfTargets (Id.run (reviseTargets place.visitor items)) =
      (referencesOfTargets items).map place.address
  | [] => rfl
  | first :: rest => by
    rw [referencesOfTargets, List.map_append, ← references_reviseTarget first,
      ← references_reviseTargets rest]
    rfl

theorem references_reviseParams : ∀ params : List Param,
    referencesOfParams (Id.run (reviseParams place.visitor params)) =
      (referencesOfParams params).map place.address
  | [] => rfl
  | .mk _ _ _ hint default :: rest => by
    rw [referencesOfParams, List.map_append, List.map_append, ← references_reviseOption hint,
      ← references_reviseOption default, ← references_reviseParams rest]
    rfl

theorem references_reviseClauses : ∀ clauses : List Clause,
    referencesOfClauses (Id.run (reviseClauses place.visitor clauses)) =
      (referencesOfClauses clauses).map place.address
  | [] => rfl
  | .loop _ target iterable :: rest => by
    rw [referencesOfClauses, List.map_append, List.map_append, ← references_revise iterable,
      ← references_reviseTarget target, ← references_reviseClauses rest]
    rfl
  | .filter _ test :: rest => by
    rw [referencesOfClauses, List.map_append, ← references_revise test,
      ← references_reviseClauses rest]
    rfl

end

end Revise

end Expr
/-! ## Frames -/

namespace Address

/-- The body of the module, or of a function, with the number of functions it is nested in,
itself included. A function that fills the namespace of a class does not count. -/
structure Frame where
  /-- The function, if it is not the module. -/
  head : Option FunctionHead
  body : List Stmt
  depth : Nat

namespace Frame

def ofModule (body : List Stmt) : Frame := ⟨none, body, 0⟩

/-- The body of a function that is defined in a frame. -/
def within (frame : Frame) (head : FunctionHead) (body : List Stmt) : Frame :=
  ⟨some head, body, if Place.fillsNamespace head then frame.depth else frame.depth + 1⟩

variable (frame : Frame)

def isFunction : Bool := frame.head.isSome

/-- Whether a frame is a function that fills the namespace of a class. -/
def isNamespace : Bool := frame.head.any Place.fillsNamespace

def params : List Param := (frame.head.map (·.params)).getD []

/-- How a frame binds a name. -/
def binding? (name : String) : Option Binding :=
  (collect .functionScope frame.params frame.body).binding? name

def kind : FrameKind :=
  match frame.head with
  | none => .moduleFrame
  | some head => if Place.fillsNamespace head then .namespaceFrame else .functionFrame

def level : Level :=
  ⟨frame.kind, (collect .functionScope frame.params frame.body).bindings, frame.depth⟩

end Frame

/-- A name where it occurs, with the frame it stands in and those around, the nearest first. -/
structure Reference where
  frame : Frame
  outer : List Frame
  name : String

def placeOf (frame : Frame) (outer : List Frame) : Place :=
  ⟨frame.level, outer.map Frame.level⟩

/-- The name as it is written by addressing. -/
def Reference.written (reference : Reference) : String :=
  (placeOf reference.frame reference.outer).address reference.name

/-- The references to names in a frame. -/
def inFrame (frame : Frame) (outer : List Frame) (names : List String) : List Reference :=
  names.map fun name => ⟨frame, outer, name⟩

end Address

/-! ## Names in statements -/

/-- The names in the defaults of parameters. -/
def Param.referencesOfDefaults : List Param → List String
  | [] => []
  | .mk _ _ _ _ default :: rest => Expr.referencesOfOption default ++ referencesOfDefaults rest

def WithItem.references (item : WithItem) : List String :=
  item.manager.references ++ (item.target.map Expr.referencesOfTarget).getD []

namespace Stmt

open Unsugar.Expr Address

/-- The references of a statement in the frame it stands in, apart from the bodies in it. -/
def referencesOfHead : Stmt → List String
  | expression value => value.references
  | assign targets value => value.references ++ referencesOfTargets targets
  | augAssign target _ value => target.referencesOfTarget ++ value.references
  | annAssign target hint value =>
    target.referencesOfTarget ++ hint.references ++ referencesOfOption value
  | delete _ targets => referencesOfTargets targets
  | returns _ result => referencesOfOption result
  | raises _ exception cause => referencesOfOption exception ++ referencesOfOption cause
  | asserts _ test message => test.references ++ referencesOfOption message
  | conditional _ test .. | whileLoop _ test .. => test.references
  | forLoop _ target iterable .. => iterable.references ++ target.referencesOfTarget
  | withBlock _ items _ => items.flatMap WithItem.references
  | function decorators _ ident params .. =>
    referencesOfList decorators ++ Param.referencesOfDefaults params ++ [ident.name]
  | classDef decorators _ _ bases _ => referencesOfList decorators ++ referencesOfList bases
  | tryBlock .. | branch .. | declare .. | imports .. | importFrom .. => []

mutual

/-- The references of a statement. -/
def references (frame : Address.Frame) (outer : List Address.Frame) (stmt : Stmt) :
    List Reference :=
  inFrame frame outer stmt.referencesOfHead ++
    match stmt with
    | conditional _ _ body _ orelse | whileLoop _ _ body orelse | forLoop _ _ _ body orelse =>
      referencesOfBody frame outer body ++ referencesOfBody frame outer orelse
    | tryBlock _ body handlers orelse final =>
      referencesOfBody frame outer body ++ referencesOfHandlers frame outer handlers ++
        referencesOfBody frame outer orelse ++ referencesOfBody frame outer final
    | withBlock _ _ body | classDef _ _ _ _ body => referencesOfBody frame outer body
    | function decorators position ident params result body =>
      referencesOfBody (frame.within ⟨decorators, position, ident, params, result⟩ body)
        (frame :: outer) body
    | _ => []

/-- The references of the statements of a body. -/
def referencesOfBody (frame : Address.Frame) (outer : List Address.Frame) :
    List Stmt → List Reference
  | [] => []
  | first :: rest => references frame outer first ++ referencesOfBody frame outer rest

def referencesOfHandlers (frame : Address.Frame) (outer : List Address.Frame) :
    List Handler → List Reference
  | [] => []
  | .mk _ type _ body :: rest =>
    inFrame frame outer (referencesOfOption type) ++ referencesOfBody frame outer body ++
      referencesOfHandlers frame outer rest

end

end Stmt

namespace Address

/-- The references of a module. -/
def references (body : List Stmt) : List Reference :=
  Stmt.referencesOfBody (Frame.ofModule body) [] body

/-! ## References of the addressed module -/

section Written

variable {frame : Frame} {outer : List Frame}

@[simp] theorem map_name_inFrame (names : List String) :
    (inFrame frame outer names).map Reference.name = names := by
  rw [inFrame, List.map_map]
  exact List.map_id names

@[simp] theorem map_written_inFrame (names : List String) :
    (inFrame frame outer names).map Reference.written =
      names.map (placeOf frame outer).address := by
  rw [inFrame, List.map_map]
  rfl

end Written

/-- A name is written as it is, or with a depth. -/
theorem Place.address_eq (place : Place) (name : String) :
    place.address name = name ∨
      ∃ depth : Nat, place.address name = name ++ "@" ++ toString depth := by
  unfold Place.address
  split
  case isTrue => exact .inl rfl
  case isFalse =>
    split
    case h_1 => exact .inl rfl
    case h_2 => exact .inr ⟨0, by rw [String.append_assoc]; rfl⟩
    case h_3 => exact .inr ⟨_, rfl⟩

/-- A text that does not have a mark in it is no longer a beginning beyond the mark. -/
theorem beginsWithText_marked {front name : String} (rest : String) (none : '@' ∉ front.toList) :
    beginsWithText front (name ++ "@" ++ rest) = beginsWithText front name := by
  have chars : (name ++ "@" ++ rest).toList = name.toList ++ '@' :: rest.toList := by
    simp
  rw [beginsWithText, beginsWithText, Bool.eq_iff_iff, List.isPrefixOf_iff_prefix,
    List.isPrefixOf_iff_prefix, chars]
  refine ⟨?_, fun begins => begins.trans (List.prefix_append _ _)⟩
  rintro ⟨beyond, split⟩
  rcases List.append_eq_append_iff.mp split with ⟨more, within, -⟩ | ⟨more, within, marked⟩
  · exact ⟨more, within.symm⟩
  · cases more with
    | nil => exact ⟨[], by rw [within, List.append_nil, List.append_nil]⟩
    | cons mark more =>
      obtain ⟨rfl, -⟩ := List.cons.inj marked
      exact absurd (within ▸ List.mem_append_right _ List.mem_cons_self) none

section Inside

variable (place : Place) (head : FunctionHead)

/-- The head of a function as it is written in the body around. -/
def addressHead : FunctionHead :=
  { head with
    decorators := Id.run (Expr.reviseList place.visitor head.decorators)
    params := head.params.map place.addressDefault
    ident := ⟨head.ident.position, place.address head.ident.name⟩ }

theorem beginsWithText_address {front name : String} (none : '@' ∉ front.toList) :
    beginsWithText front (place.address name) = beginsWithText front name := by
  rcases place.address_eq name with same | ⟨depth, same⟩
  · rw [same]
  · rw [same, beginsWithText_marked _ none]

/-- Whether a function fills a namespace does not change. -/
theorem fillsNamespace_addressHead :
    Place.fillsNamespace (addressHead place head) = Place.fillsNamespace head := by
  unfold Place.fillsNamespace addressHead
  dsimp only
  rw [beginsWithText_address place (by decide)]
  cases head.params with
  | nil => rfl
  | cons first rest =>
    cases first
    rfl

theorem foldl_addParam_addressDefault (params : List Param) (names : Names) :
    (params.map place.addressDefault).foldl Names.addParam names =
      params.foldl Names.addParam names := by
  induction params generalizing names with
  | nil => rfl
  | cons first rest induction =>
    cases first
    exact induction _

/-- A body is collected with its parameters, whose names are left as they are. -/
theorem collect_addressDefault (params : List Param) (body : List Stmt) :
    collect .functionScope (params.map place.addressDefault) body =
      collect .functionScope params body := by
  rw [collect, foldl_addParam_addressDefault, collect]

theorem level_within (frame : Frame) (body : List Stmt) :
    (frame.within head body).level =
      if Place.fillsNamespace head then
        ⟨.namespaceFrame, (collect .functionScope head.params body).bindings, frame.depth⟩
      else
        ⟨.functionFrame, (collect .functionScope head.params body).bindings, frame.depth + 1⟩ := by
  cases fills : Place.fillsNamespace head <;>
    simp [Frame.level, Frame.kind, Frame.within, Frame.params, fills]

theorem inside_addressHead (frame : Frame) (outer : List Frame) (body : List Stmt) :
    (placeOf frame outer).inside (addressHead (placeOf frame outer) head) body =
      placeOf (frame.within head body) (frame :: outer) := by
  have params : (addressHead (placeOf frame outer) head).params =
    head.params.map (placeOf frame outer).addressDefault := rfl
  rw [Place.inside, fillsNamespace_addressHead, params, collect_addressDefault, placeOf, placeOf,
    level_within]
  rfl

end Inside

theorem referencesOfDefaults_addressDefault (place : Place) (params : List Param) :
    Param.referencesOfDefaults (params.map place.addressDefault) =
      (Param.referencesOfDefaults params).map place.address := by
  induction params with
  | nil => rfl
  | cons first rest induction =>
    obtain ⟨_, _, _, _, default⟩ := first
    have here := Expr.references_reviseOption place default
    rw [Param.referencesOfDefaults, List.map_append, ← here, ← induction]
    rfl

theorem references_withItems (place : Place) : ∀ items : List WithItem,
    (Id.run (Pass.withItems place.visitor items)).flatMap WithItem.references =
      (items.flatMap WithItem.references).map place.address
  | [] => rfl
  | ⟨manager, none⟩ :: rest => by
    rw [List.flatMap_cons, List.map_append, ← references_withItems place rest,
      WithItem.references, List.map_append, ← manager.references_revise place]
    rfl
  | ⟨manager, some target⟩ :: rest => by
    have here : ((some target).map Expr.referencesOfTarget).getD [] = target.referencesOfTarget :=
      rfl
    rw [List.flatMap_cons, List.map_append, ← references_withItems place rest,
      WithItem.references, List.map_append, ← manager.references_revise place, here,
      ← target.references_reviseTarget place]
    rfl

end Address

namespace Stmt

open Unsugar.Expr Address

theorem referencesOfBody_append (frame : Address.Frame) (outer : List Address.Frame)
    (first second : List Stmt) :
    referencesOfBody frame outer (first ++ second) =
      referencesOfBody frame outer first ++ referencesOfBody frame outer second := by
  induction first with
  | nil => rfl
  | cons stmt rest induction =>
    rw [List.cons_append, referencesOfBody, referencesOfBody, induction, List.append_assoc]

/-- A statement that holds no others refers to what stands in its head. -/
theorem references_of_isSimple {stmt : Stmt} (simple : stmt.isSimple = true)
    (frame : Address.Frame) (outer : List Address.Frame) :
    references frame outer stmt = inFrame frame outer stmt.referencesOfHead := by
  cases stmt with
  | conditional | whileLoop | forLoop | tryBlock | withBlock | function | classDef => cases simple
  | _ => exact List.append_nil _

theorem referencesOfHead_reviseSimple (place : Address.Place) (stmt : Stmt)
    (simple : stmt.isSimple = true) :
    (Id.run (stmt.reviseSimple place.visitor)).referencesOfHead =
      stmt.referencesOfHead.map place.address := by
  cases stmt with
  | expression value => exact value.references_revise place
  | assign targets value =>
    rw [referencesOfHead, List.map_append, ← value.references_revise place,
      ← references_reviseTargets place targets]
    rfl
  | augAssign target op value =>
    rw [referencesOfHead, List.map_append, ← value.references_revise place,
      ← target.references_reviseTarget place]
    rfl
  | annAssign target hint value =>
    rw [referencesOfHead, List.map_append, List.map_append, ← target.references_reviseTarget place,
      ← hint.references_revise place, ← references_reviseOption place value]
    rfl
  | delete position targets => exact references_reviseTargets place targets
  | returns position result => exact references_reviseOption place result
  | raises position exception cause =>
    rw [referencesOfHead, List.map_append, ← references_reviseOption place exception,
      ← references_reviseOption place cause]
    rfl
  | asserts position test message =>
    rw [referencesOfHead, List.map_append, ← test.references_revise place,
      ← references_reviseOption place message]
    rfl
  | branch | declare | imports | importFrom => rfl
  | _ => cases simple

/-- A declaration goes, and the names in any other statement without a body are written. -/
theorem references_address_of_isSimple {stmt : Stmt} (simple : stmt.isSimple = true)
    (frame other : Address.Frame) (outer around : List Address.Frame) :
    (referencesOfBody other around
        (Id.run (Address.pass.simple (placeOf frame outer) stmt))).map Reference.name =
      (references frame outer stmt).map Reference.written := by
  have written := referencesOfHead_reviseSimple (placeOf frame outer) stmt simple
  rw [references_of_isSimple simple, map_written_inFrame, ← written]
  cases stmt with
  | conditional | whileLoop | forLoop | tryBlock | withBlock | function | classDef => cases simple
  | declare => rfl
  | _ =>
    refine Eq.trans (congrArg (List.map Reference.name) (List.append_nil _)) ?_
    refine Eq.trans (congrArg (List.map Reference.name) (List.append_nil _)) ?_
    exact map_name_inFrame _

mutual

/-- The references of an addressed statement are those of the statement as they are written,
whatever frames the former stand in. -/
theorem references_address : ∀ (stmt : Stmt) (next : Option Stmt)
    (frame other : Address.Frame) (outer around : List Address.Frame),
    (referencesOfBody other around
        (Id.run (Address.pass.stmt (placeOf frame outer) next stmt))).map Reference.name =
      (references frame outer stmt).map Reference.written
  | .conditional position test body elsePosition orelse, _, frame, other, outer, around => by
    have inTest := test.references_revise (placeOf frame outer)
    have inBody := referencesOfBody_address body frame other outer around
    have inElse := referencesOfBody_address orelse frame other outer around
    change (references other around (.conditional position
      (Id.run (test.revise (placeOf frame outer).visitor))
      (Id.run (Address.pass.body (placeOf frame outer) body)) elsePosition
      (Id.run (Address.pass.body (placeOf frame outer) orelse))) ++ []).map Reference.name = _
    simp only [references, referencesOfHead, List.append_nil, List.map_append,
      map_name_inFrame, map_written_inFrame, inBody, inElse, inTest]
  | .whileLoop position test body orelse, _, frame, other, outer, around => by
    have inTest := test.references_revise (placeOf frame outer)
    have inBody := referencesOfBody_address body frame other outer around
    have inElse := referencesOfBody_address orelse frame other outer around
    change (references other around (.whileLoop position
      (Id.run (test.revise (placeOf frame outer).visitor))
      (Id.run (Address.pass.body (placeOf frame outer) body))
      (Id.run (Address.pass.body (placeOf frame outer) orelse))) ++ []).map Reference.name = _
    simp only [references, referencesOfHead, List.append_nil, List.map_append,
      map_name_inFrame, map_written_inFrame, inBody, inElse, inTest]
  | .forLoop position target iterable body orelse, _, frame, other, outer, around => by
    have inTarget := target.references_reviseTarget (placeOf frame outer)
    have inIterable := iterable.references_revise (placeOf frame outer)
    have inBody := referencesOfBody_address body frame other outer around
    have inElse := referencesOfBody_address orelse frame other outer around
    change (references other around (.forLoop position
      (Id.run (target.reviseTarget (placeOf frame outer).visitor))
      (Id.run (iterable.revise (placeOf frame outer).visitor))
      (Id.run (Address.pass.body (placeOf frame outer) body))
      (Id.run (Address.pass.body (placeOf frame outer) orelse))) ++ []).map Reference.name = _
    simp only [references, referencesOfHead, List.append_nil, List.map_append,
      map_name_inFrame, map_written_inFrame, inBody, inElse, inTarget, inIterable]
  | .tryBlock position body handlers orelse final, _, frame, other, outer, around => by
    have inBody := referencesOfBody_address body frame other outer around
    have inHandlers := referencesOfHandlers_address handlers frame other outer around
    have inElse := referencesOfBody_address orelse frame other outer around
    have inFinal := referencesOfBody_address final frame other outer around
    change (references other around (.tryBlock position
      (Id.run (Address.pass.body (placeOf frame outer) body))
      (Id.run (Address.pass.handlers (placeOf frame outer) handlers))
      (Id.run (Address.pass.body (placeOf frame outer) orelse))
      (Id.run (Address.pass.body (placeOf frame outer) final))) ++ []).map Reference.name = _
    simp only [references, referencesOfHead, List.append_nil, List.map_append,
      map_name_inFrame, map_written_inFrame, inBody, inHandlers, inElse, inFinal, List.map_nil]
  | .withBlock position items body, _, frame, other, outer, around => by
    have inItems := references_withItems (placeOf frame outer) items
    have inBody := referencesOfBody_address body frame other outer around
    change (references other around (.withBlock position
      (Id.run (Pass.withItems (placeOf frame outer).visitor items))
      (Id.run (Address.pass.body (placeOf frame outer) body))) ++ []).map Reference.name = _
    simp only [references, referencesOfHead, List.append_nil, List.map_append,
      map_name_inFrame, map_written_inFrame, inBody, inItems]
  | .function decorators position ident params result body, next, frame, other, outer, around => by
    let place := placeOf frame outer
    let head : FunctionHead := ⟨decorators, position, ident, params, result⟩
    let inner := frame.within head body
    let revised := Id.run (Address.pass.body (placeOf inner (frame :: outer)) body)
    have inDecorators := references_reviseList place decorators
    have inDefaults := referencesOfDefaults_addressDefault place params
    have inBody := referencesOfBody_address body inner
      (other.within (addressHead place head) revised) (frame :: outer) (other :: around)
    -- The body is collected as it was, and its place is that of the function as it was.
    have entered : Id.run (Address.pass.stmt place next
        (.function decorators position ident params result body)) =
        [(addressHead place head).withBody revised] := by
      change [(addressHead place head).withBody (Id.run (Address.pass.body
        (place.inside (addressHead place head) body) body))] = _
      rw [inside_addressHead]
    rw [entered]
    change (inFrame other around (referencesOfList (Id.run (reviseList place.visitor decorators)) ++
        Param.referencesOfDefaults (params.map place.addressDefault) ++
        [place.address ident.name]) ++
      referencesOfBody (other.within (addressHead place head) revised) (other :: around) revised ++
      []).map Reference.name = _
    rw [List.append_nil, List.map_append, map_name_inFrame, inBody, inDecorators, inDefaults,
      references, List.map_append, map_written_inFrame, referencesOfHead, List.map_append,
      List.map_append]
    rfl
  | .classDef decorators position ident bases body, _, frame, other, outer, around => by
    have inDecorators := references_reviseList (placeOf frame outer) decorators
    have inBases := references_reviseList (placeOf frame outer) bases
    have inBody := referencesOfBody_address body frame other outer around
    change (references other around (.classDef
      (Id.run (reviseList (placeOf frame outer).visitor decorators)) position ident
      (Id.run (reviseList (placeOf frame outer).visitor bases))
      (Id.run (Address.pass.body (placeOf frame outer) body))) ++ []).map Reference.name = _
    simp only [references, referencesOfHead, List.append_nil, List.map_append,
      map_name_inFrame, map_written_inFrame, inBody, inDecorators, inBases]
  | .expression .., _, frame, other, outer, around | .assign .., _, frame, other, outer, around
  | .augAssign .., _, frame, other, outer, around | .annAssign .., _, frame, other, outer, around
  | .delete .., _, frame, other, outer, around | .branch .., _, frame, other, outer, around
  | .returns .., _, frame, other, outer, around | .raises .., _, frame, other, outer, around
  | .declare .., _, frame, other, outer, around | .asserts .., _, frame, other, outer, around
  | .imports .., _, frame, other, outer, around | .importFrom .., _, frame, other, outer, around =>
    references_address_of_isSimple rfl frame other outer around

theorem referencesOfBody_address : ∀ (body : List Stmt)
    (frame other : Address.Frame) (outer around : List Address.Frame),
    (referencesOfBody other around
        (Id.run (Address.pass.body (placeOf frame outer) body))).map Reference.name =
      (referencesOfBody frame outer body).map Reference.written
  | [], _, _, _, _ => rfl
  | first :: rest, frame, other, outer, around => by
    rw [referencesOfBody, List.map_append,
      ← references_address first rest.head? frame other outer around,
      ← referencesOfBody_address rest frame other outer around, ← List.map_append,
      ← referencesOfBody_append]
    rfl

theorem referencesOfHandlers_address : ∀ (handlers : List Handler)
    (frame other : Address.Frame) (outer around : List Address.Frame),
    (referencesOfHandlers other around
        (Id.run (Address.pass.handlers (placeOf frame outer) handlers))).map Reference.name =
      (referencesOfHandlers frame outer handlers).map Reference.written
  | [], _, _, _, _ => rfl
  | .mk position type ident body :: rest, frame, other, outer, around => by
    have inType := references_reviseOption (placeOf frame outer) type
    have inBody := referencesOfBody_address body frame other outer around
    have later := referencesOfHandlers_address rest frame other outer around
    change (referencesOfHandlers other around (.mk position
      (Id.run (reviseOption (placeOf frame outer).visitor type)) ident
      (Id.run (Address.pass.body (placeOf frame outer) body)) ::
      Id.run (Address.pass.handlers (placeOf frame outer) rest))).map Reference.name = _
    simp only [referencesOfHandlers, List.map_append, map_name_inFrame, map_written_inFrame,
      inType, inBody, later]

end

end Stmt

namespace Address

/-- The references of an addressed module are those of the module as they are written. -/
theorem references_addressNames (body : List Stmt) :
    (references (addressNames body)).map Reference.name =
      (references body).map Reference.written :=
  Stmt.referencesOfBody_address body (.ofModule body) (.ofModule (addressNames body)) [] []

end Address
end Unsugar
