import Unsugar.Definition.Class

/-! Names addressed by depth. A name that is not local to the function it stands
in becomes `name@depth`, where the depth is that of the function that binds it:
zero for the module, one for a function in it, and so on. A function that fills
the namespace of a class has the depth of the body around it, and no name is
looked up in it from inside. -/

namespace Unsugar
namespace Address

inductive FrameKind where
  | moduleFrame
  | functionFrame
  /-- A function that fills the namespace of a class. -/
  | namespaceFrame
  deriving DecidableEq

/-- The body of the module or of a function. -/
structure Level where
  kind : FrameKind
  bindings : List (String × Binding)
  depth : Nat

/-- A body and those around it, the nearest first. -/
structure Place where
  here : Level
  outer : List Level

/-- The depth of the nearest body that binds a name as its own, namespaces
skipped. A name that no body binds has depth zero. -/
def depthOf (name : String) : List Level → Nat
  | [] => 0
  | level :: outer =>
    if level.kind = .namespaceFrame then depthOf name outer
    else match level.bindings.lookup name with
      | none | some .nonlocal => depthOf name outer
      | some .global => 0
      | some .own => level.depth

namespace Place

/-- Whether a name is never addressed by depth. -/
def isExempt (place : Place) (name : String) : Bool :=
  place.here.kind = .moduleFrame || isReserved name || name.toList.contains '@' ||
    name == "__classcell__" || (place.here.kind = .namespaceFrame && name == "__class__")

/-- A name as it is written in a body. -/
def address (place : Place) (name : String) : String :=
  if place.isExempt name then name
  else match place.here.bindings.lookup name with
    | some .own => name
    | some .global => name ++ "@0"
    | _ => name ++ "@" ++ toString (depthOf name place.outer)

def visitor (place : Place) : Visitor Id where
  expr
    | .name position id => some (.name position (place.address id))
    | _ => none
  target
    | .name position id => some (.name position (place.address id))
    | _ => none

/-- A parameter with the names in its default as they are written in the body around. -/
def addressDefault (place : Place) : Param → Param
  | .mk kind position ident hint default =>
    .mk kind position ident hint (Id.run (Expr.reviseOption place.visitor default))

/-- Whether a function fills the namespace of a class. -/
def fillsNamespace (head : FunctionHead) : Bool :=
  beginsWithText "_dp_class_ns_" head.ident.name &&
    match head.params with
    | first :: _ => first.ident.any (·.name == Definition.namespaceParam)
    | [] => false

/-- The body of a function in a body. -/
def inside (place : Place) (head : FunctionHead) (body : List Stmt) : Place :=
  let bindings := (collect .functionScope head.params body).bindings
  let level : Level :=
    if fillsNamespace head then ⟨.namespaceFrame, bindings, place.here.depth⟩
    else ⟨.functionFrame, bindings, place.here.depth + 1⟩
  ⟨level, place.here :: place.outer⟩

end Place

def pass : Pass Id Place :=
  { Pass.unchanged with
    visitor := fun place => place.visitor
    test := fun place test => test.revise place.visitor
    simple := fun place => fun
      | .declare .. => [.pass]
      | stmt => [Id.run (stmt.reviseSimple place.visitor)]
    enterFunction := fun place head body =>
      let decorators := Id.run (Expr.reviseList place.visitor head.decorators)
      let params := head.params.map place.addressDefault
      let ident : Ident := ⟨head.ident.position, place.address head.ident.name⟩
      let head := { head with decorators, params, ident }
      (head, some (place.inside head body))
    enterClass := fun place head =>
      let decorators := Id.run (Expr.reviseList place.visitor head.decorators)
      let bases := Id.run (Expr.reviseList place.visitor head.bases)
      ({ head with decorators, bases }, some place) }

end Address

/-- Addresses the names of a module by depth. -/
def addressNames (body : List Stmt) : List Stmt :=
  let level : Address.Level := ⟨.moduleFrame, (collect .functionScope [] body).bindings, 0⟩
  Id.run (Address.pass.body ⟨level, []⟩ body)

end Unsugar
