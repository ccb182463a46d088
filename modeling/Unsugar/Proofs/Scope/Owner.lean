import Unsugar.Proofs.Scope.Binding

/-! Owners of captured names. The scopes around a body are a list, so the owner of a
name has a place in it, and two lists in which corresponding scopes bind the name in
the same way have its owner in the same place. -/

namespace Unsugar
/-- The binding of a name once captured names are added: a name that the body uses and does
not bind is captured if the scopes around it let it. -/
theorem Names.capture_binding? (names : Names) (outer : Enclosing) (name : String) :
    (names.capture outer).binding? name = (names.binding? name).or
      (if names.uses.contains name && !isReserved name && outer.captures name then some .nonlocal
        else none) := by
  have marked : ∀ captured : List String, List.lookup name (captured.map (·, Binding.nonlocal)) =
      if captured.contains name then some .nonlocal else none := by
    intro captured
    induction captured with
    | nil => rfl
    | cons first rest induction =>
      by_cases same : name = first
      · simp [same]
      · simpa [List.lookup_cons, beq_false_of_ne same, same] using induction
  have split : (names.capture outer).binding? name = (names.binding? name).or
      (List.lookup name ((names.uses.filter fun name =>
        (names.binding? name).isNone && !isReserved name && outer.captures name).map
          (·, Binding.nonlocal))) := List.lookup_append
  rw [split, marked]
  cases bound : names.binding? name with
  | some binding => rfl
  | none => simp [List.mem_filter, bound, Bool.and_assoc]

namespace Enclosing

variable {name : String}

/-- The place of the owner of a name among the scopes around a body. -/
def ownerPlace? (name : String) : Enclosing → Option Nat
  | [] => none
  | scope :: outer =>
    match scope.kind with
    | .classScope => (ownerPlace? name outer).map (· + 1)
    | .moduleScope => none
    | .functionScope =>
      match scope.binding? name with
      | none | some .nonlocal => (ownerPlace? name outer).map (· + 1)
      | some .own => some 0
      | some .global => none

theorem owner?_eq_getElem? (name : String) : ∀ outer : Enclosing,
    outer.owner? name = (outer.ownerPlace? name).bind (outer[·]?)
  | [] => rfl
  | scope :: outer => by
    have below := owner?_eq_getElem? name outer
    have shifted : ((ownerPlace? name outer).map (· + 1)).bind ((scope :: outer)[·]?) =
        (ownerPlace? name outer).bind (outer[·]?) := by
      cases ownerPlace? name outer <;> rfl
    unfold owner? ownerPlace?
    cases scope.kind with
    | moduleScope => rfl
    | classScope => rw [below, shifted]
    | functionScope =>
      cases scope.binding? name with
      | none => rw [below, shifted]
      | some binding =>
        cases binding with
        | own => rfl
        | global => rfl
        | «nonlocal» => rw [below, shifted]

theorem captures_of_owner? : ∀ {outer : Enclosing},
    (outer.owner? name).isSome = true → outer.captures name = true
  | [], found => by cases found
  | scope :: outer, found => by
    unfold owner? at found
    unfold captures
    cases kind : scope.kind with
    | moduleScope => simp [kind] at found
    | classScope =>
      simp only [kind] at found
      exact captures_of_owner? found
    | functionScope =>
      cases binding : scope.binding? name with
      | none =>
        simp only [kind, binding] at found
        exact captures_of_owner? found
      | some bound =>
        cases bound with
        | own => rfl
        | global => simp [kind, binding] at found
        | «nonlocal» => rfl

/-! A function around a body hands on the names that it captures itself, so what it binds
apart from those decides where a name is taken from. -/

section

variable {outer : Enclosing} {title : String} {params : List Param} {body : List Stmt}

/-- The scope of a function that is around a body: names it captures itself go on to the
scopes around it. -/
theorem ownerPlace?_child : ownerPlace? name
    (Scope.child outer .functionScope title params body :: outer) =
      match (collect .functionScope params body).binding? name with
      | none | some .nonlocal => (ownerPlace? name outer).map (· + 1)
      | some .own => some 0
      | some .global => none := by
  have kind : (Scope.child outer .functionScope title params body).kind = .functionScope := rfl
  have binding : (Scope.child outer .functionScope title params body).binding? name = _ :=
    Names.capture_binding? (collect .functionScope params body) outer name
  simp only [ownerPlace?, kind, binding]
  cases (collect .functionScope params body).binding? name with
  | none =>
    rw [Option.none_or]
    generalize (_ && _ : Bool) = captured
    cases captured <;> rfl
  | some binding => cases binding <;> rfl

theorem captures_child : captures name
    (Scope.child outer .functionScope title params body :: outer) =
      match (collect .functionScope params body).binding? name with
      | none => captures name outer
      | some binding => decide (binding ≠ .global) := by
  have kind : (Scope.child outer .functionScope title params body).kind = .functionScope := rfl
  have binding : (Scope.child outer .functionScope title params body).binding? name = _ :=
    Names.capture_binding? (collect .functionScope params body) outer name
  simp only [captures, kind, binding]
  cases (collect .functionScope params body).binding? name with
  | none =>
    rw [Option.none_or]
    cases captured : captures name outer with
    | false => simp
    | true =>
      rw [Bool.and_true]
      generalize (_ && _ : Bool) = asked
      cases asked <;> simp
  | some binding => rfl

end

end Enclosing

namespace Scope

variable {name : String}

theorem mem_sortNames {names : List String} : name ∈ sortNames names ↔ name ∈ names := by
  have gathered : ∀ (names found : List String),
      name ∈ names.foldl (fun found name => insertNew name found) found ↔
        name ∈ found ∨ name ∈ names := by
    intro names
    induction names with
    | nil => simp
    | cons first rest induction =>
      intro found
      have added : name ∈ insertNew first found ↔ name ∈ found ∨ name = first := by
        have contains := insertNew_contains first name found
        simpa using congrArg (· = true) contains
      rw [List.foldl_cons, induction, added, List.mem_cons, or_assoc]
  rw [sortNames, List.mem_mergeSort, gathered]
  simp

/-- The binding of a name in a definition: what its body says, and else whether the
name is captured. -/
theorem infoOf_binding? (outer : Enclosing) (outline : Outline)
    (inside : outline.kind ≠ .moduleScope) (user : isReserved name = false) :
    (infoOf outer outline).binding? name = (outline.binding? name).or
      (if Mentions.loads outline.mentions name && outer.captures name then some .nonlocal
        else none) := by
  have tells := Names.ofOutline_tells outline inside user
  have collected : (Names.ofOutline outline).binding? name = outline.binding? name := tells.binding
  have uses : (Names.ofOutline outline).uses.contains name =
      Mentions.loads outline.mentions name := tells.uses
  have captured : (infoOf outer outline).binding? name = _ :=
    Names.capture_binding? (Names.ofOutline outline) outer name
  rw [captured, collected, uses, user, Bool.not_false, Bool.and_true]

end Scope
end Unsugar
