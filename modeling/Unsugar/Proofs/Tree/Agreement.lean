import Mathlib.Algebra.Order.Group.Multiset
import Mathlib.Tactic.Abel
import Unsugar.Proofs.Grammar.Statement
import Unsugar.Proofs.Tree.Shown
import Unsugar.Tree.Walk

/-! The walk over a module and the visitor that goes through it see the same identifiers,
but for those that only bind: the walk comes to them and the visitor does not. What the
visitor is shown as bound are the names of binding targets. -/

namespace Unsugar

/-! ## Identifiers of nodes -/

/-- The identifier that an expression is, if it is one. -/
def Expr.ident? : Expr → Option Ident
  | .name position id => some ⟨position, id⟩
  | _ => none

namespace Node

def ident? : Node → Option Ident
  | expr value => value.ident?
  | _ => none

/-- The identifiers that a node binds and that are no expressions: names of functions and
classes, of parameters, of exceptions that are handled, declared names, names that imports
give, and targets of assignment expressions. -/
def bindingOnly : Node → List Ident
  | expr (.named target _) => [target]
  | stmt (.declare _ _ names) => names
  | stmt (.function _ _ ident _ _ _) => [ident]
  | stmt (.classDef _ _ ident _ _) => [ident]
  | imported item => item.asName.toList
  | handler (.mk _ _ ident _) => ident.toList
  | param item => item.ident.toList
  | _ => []

/-- The binding targets of a node: of an assignment, plain, augmented or annotated, of a
deletion, a loop, a `with` statement or a clause of a comprehension. -/
def targets : Node → List Expr
  | stmt (.assign targets _) => targets
  | stmt (.augAssign target _ _) => [target]
  | stmt (.annAssign target _ _) => [target]
  | stmt (.delete _ targets) => targets
  | stmt (.forLoop _ target _ _ _) => [target]
  | stmt (.withBlock _ items _) => items.filterMap (·.target)
  | clause (.loop _ target _) => [target]
  | _ => []

/-- Whether what is below a node of a target is bound with it. The object and the key of an
attribute or a subscript are evaluated. -/
def bindsBelow : Node → Bool
  | expr (.member ..) => false
  | expr (.subscript ..) => false
  | _ => true

end Node

/-- The identifiers among the nodes of a walk. -/
def identsOf (visits : List Visit) : List Ident :=
  visits.filterMap (·.node.ident?)

/-- The names of a binding target that are bound. -/
def Expr.boundIdents (target : Expr) : List Ident :=
  identsOf (target.walk Node.bindsBelow 0)

/-- The identifiers that the nodes of a walk only bind. -/
def bindingOnlyOf (visits : List Visit) : List Ident :=
  visits.flatMap (·.node.bindingOnly)

/-- The names of the binding targets of the nodes of a walk. -/
def targetIdentsOf (visits : List Visit) : List Ident :=
  visits.flatMap (·.node.targets.flatMap Expr.boundIdents)

namespace Shown

/-- The identifier that is shown as evaluated. -/
def evaluated? : Shown → Option Ident
  | expr value => value.ident?
  | target _ => none

/-- The identifier that is shown as bound. -/
def bound? : Shown → Option Ident
  | expr _ => none
  | target value => value.ident?

theorem evaluated?_eq_none {sight : Shown} (plain : sight.value.ident? = none) :
    sight.evaluated? = none := by
  cases sight with
  | expr value => exact plain
  | target value => rfl

theorem bound?_eq_none {sight : Shown} (plain : sight.value.ident? = none) :
    sight.bound? = none := by
  cases sight with
  | expr value => rfl
  | target value => exact plain

end Shown

@[simp] theorem identsOf_append (first second : List Visit) :
    identsOf (first ++ second) = identsOf first ++ identsOf second :=
  List.filterMap_append

@[simp] theorem bindingOnlyOf_append (first second : List Visit) :
    bindingOnlyOf (first ++ second) = bindingOnlyOf first ++ bindingOnlyOf second :=
  List.flatMap_append

@[simp] theorem targetIdentsOf_append (first second : List Visit) :
    targetIdentsOf (first ++ second) = targetIdentsOf first ++ targetIdentsOf second :=
  List.flatMap_append

section

variable {node : Node} {depth : Nat} {below : List Visit}

theorem identsOf_visit (plain : node.ident? = none) :
    identsOf (node.visit (fun _ => true) depth below) = identsOf below :=
  List.filterMap_cons_none plain

theorem bindingOnlyOf_visit :
    bindingOnlyOf (node.visit (fun _ => true) depth below) =
      node.bindingOnly ++ bindingOnlyOf below :=
  List.flatMap_cons

theorem targetIdentsOf_visit :
    targetIdentsOf (node.visit (fun _ => true) depth below) =
      node.targets.flatMap Expr.boundIdents ++ targetIdentsOf below :=
  List.flatMap_cons

end

/-! ## Agreement -/

/-- The nodes of a walk and what a visitor is shown agree on identifiers. The identifiers
`only` are still to be bound by the node above, and the names `bound` by a target of it. -/
structure Agree (only bound : List Ident) (visits : List Visit) (sights : List Shown) : Prop where
  idents : (identsOf visits : Multiset Ident) =
    sights.filterMap Shown.evaluated? + sights.filterMap Shown.bound? +
      (bindingOnlyOf visits + only : Multiset Ident)
  bound : (sights.filterMap Shown.bound? : Multiset Ident) = targetIdentsOf visits + bound

namespace Agree

variable {only only₁ only₂ bound bound₁ bound₂ : List Ident} {visits visits₁ visits₂ : List Visit}
  {sights sights₁ sights₂ sights₃ : List Shown}

theorem nil : Agree [] [] [] [] :=
  ⟨rfl, rfl⟩

/-- An identifier that only the node above binds. -/
theorem ident (depth : Nat) (ident : Ident) : Agree [ident] [] (ident.walk depth) [] :=
  ⟨rfl, rfl⟩

theorem identOption (depth : Nat) : ∀ name : Option Ident,
    Agree name.toList [] (Ident.walkOption depth name) []
  | none => nil
  | some name => ident depth name

theorem append (first : Agree only₁ bound₁ visits₁ sights₁)
    (second : Agree only₂ bound₂ visits₂ sights₂) :
    Agree (only₁ ++ only₂) (bound₁ ++ bound₂) (visits₁ ++ visits₂) (sights₁ ++ sights₂) where
  idents := by
    simp only [identsOf_append, bindingOnlyOf_append, List.filterMap_append, ← Multiset.coe_add,
      first.idents, second.idents]
    abel
  bound := by
    simp only [targetIdentsOf_append, List.filterMap_append, ← Multiset.coe_add, first.bound,
      second.bound]
    abel

/-- The order of what is shown does not matter. -/
theorem perm (given : Agree only bound visits sights₁) (same : sights₁.Perm sights₂) :
    Agree only bound visits sights₂ where
  idents := by
    rw [given.idents, Multiset.coe_eq_coe.mpr (same.filterMap Shown.evaluated?),
      Multiset.coe_eq_coe.mpr (same.filterMap Shown.bound?)]
  bound := by rw [← given.bound, Multiset.coe_eq_coe.mpr (same.filterMap Shown.bound?)]

theorem congr (given : Agree only bound visits sights₁) (same : sights₁ = sights₂) :
    Agree only bound visits sights₂ :=
  same ▸ given

/-- What is shown in two parts may be shown the other way round. -/
theorem swap (given : Agree only bound visits (sights₁ ++ sights₂)) :
    Agree only bound visits (sights₂ ++ sights₁) :=
  given.perm List.perm_append_comm

theorem assoc (given : Agree only bound visits ((sights₁ ++ sights₂) ++ sights₃)) :
    Agree only bound visits (sights₁ ++ (sights₂ ++ sights₃)) :=
  List.append_assoc sights₁ sights₂ sights₃ ▸ given

/-- A node that is no name binds what was left to it. -/
theorem node {node : Node} {depth : Nat} (below : Agree only bound visits sights)
    (plain : node.ident? = none) (own : node.bindingOnly = only)
    (targets : node.targets.flatMap Expr.boundIdents = bound) :
    Agree [] [] (node.visit (fun _ => true) depth visits) sights where
  idents := by
    rw [identsOf_visit plain, bindingOnlyOf_visit, own, below.idents, Multiset.coe_nil,
      ← Multiset.coe_add]
    abel
  bound := by
    rw [targetIdentsOf_visit, targets, below.bound, Multiset.coe_nil, ← Multiset.coe_add]
    abel

/-- Only names count among what is shown. -/
theorem shows {sight : Shown} (given : Agree only bound visits sights)
    (plain : sight.value.ident? = none) : Agree only bound visits (sight :: sights) := by
  have notBound : sight.bound? = none := Shown.bound?_eq_none plain
  constructor
  · rw [List.filterMap_cons_none (Shown.evaluated?_eq_none plain),
      List.filterMap_cons_none notBound]
    exact given.idents
  · rw [List.filterMap_cons_none notBound]
    exact given.bound

/-- An expression that is no name is shown, and then what is below it. -/
theorem expr {value : Expr} {depth : Nat} (below : Agree only [] visits sights)
    (plain : value.ident? = none) (own : (Node.expr value).bindingOnly = only) :
    Agree [] [] ((Node.expr value).visit (fun _ => true) depth visits) (.expr value :: sights) := by
  have nameless : (Node.expr value).ident? = none := plain
  exact (below.node nameless own rfl).shows plain

/-- A target that is no name is shown, and then what is below it. -/
theorem target {value : Expr} {depth : Nat} (below : Agree [] bound visits sights)
    (plain : value.ident? = none) (own : (Node.expr value).bindingOnly = []) :
    Agree [] bound ((Node.expr value).visit (fun _ => true) depth visits)
      (.target value :: sights) := by
  have nameless : (Node.expr value).ident? = none := plain
  have entered : Agree [] bound ((Node.expr value).visit (fun _ => true) depth visits) sights := by
    constructor
    · rw [identsOf_visit nameless, bindingOnlyOf_visit, own]
      exact below.idents
    · rw [targetIdentsOf_visit]
      exact below.bound
  exact entered.shows plain

end Agree

/-! ## Expressions -/

namespace Expr

open Agree

mutual

/-- The walk over an expression and what a visitor is shown of it agree. -/
theorem shown_agree :
    ∀ (expr : Expr) (depth : Nat), expr.isGrammatical = true →
      Agree [] [] (expr.walk (fun _ => true) depth) expr.shown
  | .name .., _, _ => ⟨rfl, rfl⟩
  | .literal .., depth, _ => nil.expr rfl rfl
  | .fstring _ _ parts, depth, valid => by
    simp only [isGrammatical, Bool.and_eq_true] at valid
    exact (shownOfList_agree parts (depth + 1) valid.2).expr rfl rfl
  | .field _ value _ spec, depth, valid => by
    simp only [isGrammatical, Bool.and_eq_true] at valid
    exact ((shown_agree value (depth + 1) valid.1).append
      (shownOfOption_agree spec (depth + 1) valid.2)).expr rfl rfl
  | .call callee arguments _, depth, valid => by
    simp only [isGrammatical, Bool.and_eq_true] at valid
    exact ((shown_agree callee (depth + 1) valid.1).append
      (shownOfList_agree arguments (depth + 1) valid.2)).expr rfl rfl
  | .keyword _ _ value, depth, valid => (shown_agree value (depth + 1) valid).expr rfl rfl
  | .starred _ _ value, depth, valid => (shown_agree value (depth + 1) valid).expr rfl rfl
  | .member object _ _, depth, valid => (shown_agree object (depth + 1) valid).expr rfl rfl
  | .subscript object key _, depth, valid => by
    simp only [isGrammatical, Bool.and_eq_true] at valid
    exact ((shown_agree object (depth + 1) valid.1).append
      (shown_agree key (depth + 1) valid.2)).expr rfl rfl
  | .slice _ lower upper step, depth, valid => by
    simp only [isGrammatical, Bool.and_eq_true] at valid
    exact (((shownOfOption_agree lower (depth + 1) valid.1.1).append
      (shownOfOption_agree upper (depth + 1) valid.1.2)).append
      (shownOfOption_agree step (depth + 1) valid.2)).assoc.expr rfl rfl
  | .binary left _ _ right, depth, valid => by
    simp only [isGrammatical, Bool.and_eq_true] at valid
    exact ((shown_agree left (depth + 1) valid.1).append
      (shown_agree right (depth + 1) valid.2)).expr rfl rfl
  | .logical left _ _ right, depth, valid => by
    simp only [isGrammatical, Bool.and_eq_true] at valid
    exact ((shown_agree left (depth + 1) valid.1).append
      (shown_agree right (depth + 1) valid.2)).expr rfl rfl
  | .compare left _ rights, depth, valid => by
    simp only [isGrammatical, Bool.and_eq_true] at valid
    exact ((shown_agree left (depth + 1) valid.1.2).append
      (shownOfList_agree rights (depth + 1) valid.2)).expr rfl rfl
  | .unary _ _ operand, depth, valid => (shown_agree operand (depth + 1) valid).expr rfl rfl
  | .conditional test whenTrue whenFalse, depth, valid => by
    simp only [isGrammatical, Bool.and_eq_true] at valid
    exact (((shown_agree test (depth + 1) valid.1.1).append
      (shown_agree whenTrue (depth + 1) valid.1.2)).append
      (shown_agree whenFalse (depth + 1) valid.2)).assoc.expr rfl rfl
  | .lambda _ params body, depth, valid => by
    simp only [isGrammatical, Bool.and_eq_true] at valid
    exact ((shownOfParams_agree params (depth + 1) valid.1).append
      (shown_agree body (depth + 1) valid.2)).expr rfl rfl
  | .list _ items _, depth, valid => (shownOfList_agree items (depth + 1) valid).expr rfl rfl
  | .tuple _ items _, depth, valid => (shownOfList_agree items (depth + 1) valid).expr rfl rfl
  | .set _ items _, depth, valid => (shownOfList_agree items (depth + 1) valid).expr rfl rfl
  | .dict _ items _, depth, valid => (shownOfList_agree items (depth + 1) valid).expr rfl rfl
  | .entry key value, depth, valid => by
    simp only [isGrammatical, Bool.and_eq_true] at valid
    exact ((shown_agree key (depth + 1) valid.1).append
      (shown_agree value (depth + 1) valid.2)).expr rfl rfl
  | .comprehension _ _ body clauses _, depth, valid => by
    simp only [isGrammatical, Bool.and_eq_true] at valid
    -- The clauses are shown before the body, and come after it in the walk.
    exact ((shown_agree body (depth + 1) valid.1.2).append
      (shownOfClauses_agree clauses (depth + 1) valid.2)).swap.expr rfl rfl
  | .named target value, depth, valid =>
    ((ident (depth + 1) target).append (shown_agree value (depth + 1) valid)).expr rfl rfl
  | .yield _ _ value, depth, valid => (shownOfOption_agree value (depth + 1) valid).expr rfl rfl

/-- What is shown of a target leaves its names to the node whose target it is. -/
theorem shownAsTarget_agree {deletes : Bool} :
    ∀ (target : Expr) (depth inside : Nat), Grammar.targetFault deletes target = none →
      target.isGrammatical = true →
      Agree [] (identsOf (target.walk Node.bindsBelow inside))
        (target.walk (fun _ => true) depth) target.shownAsTarget
  | .name .., _, _, _, _ => ⟨rfl, rfl⟩
  | .tuple _ items _, depth, inside, faultless, valid =>
    (shownOfTargets_agree items (depth + 1) (inside + 1)
      (Grammar.targetFault_of_targetsFault faultless) valid).target rfl rfl
  | .list _ items _, depth, inside, faultless, valid =>
    (shownOfTargets_agree items (depth + 1) (inside + 1)
      (Grammar.targetFault_of_targetsFault faultless) valid).target rfl rfl
  | .starred position op value, depth, inside, faultless, valid => by
    rw [Grammar.targetFault] at faultless
    split at faultless
    · exact (shownAsTarget_agree value (depth + 1) (inside + 1) faultless valid).target rfl rfl
    · cases faultless
  | .member object _ _, depth, _, _, valid =>
    (shown_agree object (depth + 1) valid).target rfl rfl
  | .subscript object key _, depth, _, _, valid => by
    simp only [isGrammatical, Bool.and_eq_true] at valid
    exact ((shown_agree object (depth + 1) valid.1).append
      (shown_agree key (depth + 1) valid.2)).target rfl rfl
  | .literal .., _, _, faultless, _ | .fstring .., _, _, faultless, _
  | .field .., _, _, faultless, _ | .call .., _, _, faultless, _
  | .keyword .., _, _, faultless, _ | .slice .., _, _, faultless, _
  | .binary .., _, _, faultless, _ | .logical .., _, _, faultless, _
  | .compare .., _, _, faultless, _ | .unary .., _, _, faultless, _
  | .conditional .., _, _, faultless, _ | .lambda .., _, _, faultless, _
  | .set .., _, _, faultless, _ | .dict .., _, _, faultless, _
  | .entry .., _, _, faultless, _ | .comprehension .., _, _, faultless, _
  | .named .., _, _, faultless, _ | .yield .., _, _, faultless, _ => by
    cases faultless

theorem shownOfOption_agree :
    ∀ (value : Option Expr) (depth : Nat), isGrammaticalOption value = true →
      Agree [] [] (walkOption (fun _ => true) depth value) (shownOfOption value)
  | none, _, _ => nil
  | some value, depth, valid => shown_agree value depth valid

theorem shownOfList_agree :
    ∀ (items : List Expr) (depth : Nat), areGrammatical items = true →
      Agree [] [] (walkList (fun _ => true) depth items) (shownOfList items)
  | [], _, _ => nil
  | first :: rest, depth, valid => by
    simp only [areGrammatical, Bool.and_eq_true] at valid
    exact (shown_agree first depth valid.1).append (shownOfList_agree rest depth valid.2)

theorem shownOfTargets_agree {deletes : Bool} :
    ∀ (items : List Expr) (depth inside : Nat),
      (∀ item ∈ items, Grammar.targetFault deletes item = none) → areGrammatical items = true →
      Agree [] (identsOf (walkList Node.bindsBelow inside items))
        (walkList (fun _ => true) depth items) (shownOfTargets items)
  | [], _, _, _, _ => nil
  | first :: rest, depth, inside, faultless, valid => by
    simp only [areGrammatical, Bool.and_eq_true] at valid
    obtain ⟨here, later⟩ := List.forall_mem_cons.mp faultless
    rw [walkList, identsOf_append]
    exact (shownAsTarget_agree first depth inside here valid.1).append
      (shownOfTargets_agree rest depth inside later valid.2)

theorem shownOfParams_agree :
    ∀ (params : List Param) (depth : Nat), areParamsGrammatical params = true →
      Agree [] [] (walkParams (fun _ => true) depth params) (shownOfParams params)
  | [], _, _ => nil
  | .mk _ _ label hint default :: rest, depth, valid => by
    simp only [areParamsGrammatical, Bool.and_eq_true] at valid
    have parts := ((identOption (depth + 1) label).append
      (shownOfOption_agree hint (depth + 1) valid.1.1)).append
      (shownOfOption_agree default (depth + 1) valid.1.2)
    have own : (label.toList ++ []) ++ [] = label.toList := by simp
    exact ((own ▸ parts).node rfl rfl rfl |>.append (shownOfParams_agree rest depth valid.2)).assoc

theorem shownOfClauses_agree :
    ∀ (clauses : List Clause) (depth : Nat), areClausesGrammatical clauses = true →
      Agree [] [] (walkClauses (fun _ => true) depth clauses) (shownOfClauses clauses)
  | [], _, _ => nil
  | .loop position target iterable :: rest, depth, valid => by
    simp only [areClausesGrammatical, Bool.and_eq_true, Option.isNone_iff_eq_none] at valid
    have parts := (shownAsTarget_agree target (depth + 1) 0 valid.1.1.1 valid.1.1.2).append
      (shown_agree iterable (depth + 1) valid.1.2)
    exact (parts.swap.node rfl rfl rfl |>.append (shownOfClauses_agree rest depth valid.2)).assoc
  | .filter position test :: rest, depth, valid => by
    simp only [areClausesGrammatical, Bool.and_eq_true] at valid
    exact ((shown_agree test (depth + 1) valid.1).node rfl rfl rfl).append
      (shownOfClauses_agree rest depth valid.2)

end

theorem identsOf_walkList (items : List Expr) :
    identsOf (walkList Node.bindsBelow 0 items) = items.flatMap boundIdents := by
  induction items with
  | nil => rfl
  | cons first rest induction =>
    rw [walkList, identsOf_append, induction, List.flatMap_cons, boundIdents]

/-- The names of targets are left to the statement that they are targets of. -/
theorem targets_agree {deletes : Bool} {targets : List Expr} (depth : Nat)
    (valid : targets.all (isGrammaticalTarget deletes) = true) :
    Agree [] (targets.flatMap boundIdents) (walkList (fun _ => true) depth targets)
      (shownOfTargets targets) := by
  simp only [List.all_eq_true, isGrammaticalTarget, Bool.and_eq_true,
    Option.isNone_iff_eq_none] at valid
  rw [← identsOf_walkList]
  exact shownOfTargets_agree targets depth 0 (fun item member => (valid item member).1)
    (areGrammatical_iff.mpr fun item member => (valid item member).2)

theorem target_agree {deletes : Bool} {target : Expr} (depth : Nat)
    (valid : target.isGrammaticalTarget deletes = true) :
    Agree [] target.boundIdents (target.walk (fun _ => true) depth) target.shownAsTarget := by
  simp only [isGrammaticalTarget, Bool.and_eq_true, Option.isNone_iff_eq_none] at valid
  exact shownAsTarget_agree target depth 0 valid.1 valid.2

/-- A target that is no tuple and no list has no fault. -/
theorem isGrammaticalTarget_of_isSingleTarget {target : Expr}
    (single : target.isSingleTarget = true) (valid : target.isGrammatical = true) :
    target.isGrammaticalTarget false = true := by
  have faultless : Grammar.targetFault false target = none := by
    cases target <;> first | rfl | cases single
  simp [isGrammaticalTarget, faultless, valid]

end Expr

/-! ## Statements -/

namespace Stmt

open Agree Unsugar.Expr

theorem names_agree (depth : Nat) (names : List Ident) :
    Agree names [] (names.flatMap (Ident.walk depth)) [] := by
  induction names with
  | nil => exact nil
  | cons first rest induction => exact (ident depth first).append induction

theorem aliases_agree (depth : Nat) (names : List Alias) :
    Agree [] [] (names.flatMap (Alias.walk (fun _ => true) depth)) [] := by
  induction names with
  | nil => exact nil
  | cons first rest induction =>
    exact ((identOption (depth + 1) first.asName).node rfl rfl rfl).append induction

theorem items_agree (depth : Nat) :
    ∀ items : List WithItem, items.all isItemGrammatical = true →
      Agree [] ((items.filterMap (·.target)).flatMap boundIdents)
        (items.flatMap (WithItem.walk (fun _ => true) depth)) (shownOfItems items)
  | [], _ => nil
  | ⟨manager, none⟩ :: rest, valid => by
    simp only [List.all_cons, isItemGrammatical, Bool.and_eq_true] at valid
    exact ((Expr.shown_agree manager depth valid.1.1).append nil).append
      (items_agree depth rest valid.2) |>.congr (by simp [shownOfItems])
  | ⟨manager, some target⟩ :: rest, valid => by
    simp only [List.all_cons, isItemGrammatical, Bool.and_eq_true, Option.all_some] at valid
    have here := (Expr.shown_agree manager depth valid.1.1).append (target_agree depth valid.1.2)
    exact (here.append (items_agree depth rest valid.2)).assoc

/-- The walk over a statement without a body and what is shown of it agree. -/
theorem simple_agree {stmt : Stmt} (depth : Nat) (simple : stmt.isSimple = true)
    (valid : stmt.isGrammatical = true) :
    Agree [] [] (stmt.walk (fun _ => true) depth) stmt.shown := by
  cases stmt with
  | expression value => exact (Expr.shown_agree value (depth + 1) valid).node rfl rfl rfl
  | assign targets value =>
    simp only [isGrammatical, Bool.and_eq_true] at valid
    -- The value is shown before the targets, and comes after them in the walk.
    exact ((targets_agree (depth + 1) valid.1).append
      (Expr.shown_agree value (depth + 1) valid.2)).swap.node rfl rfl (List.append_nil _).symm
  | augAssign target op value =>
    simp only [isGrammatical, Bool.and_eq_true] at valid
    have bindable := isGrammaticalTarget_of_isSingleTarget valid.1.1 valid.1.2
    exact ((target_agree (depth + 1) bindable).append
      (Expr.shown_agree value (depth + 1) valid.2)).node rfl rfl rfl
  | annAssign target hint value =>
    simp only [isGrammatical, Bool.and_eq_true] at valid
    have bindable := isGrammaticalTarget_of_isSingleTarget valid.1.1.1 valid.1.1.2
    exact (((target_agree (depth + 1) bindable).append
      (Expr.shown_agree hint (depth + 1) valid.1.2)).append
      (shownOfOption_agree value (depth + 1) valid.2)).assoc.node rfl rfl (by simp [Node.targets])
  | delete position targets => exact (targets_agree (depth + 1) valid).node rfl rfl rfl
  | branch position kind => exact nil.node rfl rfl rfl
  | returns position result =>
    exact (shownOfOption_agree result (depth + 1) valid).node rfl rfl rfl
  | raises position exception cause =>
    simp only [isGrammatical, Bool.and_eq_true] at valid
    exact ((shownOfOption_agree exception (depth + 1) valid.1.2).append
      (shownOfOption_agree cause (depth + 1) valid.2)).node rfl rfl rfl
  | declare position declaration names => exact (names_agree (depth + 1) names).node rfl rfl rfl
  | asserts position test message =>
    simp only [isGrammatical, Bool.and_eq_true] at valid
    exact ((Expr.shown_agree test (depth + 1) valid.1).append
      (shownOfOption_agree message (depth + 1) valid.2)).node rfl rfl rfl
  | imports position names => exact (aliases_agree (depth + 1) names).node rfl rfl rfl
  | importFrom position source level names closing =>
    exact (aliases_agree (depth + 1) names).node rfl rfl rfl
  | conditional | whileLoop | forLoop | tryBlock | withBlock | function | classDef => cases simple

mutual

/-- The walk over a statement and what a visitor is shown of it agree. -/
theorem shown_agree :
    ∀ (stmt : Stmt) (depth : Nat), stmt.isGrammatical = true →
      Agree [] [] (stmt.walk (fun _ => true) depth) stmt.shown
  | .conditional _ test body _ orelse, depth, valid => by
    simp only [isGrammatical, Bool.and_eq_true] at valid
    exact (((Expr.shown_agree test (depth + 1) valid.1.1).append
      (shownOfBody_agree body (depth + 1) valid.1.2)).append
      (shownOfBody_agree orelse (depth + 1) valid.2)).assoc.node rfl rfl rfl
  | .whileLoop _ test body orelse, depth, valid => by
    simp only [isGrammatical, Bool.and_eq_true] at valid
    exact (((Expr.shown_agree test (depth + 1) valid.1.1).append
      (shownOfBody_agree body (depth + 1) valid.1.2)).append
      (shownOfBody_agree orelse (depth + 1) valid.2)).assoc.node rfl rfl rfl
  | .forLoop _ target iterable body orelse, depth, valid => by
    simp only [isGrammatical, Bool.and_eq_true] at valid
    have head := ((target_agree (depth + 1) valid.1.1.1).append
      (Expr.shown_agree iterable (depth + 1) valid.1.1.2)).swap
    exact ((head.append (shownOfBody_agree body (depth + 1) valid.1.2)).append
      (shownOfBody_agree orelse (depth + 1) valid.2)).assoc.assoc.node rfl rfl
        (by simp [Node.targets])
  | .tryBlock _ body handlers orelse final, depth, valid => by
    simp only [isGrammatical, Bool.and_eq_true] at valid
    exact ((((shownOfBody_agree body (depth + 1) valid.1.1.1.2).append
      (shownOfHandlers_agree handlers (depth + 1) valid.1.1.2)).append
      (shownOfBody_agree orelse (depth + 1) valid.1.2)).append
      (shownOfBody_agree final (depth + 1) valid.2)).assoc.assoc.node rfl rfl rfl
  | .withBlock _ items body, depth, valid => by
    simp only [isGrammatical, Bool.and_eq_true] at valid
    exact ((items_agree (depth + 1) items valid.1).append
      (shownOfBody_agree body (depth + 1) valid.2)).node rfl rfl (List.append_nil _).symm
  | .function decorators _ label params result body, depth, valid => by
    simp only [isGrammatical, Bool.and_eq_true] at valid
    have head := (shownOfList_agree decorators (depth + 1) valid.1.1.1).append
      (ident (depth + 1) label)
    exact ((((head.congr (List.append_nil _)).append
      (shownOfParams_agree params (depth + 1) valid.1.1.2)).append
      (shownOfOption_agree result (depth + 1) valid.1.2)).append
      (shownOfBody_agree body (depth + 1) valid.2)).assoc.assoc.node rfl rfl rfl
  | .classDef decorators _ label bases body, depth, valid => by
    simp only [isGrammatical, Bool.and_eq_true] at valid
    have head := (shownOfList_agree decorators (depth + 1) valid.1.1).append
      (ident (depth + 1) label)
    exact (((head.congr (List.append_nil _)).append
      (shownOfList_agree bases (depth + 1) valid.1.2)).append
      (shownOfBody_agree body (depth + 1) valid.2)).assoc.node rfl rfl rfl
  | .expression .., depth, valid | .assign .., depth, valid | .augAssign .., depth, valid
  | .annAssign .., depth, valid | .delete .., depth, valid | .branch .., depth, valid
  | .returns .., depth, valid | .raises .., depth, valid | .declare .., depth, valid
  | .asserts .., depth, valid | .imports .., depth, valid | .importFrom .., depth, valid =>
    simple_agree depth rfl valid

theorem shownOfBody_agree :
    ∀ (body : List Stmt) (depth : Nat), areGrammatical body = true →
      Agree [] [] (walkBody (fun _ => true) depth body) (shownOfBody body)
  | [], _, _ => nil
  | first :: rest, depth, valid => by
    simp only [areGrammatical, Bool.and_eq_true] at valid
    exact (shown_agree first depth valid.1).append (shownOfBody_agree rest depth valid.2)

theorem shownOfHandlers_agree :
    ∀ (handlers : List Handler) (depth : Nat), areHandlersGrammatical handlers = true →
      Agree [] [] (walkHandlers (fun _ => true) depth handlers) (shownOfHandlers handlers)
  | [], _, _ => nil
  | .mk _ type label body :: rest, depth, valid => by
    simp only [areHandlersGrammatical, Bool.and_eq_true] at valid
    have head := ((shownOfOption_agree type (depth + 1) valid.1.1).append
      (identOption (depth + 1) label)).congr (List.append_nil _)
    have parts := head.append (shownOfBody_agree body (depth + 1) valid.1.2)
    have own : ([] ++ label.toList) ++ [] = label.toList := by simp
    exact ((own ▸ parts).node rfl rfl rfl |>.append
      (shownOfHandlers_agree rest depth valid.2)).assoc

end

/-! ## Modules -/

/-- What a visitor that leaves everything to the default traversal is shown of a body, in
order: the visitor keeps it all. -/
def received (body : List Stmt) : List Shown :=
  let keep (sight : Shown) : StateM (List Shown) Unit := modify (· ++ [sight])
  (((Pass.everywhere (.watching keep)).body () body).run []).2

/-- The nodes of a body that a walk visits when it enters all of them. -/
def visited (body : List Stmt) : List Visit :=
  walkBody (fun _ => true) 0 body

theorem forM_keep (sights : List Shown) :
    ∀ before : List Shown, (sights.forM fun sight =>
      (modify (· ++ [sight]) : StateM (List Shown) Unit)).run before = ((), before ++ sights) := by
  induction sights with
  | nil =>
    intro before
    rw [List.append_nil]
    rfl
  | cons first rest induction =>
    intro before
    have later := induction (before ++ [first])
    rw [List.append_assoc, List.singleton_append] at later
    exact later

theorem received_eq (body : List Stmt) : received body = shownOfBody body := by
  let keep (sight : Shown) : StateM (List Shown) Unit := modify (· ++ [sight])
  have watches := body_watches keep body
  have kept := congrArg (fun action => (StateT.run action []).2) watches
  simp only [StateT.run_map] at kept
  rw [received]
  refine Eq.trans ?_ (kept.trans (congrArg Prod.snd (forM_keep (shownOfBody body) [])))
  rfl

end Stmt

/-- The walk over a module and the visitor that goes through it by default see the same
identifiers, each as often. Every visitor that replaces nothing acts along what is
received. The walk visits what is received, evaluated or bound, and the identifiers that
only bind besides; what is received as bound are the names of the binding targets, outside
the objects and keys of attributes and subscripts. -/
theorem traversals_see_same_identifiers {file : String} {text : List Char} {body : List Stmt}
    (read : parseModule file text = .ok body) :
    (∀ {m : Type → Type} [Monad m] [LawfulMonad m] (watch : Shown → m Unit),
      (fun _ => ()) <$> (Pass.everywhere (.watching watch)).body () body =
        (Stmt.received body).forM watch) ∧
    (identsOf (Stmt.visited body) : Multiset Ident) =
      (Stmt.received body).filterMap Shown.evaluated? +
        (Stmt.received body).filterMap Shown.bound? + bindingOnlyOf (Stmt.visited body) ∧
    ((Stmt.received body).filterMap Shown.bound? : Multiset Ident) =
      targetIdentsOf (Stmt.visited body) := by
  have agree := Stmt.shownOfBody_agree body 0 (parseModule_grammatical read)
  rw [Stmt.received_eq]
  refine ⟨fun watch => Stmt.body_watches watch body, ?_, ?_⟩
  · simpa [Stmt.visited] using agree.idents
  · simpa [Stmt.visited] using agree.bound

/-- A function that binds names in every way that a parameter, a target and an assignment
expression can. -/
theorem traversals_see_same_identifiers_function :
    let text := "def f(x, y=a):\n    b[c], z = (d := x)\n".toList
    ∃ body, parseModule "m.py" text = .ok body ∧
      (identsOf (Stmt.visited body)).map (·.name) = ["f", "x", "y", "a", "b", "c", "z", "d", "x"] ∧
      (bindingOnlyOf (Stmt.visited body)).map (·.name) = ["f", "x", "y", "d"] ∧
      ((Stmt.received body).filterMap Shown.evaluated?).map (·.name) = ["a", "x", "b", "c"] ∧
      ((Stmt.received body).filterMap Shown.bound? : Multiset Ident) =
        targetIdentsOf (Stmt.visited body) ∧
      (targetIdentsOf (Stmt.visited body)).map (·.name) = ["z"] := by
  intro text
  have accepted : ((parseModule "m.py" text).toOption.any fun body => decide
      ((identsOf (Stmt.visited body)).map (·.name) =
          ["f", "x", "y", "a", "b", "c", "z", "d", "x"] ∧
        (bindingOnlyOf (Stmt.visited body)).map (·.name) = ["f", "x", "y", "d"] ∧
        ((Stmt.received body).filterMap Shown.evaluated?).map (·.name) = ["a", "x", "b", "c"] ∧
        (targetIdentsOf (Stmt.visited body)).map (·.name) = ["z"])) = true := by
    decide +kernel
  cases read : parseModule "m.py" text with
  | error fault =>
    rw [read] at accepted
    exact absurd accepted Bool.false_ne_true
  | ok body =>
    rw [read] at accepted
    obtain ⟨walked, only, evaluated, names⟩ := of_decide_eq_true accepted
    obtain ⟨_, _, bound⟩ := traversals_see_same_identifiers read
    exact ⟨body, rfl, walked, only, evaluated, bound, names⟩

end Unsugar
