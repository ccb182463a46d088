import Unsugar.Desugar
import Unsugar.Proofs.Definition.Record

/-! The passes of the second stage reach every definition with its scope. -/

namespace Unsugar

open Descent (Leads)
open Stmt (definitionTrees definitionTreesOfBody)

section

variable {m : Type → Type} [Monad m] [LawfulMonad m] {ε : Type} {opened : ε → Opened}
  {pass : Pass (Descent m) ε} {links : List DefinitionTree → List DefinitionTree → Prop}

/-- Keeping a record, a pass goes through a whole module and does the same; the record is
the one that the scopes foretell. -/
theorem Follows.run (follows : Follows opened pass links) (env : ε) {scope : Scope}
    (around : opened env = .ofModule scope) {body : List Stmt}
    (serve : Scope.ServeAll scope.children (definitionTreesOfBody body)) :
    Descent.run scope (fun _ => StateT.run ((pass.recorded opened).body env body) []) =
        (·, scope.reaches scope.children (definitionTreesOfBody body)) <$>
          Descent.run scope (fun _ => pass.body env body) ∧
      Ensures (fun after => links (definitionTreesOfBody body) (definitionTreesOfBody after))
        (Descent.run scope fun _ => pass.body env body) := by
  have records := follows.body_records env body scope.children [] serve
  rw [around, List.append_nil] at records
  obtain ⟨core, same, sameRecorded⟩ := records
  have plain : Descent.run scope (fun _ => pass.body env body) = Subtype.val <$> core := by
    simp [Descent.run, same]
  refine ⟨?_, core, plain⟩
  rw [plain, ← comp_map]
  simp [Descent.run, sameRecorded [], Opened.ofModule]
  rfl

end

namespace Definition

/-! ## Functions -/

theorem trees_of_isSimple {stmt : Stmt} (simple : stmt.isSimple = true) :
    definitionTreesOfBody [stmt] = [] := by
  cases stmt with
  | conditional | whileLoop | forLoop | tryBlock | withBlock | function | classDef => cases simple
  | _ => rfl

theorem saveDecorators_trees (decorators : List Expr) :
    Ensures (fun saved => definitionTreesOfBody saved.1 = []) (saveDecorators decorators) := by
  induction decorators with
  | nil => exact .pure rfl
  | cons first rest induction =>
    rw [saveDecorators]
    split
    · exact induction.bind fun saved none => .pure none
    · exact .skip fun name => induction.bind fun saved none => .pure none

/-- A renamed function is the same definition. -/
def Keeps (kind : ScopeKind) (position : Position) (trees : List DefinitionTree)
    (after : List Stmt) : Prop :=
  [.mk kind position trees] = definitionTreesOfBody after

theorem generatedFunction_keeps (head : FunctionHead) (body : List Stmt) (qualname : String)
    (next : Option Stmt) :
    Ensures (Keeps .functionScope head.position (definitionTreesOfBody body))
      (generatedFunction head body qualname next) := by
  unfold generatedFunction
  dsimp only
  split
  · exact .pure rfl
  · exact .skip fun _ => .pure rfl

theorem sourceFunction_keeps (head : FunctionHead) (body : List Stmt) (qualname : String) :
    Ensures (Keeps .functionScope head.position (definitionTreesOfBody body))
      (sourceFunction head body qualname) := by
  refine .skip fun generated => .skip fun _ => ?_
  refine (saveDecorators_trees head.decorators).bind fun saved none => .skip fun _ => .pure ?_
  rw [Keeps, Stmt.definitionTreesOfBody_append, none]
  rfl

/-- Entering a definition whose head stays as it is. -/
theorem enter_leads {Head : Type} (position : Head → Position) (head : Head) (around : Opened)
    (scope : Scope) (later : List Scope) :
    Leads (fun entered : Head × Option Opened => position entered.1 = position head ∧
        Enters id around scope later entered) (scope :: later) scope.children
      (do return (head, some (← Descent.enter around)) :
        Descent Desugar (Head × Option Opened)) := by
  refine (Leads.enter around).bind ?_
  rintro _ rfl
  exact .pure ⟨rfl, _, rfl, rfl⟩

theorem functionPass_follows : Follows id functionPass (· = ·) where
  nil := rfl
  append := by
    rintro _ _ _ _ rfl rfl
    rfl
  expr _ _ _ := .pure trivial
  target _ _ _ := .pure trivial
  test _ _ _ := .pure trivial
  simple _ _ _ simple := .pure (trees_of_isSimple simple).symm
  enterFunction around head _ := enter_leads FunctionHead.position head around
  leaveFunction outer inner next head trees body ahead same := by
    subst same
    refine (Leads.leave inner).bind fun _ _ => ?_
    split
    · exact .lift (generatedFunction_keeps head body _ next)
    · exact .lift (sourceFunction_keeps head body _)
  enterClass around head := enter_leads ClassHead.position head around
  leaveClass outer inner head trees body ahead same := by
    subst same
    exact (Leads.leave inner).bind fun _ _ => .pure rfl

/-! ## Classes -/

theorem classPass_follows : Follows id classPass fun _ _ => True where
  nil := trivial
  append _ _ := trivial
  expr _ _ _ := .pure trivial
  target _ _ _ := .pure trivial
  test _ _ _ := .pure trivial
  simple _ _ _ _ := .pure trivial
  enterFunction around head _ := enter_leads FunctionHead.position head around
  leaveFunction _ inner _ _ _ _ _ _ := (Leads.leave inner).bind fun _ _ => .pure trivial
  enterClass around head := enter_leads ClassHead.position head around
  leaveClass _ inner _ _ _ _ _ := (Leads.leave inner).bind fun _ _ => .lift (.any _)

end Definition

/-! ## Closures -/

namespace Closure

theorem visitor_related (place : Place) :
    place.visitor.recorded.Related quietly place.visitor where
  expr value ahead := by
    refine .lift ?_
    unfold Place.visitor
    dsimp only
    split
    all_goals exact .pure trivial
  target value ahead := by
    refine .lift ?_
    unfold Place.visitor
    dsimp only
    split
    · split
      · exact .pure trivial
      · exact .lift (.any _)
    · exact .pure trivial
  arguments := rfl

theorem revise_leads (place : Place) (expr : Expr) (ahead : List Scope) :
    Leads (fun _ => True) ahead ahead (expr.revise place.visitor) :=
  (Expr.revise_related (visitor_related place) expr ahead).leads

theorem ofStmt_leads (place : Place) (stmt : Stmt) (ahead : List Scope) :
    Leads (fun _ => True) ahead ahead (ofStmt place stmt) := by
  unfold ofStmt
  split
  · exact .pure trivial
  · refine (revise_leads place _ ahead).bind fun _ _ => ?_
    split
    all_goals exact .pure trivial
  · split
    all_goals exact .pure trivial
  · exact (Stmt.reviseSimple_related (visitor_related place) stmt ahead).leads.bind
      fun _ _ => .pure trivial

theorem pass_follows : Follows Place.opened pass fun _ _ => True where
  nil := trivial
  append _ _ := trivial
  expr place value ahead := ((visitor_related place).expr value ahead).leads
  target place value ahead := ((visitor_related place).target value ahead).leads
  test place expr ahead := revise_leads place expr ahead
  simple place stmt ahead _ := ofStmt_leads place stmt ahead
  enterFunction place head body scope later := by
    have decorators := (Expr.reviseList_related (visitor_related place) head.decorators
      (scope :: later)).leads
    have params := (Expr.reviseParams_related (visitor_related place) head.params
      (scope :: later)).leads
    refine decorators.bind fun _ _ => params.bind fun _ _ => (Leads.enter place.opened).bind ?_
    rintro _ rfl
    exact .pure ⟨rfl, _, rfl, rfl⟩
  leaveFunction _ inner _ _ _ _ _ _ := (Leads.leave inner.opened).bind fun _ _ => .pure trivial
  enterClass place head scope later := by
    have decorators := (Expr.reviseList_related (visitor_related place) head.decorators
      (scope :: later)).leads
    have bases := (Expr.reviseList_related (visitor_related place) head.bases
      (scope :: later)).leads
    refine decorators.bind fun _ _ => bases.bind fun _ _ => (Leads.enter place.opened).bind ?_
    rintro _ rfl
    exact .pure ⟨rfl, _, rfl, rfl⟩
  leaveClass _ inner _ _ _ _ _ := (Leads.leave inner.opened).bind fun _ _ => .pure trivial

end Closure

/-! ## Modules -/

/-- What is known of all values of a transformation is known of the one that it gives. -/
theorem Ensures.of_run {α : Type} {holds : α → Prop} {action : Desugar α}
    (ensures : Ensures holds action) {context after : Context} {steps later : List Step} {value : α}
    (run : action context steps = (.ok (value, after), later)) : holds value := by
  obtain ⟨core, rfl⟩ := ensures
  have gives : Judgement.ofDesugar.Gives holds (Subtype.val <$> core) := by
    rw [map_eq_pure_bind]
    exact Judgement.ofDesugar_lenient.skip core fun value => Judgement.ofDesugar.pure value.2
  exact Judgement.holds_of_run gives run

/-- Every definition that the second stage reaches has its scope. The scopes of a body are
those that its definitions open, one for each and in source order. Renaming functions,
expanding classes and resolving closures each reach the definitions of the module in that
order; every one of them finds a child of the scope that it is reached in, and together they
find the scopes inside that of the module, each once. Classes are expanded with the scopes
of the module as it was before its functions were renamed. -/
theorem definitions_reach_their_scopes (body : List Stmt) :
    let scope := Scope.ofModule body
    (definitionTreesOfBody body = (Stmt.definitionsOfBody body).flatMap definitionTrees ∧
      ∀ outer, List.Forall₂ (Scope.IsOpenedBy outer) (Scope.ofBody outer body)
        (Stmt.definitionsOfBody body)) ∧
    ((Scope.reachesOfModule body).map (·.found) = scope.inside.map some ∧
      ∀ reach ∈ Scope.reachesOfModule body,
        ∃ child ∈ reach.around.children, reach.found = some child) ∧
    (Descent.run scope fun opened =>
        StateT.run ((Definition.functionPass.recorded id).body opened body) []) =
      (·, Scope.reachesOfModule body) <$> renameFunctions scope body ∧
    (∀ context steps renamed after later,
      renameFunctions scope body context steps = (.ok (renamed, after), later) →
      (Descent.run scope fun opened =>
          StateT.run ((Definition.classPass.recorded id).body opened renamed) []) =
        (·, Scope.reachesOfModule body) <$> expandClasses scope renamed) ∧
    (Descent.run scope fun opened =>
        StateT.run ((Closure.pass.recorded Closure.Place.opened).body (.ofOpened opened) body) []) =
      (·, Scope.reachesOfModule body) <$> resolveClosures scope body := by
  intro scope
  have serve : Scope.ServeAll scope.children (definitionTreesOfBody body) :=
    Scope.ofBody_serve _ body
  have functions := Definition.functionPass_follows.run (.ofModule scope) rfl serve
  have closures := Closure.pass_follows.run (.ofOpened (.ofModule scope)) rfl serve
  refine ⟨⟨Stmt.definitionTreesOfBody_eq body, fun outer => Scope.ofBody_opened outer body⟩,
    Scope.found_ofModule body, functions.1, ?_, closures.1⟩
  intro context steps renamed after later run
  have same : definitionTreesOfBody body = definitionTreesOfBody renamed := functions.2.of_run run
  have classes := Definition.classPass_follows.run (.ofModule scope) rfl (same ▸ serve)
  rw [← same] at classes
  exact classes.1

/-- A method and a function after its class: the class is expanded with the scopes from
before the two were renamed. -/
theorem definitions_reach_their_scopes_method :
    let method := Stmt.function [] .unknown ⟨.unknown, "m"⟩ [] none [.pass]
    let body := [Stmt.classDef [] .unknown ⟨.unknown, "C"⟩ [] [method], method]
    let scope := Scope.ofModule body
    (Scope.reachesOfModule body).map
          (fun reach => (reach.kind, reach.found.map (·.info.qualname))) =
        [(.classScope, some "C"), (.functionScope, some "C.m"), (.functionScope, some "m")] ∧
      ∃ renamed after later,
        renameFunctions scope body {} [] = (.ok (renamed, after), later) ∧
        (Descent.run scope fun opened =>
            StateT.run ((Definition.classPass.recorded id).body opened renamed) []) =
          (·, Scope.reachesOfModule body) <$> expandClasses scope renamed := by
  intro method body scope
  obtain ⟨_, _, _, classes, _⟩ := definitions_reach_their_scopes body
  obtain ⟨renamed, after, later, run⟩ : ∃ renamed after later,
      renameFunctions scope body {} [] = (.ok (renamed, after), later) := ⟨_, _, _, rfl⟩
  exact ⟨by decide +kernel, renamed, after, later, run, classes {} [] renamed after later run⟩

end Unsugar
