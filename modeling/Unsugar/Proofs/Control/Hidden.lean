import Unsugar.Context
import Unsugar.Proofs.Control.Basic

/-! Code in which no hidden name occurs. Such code leaves the hidden names as they
are, and does the same whatever their values. -/

namespace Unsugar

/-! ## Occurrences -/

/-- None of the nodes that a walk visits is an occurrence of a hidden name. -/
def Avoids (hidden : List String) (visits : List Visit) : Prop :=
  ∀ visit ∈ visits, ∀ name ∈ Context.namesOf visit.node, name ∉ hidden

variable {hidden : List String}

theorem avoids_append {first second : List Visit} :
    Avoids hidden (first ++ second) ↔ Avoids hidden first ∧ Avoids hidden second := by
  simp only [Avoids, List.forall_mem_append]

theorem avoids_visit {depth : Nat} {node : Node} {below : List Visit} :
    Avoids hidden (node.visit (fun _ => true) depth below) ↔
      (∀ name ∈ Context.namesOf node, name ∉ hidden) ∧ Avoids hidden below := by
  simp [Avoids, Node.visit]

theorem avoids_ident {depth : Nat} {ident : Ident} :
    Avoids hidden (ident.walk depth) ↔ ident.name ∉ hidden := by
  simp [Avoids, Ident.walk, Context.namesOf]

/-- The names that occur in a statement or that it binds. -/
def Stmt.names (stmt : Stmt) : List String :=
  (Stmt.bodyNodes [stmt]).flatMap Context.namesOf

/-- Names that are not taken do not occur where all names are taken. -/
theorem avoids_of_taken {stmt : Stmt} {taken : List String}
    (areTaken : ∀ name ∈ stmt.names, name ∈ taken) (areFree : ∀ name ∈ hidden, name ∉ taken) :
    Avoids hidden (stmt.walk (fun _ => true) 0) := by
  intro visit member name occurs isHidden
  have visited : visit.node ∈ Stmt.bodyNodes [stmt] := by
    rw [Stmt.bodyNodes, Stmt.walkBody, Stmt.walkBody, List.append_nil]
    exact List.mem_map_of_mem member
  exact areFree name isHidden (areTaken name (List.mem_flatMap.mpr ⟨_, visited, occurs⟩))

/-! ## Actions -/

namespace Action

variable {Value Memory Reason α β : Type}

/-- The action has nothing to do with hidden names. -/
structure Ignores (action : Action (Store Value Memory) Reason α) : Prop where
  keeps : ∀ {before ended after}, action before ended after → after.own = before.own
  respects : ∀ {before ended after}, action before ended after → ∀ own,
    action ⟨before.visible, own⟩ ended ⟨after.visible, own⟩

namespace Ignores

theorem ofResult (result : Except Reason α) :
    (ofResult result : Action (Store Value Memory) Reason α).Ignores where
  keeps := by
    rintro _ _ _ ⟨_, rfl⟩
    rfl
  respects := by
    rintro _ _ _ ⟨rfl, rfl⟩ own
    exact ⟨rfl, rfl⟩

theorem pure (value : α) : (Pure.pure value : Action (Store Value Memory) Reason α).Ignores :=
  ofResult (.ok value)

theorem followed {Other : Type} {first : Action (Store Value Memory) Reason α}
    {last : Except Reason α → Action (Store Value Memory) Other β} (ignores : first.Ignores)
    (rest : ∀ ended, (last ended).Ignores) : (followed first last).Ignores where
  keeps := by
    rintro before ended after ⟨inner, middle, here, there⟩
    exact ((rest inner).keeps there).trans (ignores.keeps here)
  respects := by
    rintro before ended after ⟨inner, middle, here, there⟩ own
    exact ⟨inner, ⟨middle.visible, own⟩, ignores.respects here own,
      (rest inner).respects there own⟩

theorem bind {action : Action (Store Value Memory) Reason α}
    {next : α → Action (Store Value Memory) Reason β} (first : action.Ignores)
    (rest : ∀ value, (next value).Ignores) : (action >>= next).Ignores := by
  rw [bind_eq_followed]
  apply first.followed
  rintro (reason | value)
  · exact .ofResult _
  · exact rest value

theorem ofVisible (action : Action (Visible Value Memory) Reason α) :
    (ofVisible action).Ignores where
  keeps := And.right
  respects := fun here _ => ⟨here.1, rfl⟩

theorem raising {action : Action (Store Value Memory) Value α} (ignores : action.Ignores) :
    (raising action).Ignores where
  keeps := by
    rintro before ((_ | _ | _ | error) | value) after here
    · exact here.elim
    · exact here.elim
    · exact here.elim
    · exact ignores.keeps here
    · exact ignores.keeps here
  respects := by
    rintro before ((_ | _ | _ | error) | value) after here own
    · exact here.elim
    · exact here.elim
    · exact here.elim
    · exact ignores.respects here own
    · exact ignores.respects here own

theorem setting {name : String} (shown : name ∉ hidden) (value : Option Value) :
    (setting hidden name value : Action (Store Value Memory) Reason Unit).Ignores where
  keeps := by
    rintro before _ _ ⟨rfl, rfl⟩
    simp [Store.update, shown]
  respects := by
    rintro before _ _ ⟨rfl, rfl⟩ own
    simp [Action.setting, Store.update, shown]

theorem attempt {round : Action (Store Value Memory) (Interruption Value) Unit}
    (ignores : round.Ignores) : (attempt round).Ignores where
  keeps := by
    rintro before _ after ⟨inner, ran, rfl⟩
    exact ignores.keeps ran
  respects := by
    rintro before _ after ⟨inner, ran, rfl⟩ own
    exact ⟨inner, ignores.respects ran own, rfl⟩

theorem repeating {turn : Action (Store Value Memory) Reason (Option α)}
    (ignores : turn.Ignores) : (repeating turn).Ignores where
  keeps := by
    intro before ended after ran
    induction ran with
    | fails ran => exact ignores.keeps ran
    | ends ran => exact ignores.keeps ran
    | again ran _ induction => exact induction.trans (ignores.keeps ran)
  respects := by
    intro before ended after ran own
    induction ran with
    | fails ran => exact .fails (ignores.respects ran own)
    | ends ran => exact .ends (ignores.respects ran own)
    | again ran _ induction => exact .again (ignores.respects ran own) induction

theorem ensuring {body : Action (Store Value Memory) (Interruption Value) Unit}
    {final : Except (Interruption Value) Unit →
      Action (Store Value Memory) (Interruption Value) Unit}
    (bodyIgnores : body.Ignores) (finals : ∀ ended, (final ended).Ignores) :
    (ensuring body final).Ignores :=
  bodyIgnores.followed fun ended => (finals ended).bind fun _ => .ofResult ended

theorem catching {body orelse : Action (Store Value Memory) (Interruption Value) Unit}
    {handle : Value → Action (Store Value Memory) (Interruption Value) Unit}
    (bodyIgnores : body.Ignores) (handles : ∀ error, (handle error).Ignores)
    (orelseIgnores : orelse.Ignores) : (catching body handle orelse).Ignores := by
  rw [catching_eq_followed]
  apply bodyIgnores.followed
  rintro ((_ | _ | _ | error) | _)
  · exact .ofResult _
  · exact .ofResult _
  · exact .ofResult _
  · exact handles error
  · exact orelseIgnores

end Ignores
end Action

/-! ## Expressions -/

namespace Language

open Unsugar.Action

variable {Value Memory : Type} (language : Language Value Memory)

theorem load_ignores {name : String} (shown : name ∉ hidden) :
    (language.load hidden name).Ignores where
  keeps := by
    rintro before _ _ ⟨rfl, _⟩
    rfl
  respects := by
    rintro before _ _ ⟨rfl, rfl⟩ own
    simp [load, Store.lookup, shown]

theorem perform_ignores (handled : Option Value) (function : String) (values : List Value) :
    (language.perform handled function values).Ignores := by
  unfold perform
  split
  · exact (Ignores.ofVisible _).bind fun _ => .pure _
  · exact .pure _
  · exact .ofVisible _
  · exact (Ignores.ofVisible _).bind fun _ => .pure _
  · exact .pure _
  · exact (Ignores.ofVisible _).bind fun _ => .pure _
  · exact .ofVisible _

mutual

theorem eval_ignores (handled : Option Value) : ∀ (expr : Expr) (depth : Nat),
    Avoids hidden (expr.walk (fun _ => true) depth) →
      (language.eval hidden handled expr).Ignores
  | .name _ id, _, avoids => by
    rw [Expr.walk, avoids_visit] at avoids
    rw [eval]
    exact language.load_ignores (avoids.1 id (by simp [Context.namesOf]))
  | .literal .., _, _ => by
    rw [eval]
    exact .pure _
  | .call callee arguments _, depth, avoids => by
    rw [Expr.walk, avoids_visit, avoids_append] at avoids
    rw [eval]
    split
    · exact (evalAll_ignores handled arguments _ avoids.2.2).bind fun _ =>
        language.perform_ignores handled _ _
    · exact .ofVisible _
  | .member .., _, _ => by
    rw [eval]
    split
    · exact .pure _
    · exact .ofVisible _
  | .fstring .., _, _ | .field .., _, _ | .keyword .., _, _ | .starred .., _, _
  | .subscript .., _, _ | .slice .., _, _ | .binary .., _, _ | .logical .., _, _
  | .compare .., _, _ | .unary .., _, _ | .conditional .., _, _ | .lambda .., _, _
  | .list .., _, _ | .tuple .., _, _ | .set .., _, _ | .dict .., _, _ | .entry .., _, _
  | .comprehension .., _, _ | .named .., _, _ | .yield .., _, _ => .ofVisible _

theorem evalAll_ignores (handled : Option Value) : ∀ (items : List Expr) (depth : Nat),
    Avoids hidden (Expr.walkList (fun _ => true) depth items) →
      (language.evalAll hidden handled items).Ignores
  | [], _, _ => by
    rw [evalAll]
    exact .pure _
  | first :: rest, depth, avoids => by
    rw [Expr.walkList, avoids_append] at avoids
    rw [evalAll]
    refine (eval_ignores handled first depth avoids.1).bind fun _ => ?_
    exact (evalAll_ignores handled rest depth avoids.2).bind fun _ => .pure _

end

theorem holds_ignores (handled : Option Value) {test : Expr} {depth : Nat}
    (avoids : Avoids hidden (test.walk (fun _ => true) depth)) :
    (language.holds hidden handled test).Ignores :=
  (language.eval_ignores handled test depth avoids).bind fun _ => .ofVisible _

/-! ## Statements -/

theorem assignTo_ignores (handled : Option Value) {target : Expr} {depth : Nat}
    (avoids : Avoids hidden (target.walk (fun _ => true) depth)) (value : Value) :
    (language.assignTo hidden handled target value).Ignores := by
  unfold assignTo
  split
  · rw [Expr.walk, avoids_visit] at avoids
    exact .setting (avoids.1 _ (by simp [Context.namesOf])) _
  · exact .ofVisible _

theorem assignAll_ignores (handled : Option Value) (value : Value) :
    ∀ {targets : List Expr} {depth : Nat},
      Avoids hidden (Expr.walkList (fun _ => true) depth targets) →
        (language.assignAll hidden handled value targets).Ignores
  | [], _, _ => .pure _
  | first :: rest, depth, avoids => by
    rw [Expr.walkList, avoids_append] at avoids
    exact (language.assignTo_ignores handled avoids.1 value).bind fun _ =>
      assignAll_ignores handled value avoids.2

theorem deleting_ignores (handled : Option Value) (position : Position) {targets : List Expr}
    {depth : Nat} (avoids : Avoids hidden (Expr.walkList (fun _ => true) depth targets)) :
    (language.deleting hidden handled position targets).Ignores := by
  unfold deleting
  split
  · rw [Expr.walkList, avoids_append, Expr.walk, avoids_visit] at avoids
    have shown : _ ∉ hidden := avoids.1.1 _ (List.mem_singleton.mpr rfl)
    exact ((language.load_ignores shown).bind fun _ => .setting shown _).raising
  · exact .ofVisible _

theorem naming_ignores {ident : Option Ident} {depth : Nat}
    (avoids : Avoids hidden (Ident.walkOption depth ident)) (error : Value)
    {body : Action (Store Value Memory) (Interruption Value) Unit} (bodyIgnores : body.Ignores) :
    (naming hidden ident error body).Ignores := by
  cases ident with
  | none => exact bodyIgnores
  | some ident =>
    have shown : ident.name ∉ hidden := avoids_ident.mp avoids
    exact (Ignores.setting shown _).bind fun _ =>
      bodyIgnores.ensuring fun _ => .setting shown _

theorem leaving_ignores (manager : Value) (ended : Except (Interruption Value) Unit) :
    (language.leaving manager ended).Ignores := by
  unfold leaving
  split
  · refine (Ignores.raising (.ofVisible _)).bind fun dropped => ?_
    split
    · exact .pure _
    · exact .ofResult _
  · exact (Ignores.raising (.ofVisible _)).bind fun _ => .ofResult _

theorem within_ignores (handled : Option Value)
    {body : Action (Store Value Memory) (Interruption Value) Unit} (bodyIgnores : body.Ignores) :
    ∀ {items : List WithItem} {depth : Nat},
      Avoids hidden (items.flatMap (WithItem.walk (fun _ => true) depth)) →
        (language.within hidden handled body items).Ignores
  | [], _, _ => bodyIgnores
  | item :: rest, depth, avoids => by
    rw [List.flatMap_cons, avoids_append, WithItem.walk, avoids_append] at avoids
    obtain ⟨⟨manager, target⟩, later⟩ := avoids
    have targets : Avoids hidden (Expr.walkList (fun _ => true) depth item.target.toList) := by
      cases found : item.target with
      | none => simp [Avoids, Expr.walkList]
      | some bound => simpa [found, Expr.walkList, Expr.walkOption] using target
    refine (language.eval_ignores handled _ depth manager).raising.bind fun _ => ?_
    refine (Ignores.raising (.ofVisible _)).bind fun _ => ?_
    refine Ignores.followed ?_ fun _ => language.leaving_ignores _ _
    refine (language.assignAll_ignores handled _ targets).raising.bind fun _ => ?_
    exact within_ignores handled bodyIgnores later

mutual

theorem run_ignores : ∀ (stmt : Stmt) (depth : Nat) (handled : Option Value),
    Avoids hidden (stmt.walk (fun _ => true) depth) → (language.run hidden stmt handled).Ignores
  | .expression value, depth, handled, avoids => by
    rw [Stmt.walk, avoids_visit] at avoids
    rw [run]
    exact (language.eval_ignores handled value _ avoids.2).raising.bind fun _ => .pure _
  | .assign targets value, depth, handled, avoids => by
    rw [Stmt.walk, avoids_visit, avoids_append] at avoids
    rw [run]
    exact ((language.eval_ignores handled value _ avoids.2.2).bind fun _ =>
      language.assignAll_ignores handled _ avoids.2.1).raising
  | .delete position targets, depth, handled, avoids => by
    rw [Stmt.walk, avoids_visit] at avoids
    rw [run]
    exact language.deleting_ignores handled position avoids.2
  | .branch _ .pass, _, _, _ => by
    rw [run]
    exact .pure _
  | .branch _ .breakLoop, _, _, _ => by
    rw [run]
    exact .ofResult _
  | .branch _ .continueLoop, _, _, _ => by
    rw [run]
    exact .ofResult _
  | .returns _ none, _, _, _ => by
    rw [run]
    exact .ofResult _
  | .returns _ (some result), depth, handled, avoids => by
    rw [Stmt.walk, avoids_visit] at avoids
    rw [run]
    exact (language.eval_ignores handled result _ avoids.2).raising.bind fun _ => .ofResult _
  | .raises _ none _, _, _, _ => by
    rw [run]
    exact .ofResult _
  | .conditional _ test body _ orelse, depth, handled, avoids => by
    rw [Stmt.walk, avoids_visit, avoids_append, avoids_append] at avoids
    obtain ⟨_, ⟨testAvoids, bodyAvoids⟩, orelseAvoids⟩ := avoids
    rw [run]
    refine (language.holds_ignores handled testAvoids).raising.bind fun holds => ?_
    split
    · exact runAll_ignores body _ handled bodyAvoids
    · exact runAll_ignores orelse _ handled orelseAvoids
  | .whileLoop _ test body orelse, depth, handled, avoids => by
    rw [Stmt.walk, avoids_visit, avoids_append, avoids_append] at avoids
    obtain ⟨_, ⟨testAvoids, bodyAvoids⟩, orelseAvoids⟩ := avoids
    rw [run]
    have turns : Ignores (do
        if ← Action.raising (language.holds hidden handled test) then
          Action.attempt (language.runAll hidden body handled)
        else return some true) := by
      refine (language.holds_ignores handled testAvoids).raising.bind fun holds => ?_
      split
      · exact (runAll_ignores body _ handled bodyAvoids).attempt
      · exact .pure _
    refine turns.repeating.bind fun completed => ?_
    split
    · exact runAll_ignores orelse _ handled orelseAvoids
    · exact .pure _
  | .forLoop _ target iterable body orelse, depth, handled, avoids => by
    rw [Stmt.walk, avoids_visit, avoids_append, avoids_append, avoids_append] at avoids
    obtain ⟨_, ⟨⟨targetAvoids, iterableAvoids⟩, bodyAvoids⟩, orelseAvoids⟩ := avoids
    rw [run]
    refine (language.eval_ignores handled iterable _ iterableAvoids).raising.bind fun _ => ?_
    refine (Ignores.raising (.ofVisible _)).bind fun iterator => ?_
    have turns : Ignores (do
        match ← Action.raising (.ofVisible (language.next iterator)) with
        | none => return some true
        | some item => Action.attempt do
          Action.raising (language.assignTo hidden handled target item)
          language.runAll hidden body handled) := by
      refine (Ignores.raising (.ofVisible _)).bind fun
        | none => .pure _
        | some item => ?_
      exact ((language.assignTo_ignores handled targetAvoids item).raising.bind fun _ =>
        runAll_ignores body _ handled bodyAvoids).attempt
    refine turns.repeating.bind fun completed => ?_
    split
    · exact runAll_ignores orelse _ handled orelseAvoids
    · exact .pure _
  | .tryBlock _ body handlers orelse final, depth, handled, avoids => by
    rw [Stmt.walk, avoids_visit, avoids_append, avoids_append, avoids_append] at avoids
    obtain ⟨_, ⟨⟨bodyAvoids, handlersAvoid⟩, orelseAvoids⟩, finalAvoids⟩ := avoids
    rw [run]
    refine ((runAll_ignores body _ handled bodyAvoids).catching
      (fun error => runHandlers_ignores handlers _ error handlersAvoid)
      (runAll_ignores orelse _ handled orelseAvoids)).ensuring fun ended => ?_
    exact runAll_ignores final _ _ finalAvoids
  | .withBlock _ items body, depth, handled, avoids => by
    rw [Stmt.walk, avoids_visit, avoids_append] at avoids
    rw [run]
    exact language.within_ignores handled (runAll_ignores body _ handled avoids.2.2) avoids.2.1
  | .raises _ (some _) _, _, _, _ | .augAssign .., _, _, _ | .annAssign .., _, _, _
  | .declare .., _, _, _ | .asserts .., _, _, _ | .imports .., _, _, _ | .importFrom .., _, _, _
  | .function .., _, _, _ | .classDef .., _, _, _ => .ofVisible _

theorem runAll_ignores : ∀ (body : List Stmt) (depth : Nat) (handled : Option Value),
    Avoids hidden (Stmt.walkBody (fun _ => true) depth body) →
      (language.runAll hidden body handled).Ignores
  | [], _, _, _ => by
    rw [runAll]
    exact .pure _
  | first :: rest, depth, handled, avoids => by
    rw [Stmt.walkBody, avoids_append] at avoids
    rw [runAll]
    exact (run_ignores first depth handled avoids.1).bind fun _ =>
      runAll_ignores rest depth handled avoids.2

theorem runHandlers_ignores : ∀ (handlers : List Handler) (depth : Nat) (error : Value),
    Avoids hidden (Stmt.walkHandlers (fun _ => true) depth handlers) →
      (language.runHandlers hidden handlers error).Ignores
  | [], _, _, _ => by
    rw [runHandlers]
    exact .ofResult _
  | .mk _ none _ body :: rest, depth, error, avoids => by
    rw [Stmt.walkHandlers, avoids_append, avoids_visit, avoids_append, avoids_append] at avoids
    rw [runHandlers]
    exact runAll_ignores body _ _ avoids.1.2.2
  | .mk _ (some type) ident body :: rest, depth, error, avoids => by
    rw [Stmt.walkHandlers, avoids_append, avoids_visit, avoids_append, avoids_append] at avoids
    obtain ⟨⟨_, ⟨typeAvoids, identAvoids⟩, bodyAvoids⟩, restAvoids⟩ := avoids
    rw [runHandlers]
    refine (language.eval_ignores _ type _ typeAvoids).raising.bind fun _ => ?_
    refine (Ignores.raising (.ofVisible _)).bind fun caught => ?_
    split
    · exact naming_ignores identAvoids error (runAll_ignores body _ _ bodyAvoids)
    · exact runHandlers_ignores rest depth error restAvoids

end

end Language
end Unsugar
