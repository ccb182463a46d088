import Unsugar.Closure
import Unsugar.Proofs.Definition.Method
import Unsugar.Proofs.Scope.Unbound

/-! Closures made explicit. This never fails: by then names are bound by plain
assignments, deletions and definitions alone. It declares nothing, and the names that it
binds anew are those of cells, so a name that no function binds stays a name of the
module. -/

namespace Unsugar

/-! ## Statements -/

/-- What a computation over the scopes of a module gives, whichever are still ahead. -/
def Descent.judge : Judgement (Descent Desugar) where
  Gives holds action := ∀ scopes, Descent.Gives scopes (fun value _ => holds value) action
  pure valid _ := .pure valid
  bind first rest scopes := (first scopes).bind fun value after valid => rest value valid after

namespace Closure

open Definition (expanded)
open Descent (judge)

variable {name : String}

/-- Mentions and definitions, and their counterparts: nothing is declared any more, and a
name that was not bound is not bound. -/
structure Resolved (name : String) (before after : List Mention) (inner inner' : List Outline) :
    Prop extends Spares name before after inner inner' where
  undeclared : Mentions.declaration? after name = none

namespace Resolved

theorem of_told {before after : List Mention} {loaded : Bool}
    (told : Mentions.Says name after loaded false) : Resolved name before after [] [] :=
  ⟨.of_told told, told.declares⟩

theorem same {mentions : List Mention} (undeclared : Mentions.declaration? mentions name = none) :
    Resolved name mentions mentions [] [] :=
  ⟨.same mentions, undeclared⟩

theorem additive : Additive (Resolved name) where
  nil := .of_told .nil
  append first second := by
    refine ⟨Spares.additive.append first.toSpares second.toSpares, ?_⟩
    rw [Mentions.declaration?_append, first.undeclared, second.undeclared, Option.or_none]

end Resolved

/-- A body, and its counterpart. -/
abbrev BodyResolved (name : String) : List Stmt → List Stmt → Prop :=
  BodyRelated expanded (Resolved name)

theorem isPlain_load (place : Place) (position : Position) (id : String) :
    (place.load position id).isPlain = true := by
  unfold Place.load
  split <;> rfl

theorem cellArguments_plain {place : Place} {callee : Expr} {arguments : List Expr} {slot : Nat}
    {after : Expr} (reply : (place.cellArguments callee arguments)[slot]? = some (some after)) :
    after.isPlain = true := by
  unfold Place.cellArguments at reply
  split at reply
  · dsimp only at reply
    split at reply
    · match slot, reply with
      | 0, reply => cases reply
      | 1, reply => cases reply
      | 2, reply =>
        cases reply
        rfl
    · cases reply
  · cases reply

theorem visitor_revises (place : Place) :
    Expr.Revises judge (fun _ _ => True) place.visitor where
  nil := trivial
  append _ _ := trivial
  arguments _ _ _ _ _ _ reply := ⟨cellArguments_plain reply, trivial⟩
  expr expr plain := by
    match expr with
    | .name position id => exact judge.pure ⟨isPlain_load place position id, trivial⟩
    | .call callee [] closing =>
      change judge.Gives _ (pure (if place.asksForLocals callee then _ else _))
      split
      · exact judge.pure ⟨rfl, trivial⟩
      · exact Expr.keep_gives fun _ => trivial
    | .call _ (_ :: _) _ | .literal .. | .keyword .. | .starred .. | .member .. | .list ..
    | .tuple .. | .set .. | .dict .. | .entry .. | .yield .. =>
      exact Expr.keep_gives fun _ => trivial

theorem revised_resolved {stmt stmt' : Stmt} (revised : Stmt.Revised (fun _ _ => True) stmt stmt')
    (silent : ∀ position declaration idents, stmt ≠ .declare position declaration idents) :
    BodyResolved name [stmt] [stmt'] := by
  have target : ∀ {target target'}, Stmt.TargetRevised (fun _ _ => True) target target' →
      Stmt.isPlainTarget target' = true ∧
        Resolved name (Stmt.targetMentions target) (Stmt.targetMentions target') [] [] := by
    rintro _ _ (_ | ⟨_, _, object⟩)
    · exact ⟨rfl, .same rfl⟩
    · exact ⟨object.1, .of_told (.load _)⟩
  cases revised with
  | expression value => exact .simple value.1 rfl rfl (.of_told (.load _))
  | assign bound value =>
    refine .simple (by simp [Stmt.isPlain, value.1, (target bound).1]) rfl rfl ?_
    rw [Stmt.mentions_assign, Stmt.mentions_assign]
    exact Resolved.additive.append (.of_told (.load _)) (target bound).2
  | delete bound =>
    refine .simple (target bound).1 rfl rfl ?_
    rw [Stmt.mentions_delete, Stmt.mentions_delete]
    exact (target bound).2
  | returns plain => exact .simple plain rfl rfl (.of_told (.load _))
  | raises plain => exact .simple plain rfl rfl (.of_told (.load _))
  | branch => exact .simple rfl rfl rfl (.of_told .nil)
  | declare => exact absurd rfl (silent _ _ _)
  | importFrom =>
    refine .simple rfl rfl rfl (.same ?_)
    rw [Stmt.mentions]
    split
    · rfl
    · simp [Mentions.declaration?, Mention.declaration?]

theorem reviseSimple_gives (place : Place) {stmt : Stmt} (simple : stmt.isSimple = true)
    (plain : stmt.isPlain expanded = true)
    (silent : ∀ position declaration idents, stmt ≠ .declare position declaration idents)
    (members : ∀ target ∈ stmt.targets, ∀ position id, target ≠ .name position id) :
    judge.Gives (BodyResolved name [stmt]) (do return [← stmt.reviseSimple place.visitor]) := by
  have keeps : ∀ target ∈ stmt.targets, Stmt.KeepsTarget judge place.visitor target := by
    intro target found
    cases target with
    | name position id => exact absurd rfl (members _ found position id)
    | _ => exact judge.pure (Or.inl rfl)
  have revised := Stmt.reviseSimple_gives (visitor_revises place) stmt keeps simple plain
  exact judge.bind revised fun stmt' given => judge.pure (revised_resolved given silent)

theorem ofStmt_gives (place : Place) (stmt : Stmt) (simple : stmt.isSimple = true)
    (plain : stmt.isPlain expanded = true) :
    judge.Gives (BodyResolved name [stmt]) (ofStmt place stmt) := by
  cases stmt with
  | declare => exact judge.pure (.simple rfl rfl rfl (.of_told .nil))
  | assign targets value =>
    obtain ⟨target, rfl, bound, valuePlain⟩ := Stmt.assign_of_isPlain plain
    cases target with
    | name position id =>
      refine judge.bind (Expr.revise_gives (visitor_revises place) value valuePlain)
        fun value' given => ?_
      split
      · exact judge.pure (.simple (by simp [given.1]) rfl rfl (.of_told (.load _)))
      · exact judge.pure (.simple (by simp [given.1]) rfl rfl (.of_told (.load _)))
      · exact judge.pure (revised_resolved (.assign (.name position id) given) (by simp))
    | member => exact reviseSimple_gives place simple plain (by simp) (by simp [Stmt.targets])
    | _ => cases bound
  | delete position targets =>
    obtain ⟨target, rfl, bound⟩ := Stmt.delete_of_isPlain plain
    cases target with
    | name start id =>
      simp only [ofStmt]
      split
      · exact judge.pure (.simple rfl rfl rfl (.of_told (.load _)))
      · refine judge.pure (.simple rfl rfl rfl ?_)
        rw [Stmt.mentions_delete position (Definition.cellContents _)]
        exact .of_told (.load _)
      · exact judge.pure (revised_resolved (.delete (.name start id)) (by simp))
    | member => exact reviseSimple_gives place simple plain (by simp) (by simp [Stmt.targets])
    | _ => cases bound
  | _ => exact reviseSimple_gives place simple plain (by simp) (by simp [Stmt.targets])

/-! ## Functions -/

theorem isReserved_cellName (name : String) : isReserved (cellName name) = true := by
  have begins : cellName name = "_dp_" ++ ("cell_" ++ name) := by
    rw [cellName, ← String.append_assoc]
    rfl
  rw [begins, isReserved, beginsWithText_append]
  rfl

/-- Creating cells binds no name of a user. -/
theorem makeCells_told (user : isReserved name = false) (place : Place) :
    Stmt.arePlain expanded (makeCells place) = true ∧
      Stmt.outlinesOfBody (makeCells place) = [] ∧
      ∃ loaded, Mentions.Says name (Stmt.mentionsOfBody (makeCells place)) loaded false := by
  unfold makeCells
  induction place.cells with
  | nil => exact ⟨rfl, rfl, false, .nil⟩
  | cons cell rest induction =>
    obtain ⟨plain, noDefinitions, loaded, told⟩ := induction
    rw [List.map_cons]
    refine ⟨?_, ?_, ?_⟩
    · rw [Stmt.arePlain_cons, plain, Stmt.isPlain_store, Bool.and_true, Expr.isPlain_supportCall]
      split <;> rfl
    · exact noDefinitions
    · rw [Stmt.mentionsOfBody, Stmt.mentions_store]
      exact ⟨_, ((Mentions.Says.load _).append
        (.bind_reserved user (isReserved_cellName cell))).append told⟩

theorem insertCells_resolved {before after added : List Stmt} {loaded : Bool} (place : Nat)
    (resolved : BodyResolved name before after) (plain : Stmt.arePlain expanded added = true)
    (noDefinitions : Stmt.outlinesOfBody added = [])
    (told : Mentions.Says name (Stmt.mentionsOfBody added) loaded false) :
    BodyResolved name before (Stmt.insertAt place added after) := by
  have parts : Stmt.mentionsOfBody after =
      Stmt.mentionsOfBody (after.take place) ++ Stmt.mentionsOfBody (after.drop place) := by
    rw [← Stmt.mentionsOfBody_append, List.take_append_drop]
  obtain ⟨afterPlain, linked⟩ := resolved
  rw [parts] at linked
  refine ⟨Stmt.arePlain_insertAt plain afterPlain, ?_⟩
  rw [Stmt.outlinesOfBody_insertAt noDefinitions, Stmt.insertAt, Stmt.mentionsOfBody_append,
    Stmt.mentionsOfBody_append]
  have undeclared := linked.undeclared
  rw [Mentions.declaration?_append, Option.or_eq_none_iff] at undeclared
  have undeclared' : Mentions.declaration? (Stmt.mentionsOfBody (after.take place) ++
      Stmt.mentionsOfBody added ++ Stmt.mentionsOfBody (after.drop place)) name = none := by
    simp [undeclared, told.declares]
  refine ⟨⟨fun _ => undeclared', fun unbound => ?_, linked.inner⟩, undeclared'⟩
  have binds := linked.binds unbound
  rw [Mentions.binds_append, Bool.or_eq_false_iff] at binds
  simp [binds, told.binds]

/-- A function whose body is resolved. -/
theorem function_resolved {decorators decorators' : List Expr} {position : Position}
    {ident : Ident} {params params' : List Param} {result : Option Expr} {body after : List Stmt}
    (plain : Stmt.isPlain expanded (.function decorators position ident params result body) = true)
    (decoratorsPlain : Expr.arePlain decorators' = true)
    (paramsPlain : params'.all Param.isPlain = true)
    (sameParams : Collector.paramNames params' = Collector.paramNames params)
    (resolved : BodyResolved name body after) :
    BodyResolved name [.function decorators position ident params result body]
      [.function decorators' position ident params' result after] := by
  have reserved : isReserved ident.name = true := Stmt.reserved_of_isPlain rfl plain
  have silent := Stmt.not_topNonlocals_of_undeclared resolved.linked.undeclared
  refine ⟨?_, ?_⟩
  · simp only [Stmt.isPlain, Bool.and_eq_true] at plain
    simp [Stmt.isPlain, reserved, plain.1.2, decoratorsPlain, paramsPlain, resolved.plain]
  · simp only [Stmt.mentionsOfBody, Stmt.outlinesOfBody, List.append_nil]
    exact ⟨.function sameParams (fun _ => silent) resolved.linked.toSpares,
      (Mentions.Says.functionMentions ..).declares⟩

theorem enter_gives (opened : Opened) : judge.Gives (fun _ => True) (Descent.enter opened) := by
  intro scopes
  cases scopes with
  | nil => exact fun _ _ => ⟨trivial, rfl⟩
  | cons scope later => exact (Descent.Gives.enter opened).imp fun _ _ => trivial

theorem leave_gives (opened : Opened) : judge.Gives (fun _ => True) (Descent.leave opened) :=
  fun _ => (Descent.Gives.leave opened).imp fun _ _ => trivial

/-- The head of a function is revised, and its body is always entered. -/
theorem enterFunction_gives (place : Place) {decorators : List Expr} {position : Position}
    {ident : Ident} {params : List Param} {result : Option Expr} {body : List Stmt}
    (plain : Stmt.isPlain expanded (.function decorators position ident params result body) = true) :
    judge.Gives (fun entered => ∃ decorators' params' inside,
      entered = (⟨decorators', position, ident, params', result⟩, some inside) ∧
      Expr.arePlain decorators' = true ∧ params'.all Param.isPlain = true ∧
      Collector.paramNames params' = Collector.paramNames params)
      (pass.enterFunction place ⟨decorators, position, ident, params, result⟩ body) := by
  have revises := visitor_revises place
  have decoratorsPlain := Stmt.decorators_of_isPlain plain
  refine judge.bind (Expr.reviseList_gives revises decorators decoratorsPlain)
    fun decorators' decoratorsGiven => ?_
  refine judge.bind (Expr.reviseParams_gives revises params (Stmt.params_of_isPlain plain))
    fun params' paramsGiven => ?_
  refine judge.bind (enter_gives place.opened) fun opened _ => judge.pure ?_
  exact ⟨_, _, _, rfl, decoratorsGiven.1, paramsGiven.1, paramsGiven.2.1⟩

theorem pass_relates (user : isReserved name = false) :
    Pass.Relates judge expanded pass (fun _ => TestLinked (Resolved name))
      (fun _ => BodyResolved name) (fun _ => HandlersLinked expanded (Resolved name)) where
  congruence _ := BodyRelated.congruence Resolved.additive
  noClasses := rfl
  test place test plain scopes :=
    (Expr.revise_gives (visitor_revises place) test plain scopes).imp
      fun _ given => ⟨given.1, .of_told (.load _)⟩
  simple place stmt simple plain := ofStmt_gives place stmt simple plain
  function place next decorators position ident params result body plain inner := by
    rw [Pass.stmt]
    refine judge.bind (enterFunction_gives place plain) ?_
    rintro _ ⟨decorators', params', inside, rfl, decoratorsPlain, paramsPlain, sameParams⟩
    refine judge.bind (inner inside) fun after resolved => ?_
    refine judge.bind (leave_gives inside.opened) fun _ _ => judge.pure ?_
    obtain ⟨cellsPlain, noDefinitions, _, told⟩ := makeCells_told user inside
    exact function_resolved plain decoratorsPlain paramsPlain sameParams
      (insertCells_resolved _ resolved cellsPlain noDefinitions told).orPass

end Closure

theorem resolveClosures_gives {name : String} (user : isReserved name = false) {scope : Scope}
    {body : List Stmt} (plain : Stmt.arePlain Definition.expanded body = true) :
    Desugar.Gives (fun _ => False) (Closure.BodyResolved name body) (resolveClosures scope body) := by
  have given := Pass.body_relates (Closure.pass_relates user) (.ofOpened (.ofModule scope)) body
    plain scope.children
  exact given.run.imp fun _ ⟨_, resolved⟩ => resolved

end Unsugar
