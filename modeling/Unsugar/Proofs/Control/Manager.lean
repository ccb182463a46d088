import Unsugar.Proofs.Control.Unpacking

/-! Context managers. A manager is entered, its target is bound, and it is left exactly
once after that, because of the error if the rest of the statement fails and without
one otherwise. The statements that call the support module for it do the same. -/

namespace Unsugar

open Desugar (Ends)

/-! ## The statements -/

namespace Lowering

/-- The call that leaves a context manager. -/
def leaveFor (exit : String) (reason : Expr) : Stmt :=
  .perform "contextmanager_exit" [.ofName exit, reason]

/-- What is done with an error in a statement with a context manager. -/
def failingFor (exit succeeded : String) : List Stmt :=
  [.store succeeded (.ofBool false), leaveFor exit (.supportCall "exc_info" [])]

/-- What is done in the end. -/
def endingFor (exit succeeded : String) : List Stmt :=
  [.choose (.ofName succeeded) [leaveFor exit .absent] [], .store exit .absent]

/-- The call that enters a context manager. -/
def enterFor (manager : String) : Expr :=
  .supportCall "contextmanager_enter" [.ofName manager]

/-- The statements for one context manager, with those that enter it and those that
follow. -/
def manageFor (manager exit succeeded : String) (value : Expr) (entered inner : List Stmt) :
    List Stmt :=
  [.store manager value,
   .store exit (.supportCall "contextmanager_get_exit" [.ofName manager])] ++ entered ++
  [.store succeeded (.ofBool true),
   .tryBlock .unknown inner [.mk .unknown none none (failingFor exit succeeded)] []
    (endingFor exit succeeded)]

/-- The statements that enter a context manager and bind its target. -/
def entering (env : Env) (manager : String) : Option Expr → Desugar (List Stmt)
  | none => return [.expression (enterFor manager)]
  | some target => assignTo env target (enterFor manager) (return enterFor manager)

theorem managing_cons {form : Form} {env : Env} (agrees : env.options = form.options)
    (position : Position) (body : Desugar (List Stmt)) {item : WithItem}
    (lowered : item.manager.isLowered form = true) (rest : List WithItem) :
    managing env position body (item :: rest) = (do
      let manager ← Desugar.fresh "with_ctx"
      let exit ← Desugar.fresh "with_exit"
      let succeeded ← Desugar.fresh "with_ok"
      Desugar.apply .withBlock .visit position
      let entered ← entering env manager item.target
      let inner ← managing env position body rest
      return manageFor manager exit succeeded item.manager entered inner) := by
  have enters : ∀ manager, lower env (enterFor manager) = pure (enterFor manager) := fun manager =>
    lower_of_isLowered env agrees _ (by simp [enterFor])
  rw [managing]
  simp only [storing, lower_of_isLowered env agrees _ lowered, pure_bind, flush_pure]
  cases item.target with
  | none => rfl
  | some target =>
    simp only [entering, ← enters]
    rfl

end Lowering

/-! ## What statements with context managers do -/

namespace Action

variable {Value Memory Reason Other α β : Type} {hidden : List String}

theorem setting_followed (name : String) (value : Option Value)
    (next : Unit → Action (Store Value Memory) Reason α)
    (last : Except Reason α → Action (Store Value Memory) Reason β) :
    followed (setting hidden name value >>= next) last = (do
      setting hidden name value
      followed (next ()) last) := by
  funext before
  rw [setting_bind]
  refine funext fun ended => funext fun after => ?_
  unfold followed
  rw [setting_bind]

end Action

namespace Language

open Unsugar.Action Lowering

variable {Value Memory : Type}

/-- What the functions of the support module do that are called for context managers. -/
structure Managing (language : Language Value Memory) where
  /-- What leaves a context manager. -/
  exitOf : Value → Action (Visible Value Memory) Value Value
  /-- Leaves a context manager, because of an error or not; the result tells whether
  the error is dropped. -/
  leave : (exit : Value) → Option Value → Action (Visible Value Memory) Value Bool
  /-- What tells about an error. -/
  info : Value → Value
  support_getExit : ∀ handled manager,
    language.support handled "contextmanager_get_exit" [manager] = exitOf manager
  support_enter : ∀ handled manager,
    language.support handled "contextmanager_enter" [manager] = language.enter manager
  support_excInfo : ∀ error, language.support (some error) "exc_info" [] = pure (info error)
  support_exit : ∀ handled exit,
    language.support handled "contextmanager_exit" [exit, language.constant .none] = (do
      let _ ← leave exit none
      return language.constant .none)
  support_exitFailed : ∀ handled exit error,
    language.support handled "contextmanager_exit" [exit, info error] = (do
      if ← leave exit (some error) then return language.constant .none
      else ofResult (.error error))

def sequencesManage : sequences.Managing where
  exitOf := pure
  leave _ _ := pure false
  info error := .tuple [error]
  support_getExit _ _ := rfl
  support_enter _ _ := rfl
  support_excInfo _ := rfl
  support_exit _ _ := by
    rw [pure_bind]
    rfl
  support_exitFailed _ _ _ := by
    rw [pure_bind]
    rfl

/-- What the generated statements do after those that follow a manager ended. -/
def closing (language : Language Value Memory) (hidden : List String) (handled : Option Value)
    (exit succeeded : String) (ended : Except (Interruption Value) Unit) :
    Action (Store Value Memory) (Interruption Value) Unit :=
  followed
    (caught (fun error => language.runHandlers hidden
      [.mk .unknown none none (failingFor exit succeeded)] error)
      (language.runAll hidden [] handled) ended)
    fun told => do
      language.runAll hidden (endingFor exit succeeded) (handledAfter handled told)
      ofResult told

theorem run_tryFor (language : Language Value Memory) (hidden : List String)
    (handled : Option Value) (exit succeeded : String) (inner : List Stmt) :
    language.run hidden (.tryBlock .unknown inner
      [.mk .unknown none none (failingFor exit succeeded)] [] (endingFor exit succeeded)) handled =
      followed (language.runAll hidden inner handled)
        (language.closing hidden handled exit succeeded) := by
  rw [run, catching_eq_followed]
  exact followed_followed _ _ _

namespace Managing

variable {language : Language Value Memory} (managing : language.Managing)
  (unpacking : language.Unpacking) (hidden : List String) (handled : Option Value)

/-- Leaves a context manager without an error, unless the rest of its statement failed. -/
def leaveIf (succeeded : Bool) (exit : Value) :
    Action (Store Value Memory) (Interruption Value) Unit :=
  if succeeded then do
    let _ ← raising (ofVisible (managing.leave exit none))
    return
  else return

/-- Leaves a context manager after the rest of its statement ended. -/
def leaving (exit : Value) :
    Except (Interruption Value) Unit → Action (Store Value Memory) (Interruption Value) Unit
  | .error (.raises error) => do
    if ← raising (ofVisible (managing.leave exit (some error))) then return
    else ofResult (.error (.raises error))
  | ended => do
    managing.leaveIf true exit
    ofResult ended

/-- Binds the target of a context manager, if it has one. -/
def bindTarget : Option Expr → Value → Action (Store Value Memory) Value Unit
  | none, _ => return
  | some target, value => unpacking.destructure hidden handled target value

/-- A body with context managers around it. A manager is left exactly once if it was
entered and its target was bound, and not at all otherwise. -/
def within (body : Action (Store Value Memory) (Interruption Value) Unit) :
    List WithItem → Action (Store Value Memory) (Interruption Value) Unit
  | [] => body
  | item :: rest => do
    let manager ← raising (language.eval hidden handled item.manager)
    let exit ← raising (ofVisible (managing.exitOf manager))
    let entered ← raising (ofVisible (language.enter manager))
    raising (bindTarget unpacking hidden handled item.target entered)
    followed (within body rest) (managing.leaving exit)

/-! ### Laws -/

section Laws

variable {hidden}

theorem leaveIf_ignores (succeeded : Bool) (exit : Value) :
    (managing.leaveIf succeeded exit : Action (Store Value Memory) _ _).Ignores := by
  unfold leaveIf
  split
  · exact (Ignores.raising (.ofVisible _)).bind fun _ => .pure _
  · exact .pure _

theorem leaving_ignores (exit : Value) (ended : Except (Interruption Value) Unit) :
    (managing.leaving exit ended : Action (Store Value Memory) _ _).Ignores := by
  unfold leaving
  split
  · refine (Ignores.raising (.ofVisible _)).bind fun dropped => ?_
    split
    · exact .pure _
    · exact .ofResult _
  · exact (managing.leaveIf_ignores true exit).bind fun _ => .ofResult _

theorem bindTarget_ignores {target : Option Expr} {depth : Nat}
    (avoids : Avoids hidden (Expr.walkOption (fun _ => true) depth target)) (value : Value) :
    (bindTarget unpacking hidden handled target value).Ignores := by
  cases target with
  | none => exact .pure _
  | some target => exact unpacking.destructure_ignores handled target depth avoids value

theorem within_ignores {body : Action (Store Value Memory) (Interruption Value) Unit}
    (bodyIgnores : body.Ignores) : ∀ {items : List WithItem} {depth : Nat},
      Avoids hidden (items.flatMap (WithItem.walk (fun _ => true) depth)) →
        (managing.within unpacking hidden handled body items).Ignores
  | [], _, _ => bodyIgnores
  | item :: rest, depth, avoids => by
    rw [List.flatMap_cons, avoids_append, WithItem.walk, avoids_append] at avoids
    obtain ⟨⟨manager, target⟩, later⟩ := avoids
    refine (language.eval_ignores handled _ depth manager).raising.bind fun _ => ?_
    refine (Ignores.raising (.ofVisible _)).bind fun _ => ?_
    refine (Ignores.raising (.ofVisible _)).bind fun _ => ?_
    refine (bindTarget_ignores unpacking handled target _).raising.bind fun _ => ?_
    exact (within_ignores bodyIgnores later).followed fun _ => managing.leaving_ignores _ _

theorem leaving_eq (leaves : managing.leave = language.exit) (manager : Value)
    (ended : Except (Interruption Value) Unit) :
    (managing.leaving manager ended : Action (Store Value Memory) _ _) =
      language.leaving manager ended := by
  have closes : (do managing.leaveIf true manager; ofResult ended :
      Action (Store Value Memory) (Interruption Value) Unit) = (do
        let _ ← raising (ofVisible (language.exit manager none))
        ofResult ended) := by
    rw [leaveIf, if_pos rfl, leaves]
    simp only [bind_assoc, pure_bind]
  rcases ended with (_ | _ | _ | _) | _
  · exact closes
  · exact closes
  · exact closes
  · rw [leaving, leaves]
    rfl
  · exact closes

/-- Where a manager is left by itself and its target is a name, so that it can be bound
whatever the value, it makes no difference that this is done ahead. -/
theorem within_eq (finds : ∀ manager, managing.exitOf manager = pure manager)
    (leaves : managing.leave = language.exit)
    (body : Action (Store Value Memory) (Interruption Value) Unit) :
    ∀ items : List WithItem,
      (∀ item ∈ items, ∀ target ∈ item.target, ∃ position id, target = .name position id) →
        managing.within unpacking hidden handled body items =
          language.within hidden handled body items
  | [], _ => rfl
  | item :: rest, each => by
    obtain ⟨isName, others⟩ := List.forall_mem_cons.mp each
    have left : ∀ manager, managing.leaving manager = language.leaving manager := fun manager =>
      funext fun ended => managing.leaving_eq leaves manager ended
    have bound : ∀ (manager entered : Value),
        (do
          raising (bindTarget unpacking hidden handled item.target entered)
          followed (language.within hidden handled body rest) (language.leaving manager)) =
        followed
          (do
            raising (language.assignAll hidden handled entered item.target.toList)
            language.within hidden handled body rest)
          (language.leaving manager) := fun manager entered => by
      cases target : item.target with
      | none =>
        change (do raising (pure ()); followed _ _) = followed (do raising (pure ()); _) _
        rw [raising_pure, pure_bind, pure_bind]
      | some name =>
        obtain ⟨position, id, rfl⟩ := isName name target
        change (do raising (setting hidden id (some entered)); followed _ _) =
          followed (do raising (do setting hidden id (some entered); pure ()); _) _
        rw [bind_pure_unit, raising_setting, setting_followed]
    rw [within, Language.within]
    simp only [finds, left, ofVisible_pure, raising_pure, pure_bind, bound,
      within_eq finds leaves body rest others]
    rfl

end Laws

/-! ## What the generated statements do -/

section Generated

variable {hidden} {exit succeeded : String} {found : Value} {own : String → Option Value}
  {visible : Visible Value Memory}

/-- Leaving a manager without an error, by a call. -/
theorem run_leaveFor (holds : Store.lookup hidden ⟨visible, own⟩ exit = some found) :
    language.run hidden (leaveFor exit .absent) handled ⟨visible, own⟩ =
      managing.leaveIf true found ⟨visible, own⟩ := by
  have performs : (language.perform handled "contextmanager_exit"
      [found, language.constant .none] : Action (Store Value Memory) Value Value) = (do
        let _ ← ofVisible (managing.leave found none)
        return language.constant .none) := by
    rw [language.perform_eq_support handled _ (by decide), managing.support_exit]
    simp only [ofVisible_bind, ofVisible_pure]
  have reason : language.evalAll hidden handled [.absent] = pure [language.constant .none] :=
    language.evalAll_singleton handled rfl
  rw [leaveFor, Stmt.perform, run, language.supportCall_bind_of_lookup handled holds reason,
    performs, leaveIf, if_pos rfl]
  simp only [raising_bind, raising_pure, bind_assoc, pure_bind]

/-- Leaving a manager because of an error, by a call. -/
theorem run_leaveFor_failed (error : Value)
    (holds : Store.lookup hidden ⟨visible, own⟩ exit = some found) :
    language.run hidden (leaveFor exit (.supportCall "exc_info" [])) (some error) ⟨visible, own⟩ =
      managing.leaving found (.error (.raises error)) ⟨visible, own⟩ := by
  have performs : (language.perform (some error) "contextmanager_exit"
      [found, managing.info error] : Action (Store Value Memory) Value Value) = (do
        if ← ofVisible (managing.leave found (some error)) then return language.constant .none
        else ofResult (.error error)) := by
    rw [language.perform_eq_support _ _ (by decide), managing.support_exitFailed, ofVisible_bind]
    refine bind_congr fun dropped => ?_
    cases dropped
    · exact ofVisible_ofResult _
    · exact ofVisible_pure _
  have info : language.eval hidden (some error) (.supportCall "exc_info" []) =
      pure (managing.info error) := by
    rw [eval_supportCall, evalAll, pure_bind, language.perform_eq_support _ _ (by decide),
      managing.support_excInfo, ofVisible_pure]
  have reason := language.evalAll_singleton (some error) info
  rw [leaveFor, Stmt.perform, run, language.supportCall_bind_of_lookup (some error) holds reason,
    performs, leaving, raising_bind, bind_assoc]
  refine congrFun (bind_congr fun dropped => ?_) _
  cases dropped
  · exact (congrArg (· >>= _) (raising_error error)).trans (error_bind _ _)
  · exact (congrArg (· >>= _) (raising_pure _)).trans (pure_bind _ _)

/-- What is done in the end, where it is noted whether the rest of the statement failed. -/
theorem runAll_endingFor {isNoted : Bool} (exitHidden : exit ∈ hidden)
    (succeededHidden : succeeded ∈ hidden) (holds : own exit = some found)
    (notes : language.Notes succeeded isNoted own) (visible : Visible Value Memory) :
    language.runAll hidden (endingFor exit succeeded) handled ⟨visible, own⟩ =
      (do
        managing.leaveIf isNoted found
        setting hidden exit (some (language.constant .none))) ⟨visible, own⟩ := by
  have stores : language.run hidden (.store exit .absent) handled =
      setting hidden exit (some (language.constant .none)) := by
    rw [run_store, eval_absent, pure_bind, raising_setting]
  have isExit : Store.lookup hidden ⟨visible, own⟩ exit = some found :=
    (if_pos exitHidden).trans holds
  rw [endingFor, runAll, runAll_singleton, run_choose, stores, bind_assoc,
    language.holds_bind_of_notes handled succeededHidden notes]
  cases isNoted with
  | true =>
    rw [if_pos rfl, runAll_singleton]
    exact bind_congr_at (managing.run_leaveFor handled isExit) _
  | false => rfl

section Leaving

variable (exitHidden : exit ∈ hidden) (succeededHidden : succeeded ∈ hidden)

include exitHidden succeededHidden

/-- A manager is left in the end if it was not left because of an error. -/
theorem mirrors_ending {isNoted : Bool} (holds : own exit = some found)
    (notes : language.Notes succeeded isNoted own) (ended : Except (Interruption Value) Unit) :
    Mirrors (Leaving fun _ late => ChangedOnly [succeeded, exit] own late) own
      (do managing.leaveIf isNoted found; ofResult ended)
      (do language.runAll hidden (endingFor exit succeeded) handled; ofResult ended) := by
  have ending := managing.runAll_endingFor handled exitHidden succeededHidden holds notes
  apply Mirrors.congr fun visible => bind_congr_at (ending visible) _
  rw [bind_assoc]
  apply Mirrors.bind (managing.leaveIf_ignores _ _) fun _ => ⟨rfl, .refl⟩
  intro _
  exact .setting exitHidden (.ofResult ⟨rfl, .update _ (by simp)⟩)

/-- However the rest of the statement ended, its manager is left once. -/
theorem mirrors_leaving (different : exit ≠ succeeded) (holds : own exit = some found)
    (notes : language.Notes succeeded true own) (ended : Except (Interruption Value) Unit) :
    Mirrors (Leaving fun _ late => ChangedOnly [succeeded, exit] own late) own
      (managing.leaving found ended) (language.closing hidden handled exit succeeded ended) := by
  have once : ∀ ended, Mirrors (Leaving fun _ late => ChangedOnly [succeeded, exit] own late) own
      (do managing.leaveIf true found; ofResult ended)
      (followed (ofResult ended) fun told => do
        language.runAll hidden (endingFor exit succeeded) (handledAfter handled told)
        ofResult told) := fun ended => by
    rw [ofResult_followed]
    exact managing.mirrors_ending _ exitHidden succeededHidden holds notes ended
  rcases ended with (_ | _ | _ | error) | _
  · exact once _
  · exact once _
  · exact once _
  · have fails : Mirrors
        (Leaving fun _ late => late exit = some found ∧ language.Notes succeeded false late ∧
          ChangedOnly [succeeded, exit] own late) own
        (managing.leaving found (.error (.raises error)))
        (language.runHandlers hidden [.mk .unknown none none (failingFor exit succeeded)] error) := by
      have stores : language.run hidden (.store succeeded (.ofBool false)) (some error) =
          setting hidden succeeded (some (language.constant (.boolean false))) :=
        language.run_note _ _ _
      let noted := Function.update own succeeded (some (language.constant (.boolean false)))
      have holdsStill : noted exit = some found := (Function.update_of_ne different ..).trans holds
      have isExit : ∀ visible : Visible Value Memory,
          Store.lookup hidden ⟨visible, noted⟩ exit = some found := fun _ =>
        (if_pos exitHidden).trans holdsStill
      rw [runHandlers, failingFor, runAll, runAll_singleton, stores]
      apply Mirrors.setting succeededHidden
      apply Mirrors.congr fun visible => managing.run_leaveFor_failed error (isExit visible)
      apply Mirrors.refl (managing.leaving_ignores _ _)
      exact fun _ => ⟨rfl, holdsStill, Function.update_self .., .update _ (by simp)⟩
    rw [← followed_ofResult (managing.leaving found _)]
    apply fails.followed fun _ => .ofResult _
    rintro _ told late ⟨rfl, holds, notes, changed⟩
    have ending := managing.mirrors_ending (handledAfter handled told) exitHidden succeededHidden
      holds notes told
    have isLeft : managing.leaveIf false found = (pure () : Action (Store Value Memory) _ Unit) := rfl
    rw [isLeft, pure_bind] at ending
    apply ending.imp
    rintro _ _ _ ⟨rfl, rest⟩
    exact ⟨rfl, changed.trans rest⟩
  · exact once _

end Leaving

include managing in
theorem standsFor_enter {manager : String} (managerHidden : manager ∈ hidden)
    (holds : own manager = some found) :
    language.StandsFor hidden handled own (enterFor manager) (ofVisible (language.enter found)) := by
  have isManager : ∀ visible : Visible Value Memory,
      Store.lookup hidden ⟨visible, own⟩ manager = some found := fun _ =>
    (if_pos managerHidden).trans holds
  refine .of_eval handled (.ofVisible _) fun visible => ?_
  rw [← bind_pure (raising _), enterFor,
    language.supportCall_bind_of_lookup handled (isManager visible) rfl,
    language.perform_eq_support handled _ (by decide), managing.support_enter, bind_pure]

theorem runAll_start (manager : String) (value : Expr) :
    language.runAll hidden
      [.store manager value,
       .store exit (.supportCall "contextmanager_get_exit" [.ofName manager])] handled = (do
      let found ← raising (language.eval hidden handled value)
      setting hidden manager (some found)
      let leaves ← raising (ofVisible (managing.exitOf found))
      setting hidden exit (some leaves)) := by
  have performs : ∀ found, (language.perform handled "contextmanager_get_exit" [found] :
      Action (Store Value Memory) Value Value) = ofVisible (managing.exitOf found) := fun found => by
    rw [language.perform_eq_support handled _ (by decide), managing.support_getExit]
  rw [runAll, runAll_singleton, run_store, run_store, eval_supportCall]
  simp only [evalAll, eval_ofName, pure_bind, bind_assoc, raising_bind, raising_setting,
    language.setting_load, performs]

end Generated

end Managing
end Language

/-! ## The rule -/

namespace Lowering

open Unsugar.Action Unsugar.Language

/-- The statements bind a target, if there is one, to what `value` stands for. -/
def Binds (target : Option Expr) (value : Expr) (taken : List String) (made : List Stmt) : Prop :=
  ∀ {Value Memory : Type} {language : Language Value Memory} (unpacking : language.Unpacking)
    {hidden : List String} (handled : Option Value) {own : String → Option Value}
    {found : Action (Store Value Memory) Value Value} {depth : Nat},
    taken ⊆ hidden → Avoids hidden (Expr.walkOption (fun _ => true) depth target) →
    language.StandsFor hidden handled own value found →
    Mirrors (Leaving fun _ late => ChangedOnly taken own late) own
      (raising (do Managing.bindTarget unpacking hidden handled target (← found)))
      (language.runAll hidden made handled)

theorem entering_binds (env : Env) (manager : String) {target : Option Expr}
    (arePatterns : ∀ pattern ∈ target, pattern.isPattern = true) (context : Context) :
    Ends context (entering env manager target) fun made after =>
      ∃ taken, Took taken context after ∧ Binds target (enterFor manager) taken made := by
  cases target with
  | none =>
    refine .pure ⟨[], ⟨rfl, by simp⟩, ?_⟩
    intro _ _ language unpacking hidden handled own found depth _ _ stands
    rw [runAll_singleton, run, raising_bind]
    apply Mirrors.andThen stands
    · exact fun _ => Ignores.raising (.pure _)
    · rintro reason _ rfl
      exact ⟨rfl, .refl⟩
    · rintro value _ rfl
      rw [Managing.bindTarget, raising_pure]
      exact .pure ⟨rfl, .refl⟩
  | some pattern =>
    apply (assignTo_assigns env pattern _ context (arePatterns pattern rfl)).imp
    rintro made after ⟨taken, took, assigned⟩
    refine ⟨taken, took, ?_⟩
    intro _ _ language unpacking hidden handled own found depth areHidden avoids stands
    apply (assigned unpacking handled areHidden avoids stands).imp
    rintro _ _ _ ⟨rfl, released⟩
    exact ⟨rfl, released.changedOnly⟩

/-- The statements do what a body with context managers around it does. -/
def Manages (items : List WithItem) (body : List Stmt) (taken : List String)
    (made : List Stmt) : Prop :=
  ∀ {Value Memory : Type} {language : Language Value Memory} (managing : language.Managing)
    (unpacking : language.Unpacking) {hidden : List String} (handled : Option Value)
    {own : String → Option Value} {depth : Nat},
    taken ⊆ hidden → Avoids hidden (items.flatMap (WithItem.walk (fun _ => true) depth)) →
    Avoids hidden (Stmt.walkBody (fun _ => true) depth body) →
    Mirrors (Leaving fun _ late => ChangedOnly taken own late) own
      (managing.within unpacking hidden handled (language.runAll hidden body handled) items)
      (language.runAll hidden made handled)

theorem manages_none (body : List Stmt) : Manages [] body [] body := by
  intro _ _ language managing unpacking hidden handled own depth _ _ avoids
  exact .refl (language.runAll_ignores body _ handled avoids) fun _ => ⟨rfl, .refl⟩

theorem manages_cons {item : WithItem} {rest : List WithItem} {body entered inner : List Stmt}
    {manager exit succeeded : String} {taken more : List String}
    (distinct : [succeeded, exit, manager].Nodup)
    (apart : ∀ name ∈ [succeeded, exit, manager], name ∉ taken ∧ name ∉ more)
    (binds : Binds item.target (enterFor manager) taken entered)
    (manages : Manages rest body more inner) :
    Manages (item :: rest) body (more ++ (taken ++ [succeeded, exit, manager]))
      (manageFor manager exit succeeded item.manager entered inner) := by
  intro _ _ language managing unpacking hidden handled own depth areHidden avoids bodyAvoids
  rw [List.flatMap_cons, avoids_append, WithItem.walk, avoids_append] at avoids
  obtain ⟨⟨managerAvoids, targetAvoids⟩, restAvoid⟩ := avoids
  let all := more ++ (taken ++ [succeeded, exit, manager])
  have managerHidden : manager ∈ hidden := areHidden (by simp)
  have exitHidden : exit ∈ hidden := areHidden (by simp)
  have succeededHidden : succeeded ∈ hidden := areHidden (by simp)
  rw [manageFor, runAll_append, runAll_append, managing.runAll_start, runAll, runAll_singleton,
    run_note, run_tryFor, Managing.within]
  simp only [bind_assoc]
  apply Mirrors.bind (language.eval_ignores handled _ _ managerAvoids).raising fun _ => ⟨rfl, .refl⟩
  intro found
  apply Mirrors.setting managerHidden
  have managed : ChangedOnly all own (Function.update own manager (some found)) :=
    .update _ (by simp [all])
  apply Mirrors.bind (Ignores.raising (.ofVisible _)) fun _ => ⟨rfl, managed⟩
  intro leaves
  apply Mirrors.setting exitHidden
  let started := Function.update (Function.update own manager (some found)) exit (some leaves)
  have startedOnly : ChangedOnly all own started := managed.trans (.update _ (by simp [all]))
  have isManager : started manager = some found :=
    (Function.update_of_ne (by grind) ..).trans (Function.update_self ..)
  have enters := managing.standsFor_enter handled managerHidden isManager
  have bound := binds unpacking handled (fun _ member => areHidden (by simp [member]))
    targetAvoids enters
  have restIgnores := managing.within_ignores unpacking handled
    (language.runAll_ignores body _ handled bodyAvoids) restAvoid
  rw [← bind_assoc, ← raising_bind]
  apply Mirrors.andThen bound
  · exact fun _ => restIgnores.followed fun _ => managing.leaving_ignores _ _
  · exact fun _ _ changed => ⟨rfl, startedOnly.trans (changed.mono (by simp [all]))⟩
  intro _ late changed
  apply Mirrors.setting succeededHidden
  let noted := Function.update late succeeded (some (language.constant (.boolean true)))
  have notedOnly : ChangedOnly all own noted :=
    (startedOnly.trans (changed.mono (by simp [all]))).trans (.update _ (by simp [all]))
  have different : exit ≠ succeeded := by grind
  have isExit : noted exit = some leaves := calc noted exit
    _ = late exit := Function.update_of_ne different ..
    _ = started exit := changed exit (by grind)
    _ = some leaves := Function.update_self ..
  have inside : Mirrors (Leaving fun _ last => ChangedOnly more noted last) noted _ _ :=
    manages managing unpacking handled (fun _ member => areHidden (by simp [member])) restAvoid
      bodyAvoids
  apply Mirrors.followed inside fun _ => managing.leaving_ignores _ _
  rintro ended _ last ⟨rfl, changedLater⟩
  -- What is inside keeps the exit and the note of this manager.
  have holds : last exit = some leaves := (changedLater exit (by grind)).trans isExit
  have notes : language.Notes succeeded true last :=
    (changedLater succeeded (by grind)).trans (Function.update_self ..)
  apply (managing.mirrors_leaving handled exitHidden succeededHidden different holds notes _).imp
  rintro _ _ _ ⟨rfl, changedLast⟩
  have later : ChangedOnly all own last := notedOnly.trans (changedLater.mono (by simp [all]))
  exact ⟨rfl, later.trans (changedLast.mono (by simp [all]))⟩

/-- An item whose manager is left as it is, and whose target, if it has one, is a pattern
of names. -/
structure Manageable (form : Form) (item : WithItem) : Prop where
  isLowered : item.manager.isLowered form = true
  isPattern : ∀ pattern ∈ item.target, pattern.isPattern = true

theorem managing_manages {form : Form} {env : Env} (agrees : env.options = form.options)
    (position : Position) (body : List Stmt) : ∀ (items : List WithItem) (context : Context),
    (∀ item ∈ items, Manageable form item) →
    Ends context (managing env position (return body) items) fun made after =>
      ∃ taken, Took taken context after ∧ Manages items body taken made
  | [], context, _ => .pure ⟨[], ⟨rfl, by simp⟩, manages_none body⟩
  | item :: rest, context, each => by
    obtain ⟨here, others⟩ := List.forall_mem_cons.mp each
    rw [managing_cons agrees position _ here.isLowered]
    refine .fresh fun manager first managerFree managerTaken => ?_
    refine .fresh fun exit second exitFree exitTaken => ?_
    refine .fresh fun succeeded third succeededFree succeededTaken => ?_
    refine .apply fun applied same => ?_
    have started : Took [succeeded, exit, manager] context applied := {
      reserved := by rw [same, succeededTaken, exitTaken, managerTaken]; rfl
      free := by grind }
    refine (entering_binds env manager here.isPattern applied).bind
      fun entered middle ⟨taken, took, binds⟩ => ?_
    refine (managing_manages agrees position body rest middle others).bind
      fun inner after ⟨more, tookMore, manages⟩ => .pure ?_
    have apart : ∀ name ∈ [succeeded, exit, manager], name ∉ taken ∧ name ∉ more := by
      intro name member
      have known : name ∈ applied.reserved := started.reserved ▸ List.mem_append_left _ member
      exact ⟨fun again => took.free name again known, fun again =>
        tookMore.free name again (took.reserved ▸ List.mem_append_right _ known)⟩
    exact ⟨_, (started.append took).append tookMore,
      manages_cons (by grind) apart binds manages⟩

/-- A statement with context managers becomes statements that leave each manager exactly
once, if it was entered and its target was bound, and never otherwise, as far as user
code sees: because of the error if what comes after failed, and then a later manager, its
target or the body may have failed, or an earlier leaving; and without one however else
it ended. A target is bound ahead of all that: where this fails the manager is not left. -/
theorem managers_left_once {form : Form} {env : Env} (agrees : env.options = form.options)
    {position : Position} {items : List WithItem} {body : List Stmt}
    (areManageable : ∀ item ∈ items, Manageable form item) {context : Context}
    (areTaken : ∀ name ∈ (Stmt.withBlock position items body).names, name ∈ context.reserved)
    (steps : List Step) :
    ∃ made after later hidden,
      managing env position (return body) items context steps = (.ok (made, after), later) ∧
      after.reserved = hidden ++ context.reserved ∧ (∀ name ∈ hidden, name ∉ context.reserved) ∧
      ∀ {Value Memory : Type} (language : Language Value Memory) (managing : language.Managing)
        (unpacking : language.Unpacking) (handled : Option Value) (before : Store Value Memory),
        (language.runAll hidden made handled).seen before =
          (managing.within unpacking hidden handled (language.runAll hidden body handled)
            items).seen before := by
  obtain ⟨made, after, later, ran, hidden, took, manages⟩ :=
    managing_manages agrees position body items context areManageable steps
  refine ⟨made, after, later, hidden, ran, took.reserved, took.free, ?_⟩
  intro Value Memory language managing unpacking handled ⟨visible, own⟩
  have avoids := avoids_of_taken areTaken took.free
  rw [Stmt.walk, avoids_visit, avoids_append] at avoids
  have mirrors : Mirrors (Leaving fun _ late => ChangedOnly hidden own late) own _ _ :=
    manages managing unpacking handled (fun _ => id) avoids.2.1 avoids.2.2
  have alike : Mirrors Alike own _ _ := mirrors.imp fun leaving => leaving.same.symm
  exact alike.seen_eq visible

/-- Two context managers, of which one has a pattern to bind. -/
def twoManagers : List WithItem :=
  [⟨.ofName "source", some pairPattern⟩, ⟨.ofName "lock", none⟩]

theorem twoManagers_left_once :
    (∀ item ∈ twoManagers, Manageable ⟨{}, true⟩ item) ∧
    (∀ name ∈ (Stmt.withBlock .unknown twoManagers [.pass]).names,
      name ∈ (Context.ofModule [.withBlock .unknown twoManagers [.pass]]).reserved) ∧
    ∃ made after later hidden,
      managing ⟨{}, .moduleFrame⟩ .unknown (return [.pass]) twoManagers
        (.ofModule [.withBlock .unknown twoManagers [.pass]]) [] = (.ok (made, after), later) ∧
      ∀ handled before, (sequences.runAll hidden made handled).seen before =
        (sequencesManage.within sequencesUnpack hidden handled
          (sequences.runAll hidden [.pass] handled) twoManagers).seen before := by
  have areManageable : ∀ item ∈ twoManagers, Manageable ⟨{}, true⟩ item := by
    rw [twoManagers, List.forall_mem_cons, List.forall_mem_singleton]
    exact ⟨⟨rfl, by simp [pairPattern]; rfl⟩, ⟨rfl, by simp⟩⟩
  have areTaken : ∀ name ∈ (Stmt.withBlock .unknown twoManagers [.pass]).names,
      name ∈ (Context.ofModule [.withBlock .unknown twoManagers [.pass]]).reserved := by decide
  obtain ⟨made, after, later, hidden, ran, _, _, same⟩ :=
    @managers_left_once ⟨{}, true⟩ ⟨{}, .moduleFrame⟩ rfl _ _ _ areManageable _ areTaken []
  exact ⟨areManageable, areTaken, made, after, later, hidden, ran, fun handled before =>
    same sequences sequencesManage sequencesUnpack handled before⟩

end Lowering
end Unsugar
