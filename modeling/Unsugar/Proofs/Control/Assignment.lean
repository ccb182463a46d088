import Unsugar.Proofs.Control.Unpacking

/-! Assignments to several targets. A value that is not simple is kept in a temporary,
and each target is assigned what was kept, from left to right. So the value is evaluated
once, and ahead of all targets. -/

namespace Unsugar

open Desugar (Ends)

namespace Language.Unpacking

open Unsugar.Action

variable {Value Memory : Type} {language : Language Value Memory} (unpacking : language.Unpacking)
  (hidden : List String) (handled : Option Value)

/-- Assigns one value to several patterns, from left to right. -/
def assignEach : List Expr → Value → Action (Store Value Memory) Value Unit
  | [], _ => return
  | target :: rest, value => do
    unpacking.destructure hidden handled target value
    assignEach rest value

variable {hidden}

theorem assignEach_ignores : ∀ {targets : List Expr} {depth : Nat},
    Avoids hidden (Expr.walkList (fun _ => true) depth targets) → ∀ value,
      (unpacking.assignEach hidden handled targets value).Ignores
  | [], _, _, _ => .pure _
  | first :: rest, depth, avoids, value => by
    rw [Expr.walkList, avoids_append] at avoids
    exact (unpacking.destructure_ignores handled first depth avoids.1 value).bind fun _ =>
      assignEach_ignores avoids.2 value

end Language.Unpacking

namespace Lowering

open Unsugar.Action Unsugar.Language

/-- The statements assign what is kept under a hidden name to each target. -/
def AssignsEach (targets : List Expr) (saved : String) (taken : List String)
    (made : List Stmt) : Prop :=
  ∀ {Value Memory : Type} {language : Language Value Memory} (unpacking : language.Unpacking)
    {hidden : List String} (handled : Option Value) {own : String → Option Value} {value : Value}
    {depth : Nat},
    saved ∈ hidden → taken ⊆ hidden →
    Avoids hidden (Expr.walkList (fun _ => true) depth targets) → own saved = some value →
    Mirrors (Leaving fun _ late => ChangedOnly taken own late) own
      (raising (unpacking.assignEach hidden handled targets value))
      (language.runAll hidden made handled)

theorem assignsEach_none (saved : String) : AssignsEach [] saved [] [] := by
  intro _ _ language unpacking hidden handled own value depth _ _ _ _
  rw [Unpacking.assignEach, raising_pure]
  exact .pure ⟨rfl, .refl⟩

theorem assignsEach_cons {target : Expr} {targets : List Expr} {saved : String}
    {taken more : List String} {made later : List Stmt} (untaken : saved ∉ taken)
    (here : Assigns target (.ofName saved) taken made)
    (rest : AssignsEach targets saved more later) :
    AssignsEach (target :: targets) saved (more ++ taken) (made ++ later) := by
  intro _ _ language unpacking hidden handled own value depth isHidden areHidden avoids holds
  rw [Expr.walkList, avoids_append] at avoids
  have stands : language.StandsFor hidden handled own (.ofName saved) (pure value) := by
    refine .of_eval handled (.pure _) fun visible => ?_
    rw [raising_pure, ← bind_pure (raising _), eval_ofName,
      language.load_bind_of_lookup ((if_pos isHidden).trans holds)]
  have first := here unpacking handled (fun _ member => areHidden (by simp [member])) avoids.1 stands
  rw [pure_bind] at first
  rw [Unpacking.assignEach, runAll_append, raising_bind]
  apply Mirrors.andThen first
  · exact fun _ => (unpacking.assignEach_ignores handled avoids.2 value).raising
  · exact fun _ _ released => ⟨rfl, released.changedOnly.mono (by simp)⟩
  intro _ late released
  have kept : late saved = own saved := released.changedOnly saved untaken
  apply (rest unpacking handled isHidden (fun _ member => areHidden (by simp [member])) avoids.2
    (kept.trans holds)).imp
  rintro _ _ _ ⟨rfl, others⟩
  exact ⟨rfl, (released.changedOnly.mono (by simp)).trans (others.mono (by simp))⟩

/-- The assignments of what is kept to each target. -/
def assignSaved (env : Env) (targets : List Expr) (saved : String) : Desugar (List Stmt) :=
  Deferred.runAll (targets.map fun target =>
    assignTo env target (.ofName saved) (return .ofName saved))

theorem assignSaved_assigns (env : Env) (saved : String) :
    ∀ (targets : List Expr) (context : Context),
      (∀ target ∈ targets, target.isPattern = true) → saved ∈ context.reserved →
      Ends context (assignSaved env targets saved) fun made after =>
        ∃ taken, Took taken context after ∧ AssignsEach targets saved taken made
  | [], context, _, _ => .pure ⟨[], ⟨rfl, by simp⟩, assignsEach_none saved⟩
  | target :: rest, context, arePatterns, known => by
    obtain ⟨isPattern, others⟩ := List.forall_mem_cons.mp arePatterns
    refine (assignTo_assigns env target _ context isPattern).bind
      fun made middle ⟨taken, took, assigned⟩ => ?_
    refine (assignSaved_assigns env saved rest middle others
      (took.reserved ▸ by simp [known])).bind fun later after ⟨more, tookMore, each⟩ => .pure ?_
    have untaken : saved ∉ taken := fun member => took.free _ member known
    exact ⟨more ++ taken, took.append tookMore, assignsEach_cons untaken assigned each⟩

theorem assignAll_saved {form : Form} {env : Env} (agrees : env.options = form.options)
    {value : Expr} (lowered : value.isLowered form = true) (notPure : value.isPure = false)
    (targets : List Expr) :
    assignAll env targets value = (do
      let saved ← Desugar.fresh "tmp"
      Desugar.apply .assign .visit (Stmt.assign targets value).start
      return .store saved value :: (← assignSaved env targets saved)) := by
  have stores : ∀ saved, storing saved (lower env value) = pure [.store saved value] := fun saved => by
    rw [storing, lower_of_isLowered env agrees value lowered, pure_bind, flush_pure]
  rw [assignAll, notPure, if_neg Bool.false_ne_true, map_eq_pure_bind, bind_assoc]
  refine bind_congr fun saved => ?_
  rw [pure_bind]
  refine bind_congr fun _ => ?_
  change (do return (← storing saved (lower env value)) ++ (← assignSaved env targets saved)) = _
  rw [stores, pure_bind]
  rfl

/-- A value that is not simple is assigned to several patterns by statements that do just
that, as far as user code sees: it is evaluated once, ahead of all targets, and each
target gets it, from left to right. -/
theorem value_assigned_once {form : Form} {env : Env} (agrees : env.options = form.options)
    {targets : List Expr} {value : Expr} (lowered : value.isLowered form = true)
    (notPure : value.isPure = false) (arePatterns : ∀ target ∈ targets, target.isPattern = true)
    {context : Context}
    (areTaken : ∀ name ∈ (Stmt.assign targets value).names, name ∈ context.reserved)
    (steps : List Step) :
    ∃ made after later hidden,
      assignAll env targets value context steps = (.ok (made, after), later) ∧
      after.reserved = hidden ++ context.reserved ∧ (∀ name ∈ hidden, name ∉ context.reserved) ∧
      ∀ {Value Memory : Type} (language : Language Value Memory) (unpacking : language.Unpacking)
        (handled : Option Value) (before : Store Value Memory),
        (language.runAll hidden made handled).seen before =
          (raising (do
            unpacking.assignEach hidden handled targets
              (← language.eval hidden handled value))).seen before := by
  have ends : Ends context (assignAll env targets value) fun made after =>
      ∃ saved taken stores, Took (taken ++ [saved]) context after ∧
        made = .store saved value :: stores ∧ AssignsEach targets saved taken stores := by
    rw [assignAll_saved agrees lowered notPure]
    refine .fresh fun saved named free taken => .apply fun applied same => ?_
    rw [taken] at same
    have first : Took [saved] context applied := ⟨same, by simpa using free⟩
    exact (assignSaved_assigns env saved targets applied arePatterns (by simp [same])).bind
      fun stores after ⟨more, took, each⟩ =>
        .pure ⟨saved, more, stores, first.append took, rfl, each⟩
  obtain ⟨made, after, later, ran, saved, taken, stores, took, rfl, each⟩ := ends steps
  refine ⟨_, after, later, taken ++ [saved], ran, took.reserved, took.free, ?_⟩
  intro Value Memory language unpacking handled ⟨visible, own⟩
  have avoids := avoids_of_taken areTaken took.free
  rw [Stmt.walk, avoids_visit, avoids_append] at avoids
  have mirrors : Mirrors Alike own
      (raising (do
        unpacking.assignEach (taken ++ [saved]) handled targets
          (← language.eval (taken ++ [saved]) handled value)))
      (language.runAll (taken ++ [saved]) (.store saved value :: stores) handled) := by
    rw [runAll, run_store]
    simp only [raising_bind, raising_setting, bind_assoc]
    apply Mirrors.bind (language.eval_ignores handled value _ avoids.2.2).raising fun _ => rfl
    intro found
    apply Mirrors.setting (by simp)
    have assigned := each unpacking handled (by simp) (by simp) avoids.2.1
      (Function.update_self saved (some found) own)
    exact assigned.imp fun leaving => leaving.same.symm
  exact mirrors.seen_eq visible

/-- The targets of a value that is kept as a whole and taken apart. -/
def pairAndWhole : List Expr :=
  [pairPattern, .ofName "whole"]

def makeCall : Expr :=
  .apply (.ofName "make") []

theorem pairAndWhole_assigned_once :
    makeCall.isLowered ⟨{}, true⟩ = true ∧
    makeCall.isPure = false ∧
    (∀ target ∈ pairAndWhole, target.isPattern = true) ∧
    (∀ name ∈ (Stmt.assign pairAndWhole makeCall).names,
      name ∈ (Context.ofModule [.assign pairAndWhole makeCall]).reserved) ∧
    ∃ made after later hidden,
      assignAll ⟨{}, .moduleFrame⟩ pairAndWhole makeCall
        (.ofModule [.assign pairAndWhole makeCall]) [] =
          (.ok (made, after), later) ∧
      ∀ handled before, (sequences.runAll hidden made handled).seen before =
        (raising (do
          sequencesUnpack.assignEach hidden handled pairAndWhole
            (← sequences.eval hidden handled makeCall))).seen before := by
  have lowered : makeCall.isLowered ⟨{}, true⟩ = true := rfl
  have notPure : makeCall.isPure = false := rfl
  have arePatterns : ∀ target ∈ pairAndWhole, target.isPattern = true := by decide
  have areTaken : ∀ name ∈ (Stmt.assign pairAndWhole makeCall).names,
      name ∈ (Context.ofModule [.assign pairAndWhole makeCall]).reserved := by
    decide
  obtain ⟨made, after, later, hidden, ran, _, _, same⟩ :=
    @value_assigned_once ⟨{}, true⟩ ⟨{}, .moduleFrame⟩ rfl _ _ lowered notPure arePatterns _
      areTaken []
  exact ⟨lowered, notPure, arePatterns, areTaken, made, after, later, hidden, ran,
    fun handled before => same sequences sequencesUnpack handled before⟩

end Lowering
end Unsugar
