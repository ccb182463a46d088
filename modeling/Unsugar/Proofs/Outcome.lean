import Unsugar.Lowering.Operand
import Unsugar.Proofs.Fresh

/-! How the computations of a transformation end. A computation either gives a
value or fails; a judgement says what holds of each value it can give, and which
failures are possible. Statements that lowering sets aside are computations too,
so the judgement on lowering also says what those give when they are run. -/

namespace Unsugar

variable {α β : Type}

/-- A failure that refuses a construct of the module. -/
def Failure.IsRefusal : Failure → Prop
  | unsupported .. => True
  | _ => False

/-! ## Traces -/

namespace Traced

/-- Each value that a computation gives has a property, and its failures are allowed. -/
def Ends (allowed : Failure → Prop) (holds : α → Prop) (action : Traced α) : Prop :=
  ∀ steps, match (action steps).1 with
    | .ok value => holds value
    | .error failure => allowed failure

namespace Ends

variable {allowed : Failure → Prop} {holds : α → Prop} {result : β → Prop}

theorem pure {value : α} (valid : holds value) : Ends allowed holds (Pure.pure value : Traced α) :=
  fun _ => valid

theorem throw {failure : Failure} (valid : allowed failure) :
    Ends allowed holds (MonadExcept.throw failure : Traced α) :=
  fun _ => valid

theorem note (step : Step) : Ends allowed (fun _ => True) (Traced.note step) :=
  fun _ => trivial

theorem bind {action : Traced α} {next : α → Traced β} (first : Ends allowed holds action)
    (rest : ∀ value, holds value → Ends allowed result (next value)) :
    Ends allowed result (action >>= next) := by
  intro steps
  have ended := first steps
  change match ((ExceptT.bind action next) steps).1 with
    | .ok value => result value
    | .error failure => allowed failure
  simp only [ExceptT.bind, ExceptT.mk]
  revert ended
  simp only [Bind.bind, StateT.bind]
  rcases action steps with ⟨failure | value, later⟩ <;> intro ended
  · exact ended
  · exact rest value ended later

theorem mono {wider : Failure → Prop} {weaker : α → Prop} {action : Traced α}
    (given : Ends allowed holds action) (failures : ∀ failure, allowed failure → wider failure)
    (values : ∀ value, holds value → weaker value) : Ends wider weaker action := by
  intro steps
  have ended := given steps
  revert ended
  rcases (action steps).1 with failure | value <;> intro ended
  · exact failures failure ended
  · exact values value ended

/-- Where every failure is wrapped, the wrapped ones are what is left. -/
theorem tryCatch {action : Traced α} {wrap : Failure → Failure}
    (valid : ∀ failure, allowed (wrap failure)) :
    Ends allowed (fun _ => True)
      (MonadExcept.tryCatch action fun failure => MonadExcept.throw (wrap failure)) := by
  intro steps
  simp only [MonadExcept.tryCatch, tryCatchThe, MonadExceptOf.tryCatch, ExceptT.tryCatch,
    ExceptT.mk, Bind.bind, StateT.bind]
  rcases action steps with ⟨failure | value, later⟩
  · exact valid failure
  · exact trivial

end Ends
end Traced

namespace Desugar

/-! ## Running -/

theorem run_pure (value : α) (context : Context) (steps : List Step) :
    (pure value : Desugar α) context steps = (.ok (value, context), steps) := rfl

theorem run_bind (action : Desugar α) (next : α → Desugar β) (context : Context)
    (steps : List Step) :
    (action >>= next) context steps =
      match action context steps with
      | (.ok (value, after), later) => next value after later
      | (.error reason, later) => (.error reason, later) := by
  simp only [bind, StateT.bind, ExceptT.bind, ExceptT.mk]
  rcases action context steps with ⟨_ | ⟨value, after⟩, later⟩ <;> rfl

/-! ## Judgements -/

/-- Each value that a computation gives has a property, and its failures are
allowed. It is part of one pass, and leaves the number of passes as it is. -/
def Gives (allowed : Failure → Prop) (holds : α → Prop) (action : Desugar α) : Prop :=
  ∀ context steps,
    match (action context steps).1 with
    | .ok (value, after) => holds value ∧ after.passes = context.passes
    | .error reason => allowed reason

namespace Gives

variable {allowed : Failure → Prop} {holds : α → Prop} {result : β → Prop}

theorem pure {value : α} (valid : holds value) :
    Gives allowed holds (Pure.pure value : Desugar α) :=
  fun _ _ => ⟨valid, rfl⟩

theorem bind {action : Desugar α} {next : α → Desugar β} (first : Gives allowed holds action)
    (rest : ∀ value, holds value → Gives allowed result (next value)) :
    Gives allowed result (action >>= next) := by
  intro context steps
  have ended := first context steps
  rw [run_bind]
  revert ended
  rcases action context steps with ⟨reason | ⟨value, after⟩, later⟩ <;> intro ended
  · exact ended
  · have last := rest value ended.1 after later
    revert last
    rcases (next value after later).1 with reason | ⟨result, final⟩ <;> intro last
    · exact last
    · exact ⟨last.1, last.2.trans ended.2⟩

theorem imp {action : Desugar α} {weaker : α → Prop} (given : Gives allowed holds action)
    (implies : ∀ value, holds value → weaker value) : Gives allowed weaker action := by
  intro context steps
  have ended := given context steps
  revert ended
  rcases (action context steps).1 with reason | ⟨value, after⟩ <;> intro ended
  · exact ended
  · exact ⟨implies value ended.1, ended.2⟩

theorem allow {wider : Failure → Prop} {action : Desugar α} (given : Gives allowed holds action)
    (implies : ∀ failure, allowed failure → wider failure) : Gives wider holds action := by
  intro context steps
  have ended := given context steps
  revert ended
  rcases (action context steps).1 with reason | ⟨value, after⟩ <;> intro ended
  · exact implies reason ended
  · exact ended

/-- A computation that cannot fail keeps within any failures that are allowed. -/
theorem anyway {action : Desugar α} (given : Gives (fun _ => False) holds action) :
    Gives allowed holds action :=
  given.allow fun _ impossible => impossible.elim

theorem map {action : Desugar α} {change : α → β} (given : Gives allowed holds action)
    (implies : ∀ value, holds value → result (change value)) :
    Gives allowed result (change <$> action) := by
  rw [map_eq_pure_bind]
  exact given.bind fun value valid => .pure (implies value valid)

/-- A computation that cannot fail gives a value. -/
theorem runs {action : Desugar α} (given : Gives (fun _ => False) holds action)
    (context : Context) (steps : List Step) :
    ∃ value after later, action context steps = (.ok (value, after), later) := by
  have ended := given context steps
  revert ended
  rcases action context steps with ⟨reason | ⟨value, after⟩, later⟩ <;> intro ended
  · exact ended.elim
  · exact ⟨value, after, later, rfl⟩

theorem holds_of_run {action : Desugar α} {context after : Context} {steps later : List Step}
    {value : α} (given : Gives allowed holds action)
    (run : action context steps = (.ok (value, after), later)) : holds value := by
  have ended := given context steps
  rw [run] at ended
  exact ended.1

theorem fresh (base : String) :
    Gives allowed (isReserved · = true) (Desugar.fresh base) :=
  fun context _ => ⟨context.isReserved_fresh base, rfl⟩

theorem fresh_numbered (base : String) :
    Gives allowed (∃ number, · = numberedName base number) (Desugar.fresh base) :=
  fun _ _ => ⟨⟨_, rfl⟩, rfl⟩

theorem touch : Gives allowed (fun _ => True) Desugar.touch :=
  fun _ _ => ⟨trivial, rfl⟩

theorem apply (rule : Rule) (outcome : Outcome) (position : Position) :
    Gives allowed (fun _ => True) (Desugar.apply rule outcome position) :=
  fun _ _ => ⟨trivial, rfl⟩

theorem note (step : Step) : Gives allowed (fun _ => True) (Desugar.note step) :=
  fun _ _ => ⟨trivial, rfl⟩

theorem refuse (position : Position) (construct : Construct) :
    Gives Failure.IsRefusal holds (Desugar.refuse position construct) :=
  fun _ _ => trivial

end Gives
end Desugar

/-! ## Lowering -/

/-- What an item is made of, without its mark. -/
def Lowering.Item.value {α : Type} : Item α → α
  | plain value => value
  | unpacked _ _ value => value

theorem Deferred.runAll_append (front back : List Deferred) :
    runAll (front ++ back) = (do return (← runAll front) ++ (← runAll back)) := by
  induction front with
  | nil => simp [runAll]
  | cons first rest induction =>
    simp only [List.cons_append, runAll, induction, bind_assoc, pure_bind, List.append_assoc]

theorem Deferred.runAll_singleton (deferred : Deferred) : runAll [deferred] = deferred := by
  simp [runAll]

open Desugar in
theorem Deferred.runAll_gives {allowed : Failure → Prop} {holds : Stmt → Prop} :
    ∀ {statements : List Deferred},
      (∀ deferred ∈ statements, Gives allowed (∀ stmt ∈ ·, holds stmt) deferred) →
      Gives allowed (∀ stmt ∈ ·, holds stmt) (runAll statements)
  | [], _ => .pure (by simp)
  | first :: rest, each => by
    refine (each first (by simp)).bind fun here hereHolds => ?_
    refine (runAll_gives fun deferred member => each deferred (by simp [member])).bind
      fun later laterHolds => .pure fun stmt member => ?_
    rcases List.mem_append.mp member with member | member
    · exact hereHolds stmt member
    · exact laterHolds stmt member

namespace Lowering

/-- Each value that lowering gives has a property, the statements it sets aside
all have a property of their own once they are run, and only refusals are
possible. -/
def Gives (settled : Stmt → Prop) (holds : α → Prop) (action : Lowering α) : Prop :=
  ∀ ahead : List Deferred,
    (∀ deferred ∈ ahead, Desugar.Gives Failure.IsRefusal (∀ stmt ∈ ·, settled stmt) deferred) →
    Desugar.Gives Failure.IsRefusal
      (fun (value, ahead) => holds value ∧ ∀ deferred ∈ ahead,
        Desugar.Gives Failure.IsRefusal (∀ stmt ∈ ·, settled stmt) deferred)
      (action.run ahead)

namespace Gives

variable {settled : Stmt → Prop} {holds : α → Prop} {result : β → Prop}

theorem pure {value : α} (valid : holds value) :
    Gives settled holds (Pure.pure value : Lowering α) :=
  fun _ each => Desugar.Gives.pure ⟨valid, each⟩

theorem bind {action : Lowering α} {next : α → Lowering β} (first : Gives settled holds action)
    (rest : ∀ value, holds value → Gives settled result (next value)) :
    Gives settled result (action >>= next) := by
  intro ahead each
  rw [StateT.run_bind]
  exact (first ahead each).bind fun (value, ahead) ended => rest value ended.1 ahead ended.2

theorem imp {action : Lowering α} {weaker : α → Prop} (given : Gives settled holds action)
    (implies : ∀ value, holds value → weaker value) : Gives settled weaker action :=
  fun ahead each => (given ahead each).imp fun (value, _) ended =>
    ⟨implies value ended.1, ended.2⟩

/-- A step of the transformation sets nothing aside. -/
theorem lift {action : Desugar α} (given : Desugar.Gives Failure.IsRefusal holds action) :
    Gives settled holds (liftM action : Lowering α) := by
  intro ahead each
  change Desugar.Gives _ _ (action >>= fun value => Pure.pure (value, ahead))
  exact given.bind fun value valid => .pure ⟨valid, each⟩

theorem touch : Gives settled (fun _ => True) Lowering.touch :=
  .lift .touch

theorem fresh (base : String) :
    Gives settled (isReserved · = true) (Lowering.fresh base) :=
  .lift (.fresh base)

theorem emit {statements : Deferred}
    (given : Desugar.Gives Failure.IsRefusal (∀ stmt ∈ ·, settled stmt) statements) :
    Gives settled (fun _ => True) (Lowering.emit statements) := by
  intro ahead each
  refine Desugar.Gives.pure ⟨trivial, fun deferred member => ?_⟩
  rcases List.mem_append.mp member with member | member
  · exact each deferred member
  · rw [List.mem_singleton.mp member]
    exact given

/-- The statements set aside for a statement come ahead of it. -/
theorem flush {build : Lowering Stmt} (given : Gives settled settled build) :
    Desugar.Gives Failure.IsRefusal (∀ stmt ∈ ·, settled stmt) (Lowering.flush build) := by
  refine (given [] (by simp)).bind fun (stmt, ahead) ended => ?_
  refine (Deferred.runAll_gives ended.2).bind fun before beforeHolds => .pure ?_
  intro found member
  rcases List.mem_append.mp member with member | member
  · exact beforeHolds found member
  · rw [List.mem_singleton.mp member]
    exact ended.1

end Gives
end Lowering
end Unsugar
