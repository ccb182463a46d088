import Unsugar.Proofs.Evaluation.Residual
import Unsugar.Proofs.Outcome

/-! Lowering as preparation. Lowering an expression leaves a residual and sets
statements aside; run first, these make the residual mean what the expression
meant. The names that lowering takes are new, and the statements set aside change
no temporaries but those and the ones taken later, while they are lowered
themselves. -/

namespace Unsugar

open Run

variable {Value Error : Type} {α β : Type}

/-! ## Computations that end well -/

namespace Desugar

/-- From a context, a computation gives a value, and something holds of it and of
the context after it. -/
def Ends (context : Context) (action : Desugar α) (holds : α → Context → Prop) : Prop :=
  ∀ steps, ∃ value after later,
    action context steps = (.ok (value, after), later) ∧ holds value after

namespace Ends

variable {context : Context} {holds weaker : α → Context → Prop} {result : β → Context → Prop}

theorem pure {value : α} (valid : holds value context) :
    Ends context (Pure.pure value : Desugar α) holds :=
  fun steps => ⟨value, context, steps, rfl, valid⟩

theorem bind {action : Desugar α} {next : α → Desugar β} (first : Ends context action holds)
    (rest : ∀ value after, holds value after → Ends after (next value) result) :
    Ends context (action >>= next) result := by
  intro steps
  obtain ⟨value, after, later, run, valid⟩ := first steps
  obtain ⟨last, final, finish, lastRun, lastValid⟩ := rest value after valid later
  exact ⟨last, final, finish, by rw [run_bind, run]; exact lastRun, lastValid⟩

theorem imp {action : Desugar α} (ends : Ends context action holds)
    (implies : ∀ value after, holds value after → weaker value after) :
    Ends context action weaker := by
  intro steps
  obtain ⟨value, after, later, run, valid⟩ := ends steps
  exact ⟨value, after, later, run, implies value after valid⟩

theorem touch {next : Unit → Desugar β}
    (rest : ∀ after : Context, after.reserved = context.reserved → Ends after (next ()) result) :
    Ends context (Desugar.touch >>= next) result :=
  fun steps => rest { context with modified := true } rfl steps

theorem fresh {base : String} {next : String → Desugar β}
    (rest : ∀ name after, name ∉ context.reserved → after.reserved = name :: context.reserved →
      Ends after (next name) result) :
    Ends context (Desugar.fresh base >>= next) result :=
  rest (context.fresh base).1 (context.fresh base).2 (context.fresh_not_mem base) rfl

theorem apply {rule : Rule} {outcome : Outcome} {position : Position} {next : Unit → Desugar β}
    (rest : ∀ after : Context, after.reserved = context.reserved → Ends after (next ()) result) :
    Ends context (Desugar.apply rule outcome position >>= next) result :=
  fun steps => rest { context with modified := true, nodes := context.nodes + 1 } rfl
    (.applied rule outcome (context.nodes + 1) position.line :: steps)

end Ends
end Desugar

open Desugar (Ends)

namespace Lowering

variable {context : Context} {ahead : List Deferred}

theorem ends_bind {action : Lowering α} {next : α → Lowering β}
    {holds : α × List Deferred → Context → Prop} {result : β × List Deferred → Context → Prop}
    (first : Ends context (action.run ahead) holds)
    (rest : ∀ value later after, holds (value, later) after →
      Ends after ((next value).run later) result) :
    Ends context ((action >>= next).run ahead) result := by
  rw [StateT.run_bind]
  exact first.bind fun (value, later) after valid => rest value later after valid

theorem ends_touch {next : Unit → Lowering β} {result : β × List Deferred → Context → Prop}
    (rest : ∀ after : Context, after.reserved = context.reserved →
      Ends after ((next ()).run ahead) result) :
    Ends context ((touch >>= next).run ahead) result :=
  fun steps => rest { context with modified := true } rfl steps

theorem ends_emit {statements : Deferred} {next : Unit → Lowering β}
    {result : β × List Deferred → Context → Prop}
    (rest : Ends context ((next ()).run (ahead ++ [statements])) result) :
    Ends context ((emit statements >>= next).run ahead) result :=
  fun steps => rest steps

theorem ends_lift {action : Desugar α} {holds : α → Context → Prop}
    (ends : Ends context action holds) :
    Ends context ((StateT.lift action : Lowering α).run ahead) fun (value, later) after =>
      later = ahead ∧ holds value after := by
  rw [StateT.run_lift]
  exact ends.bind fun value after valid => .pure ⟨rfl, valid⟩

/-- A name that is taken for generated code. -/
structure IsTaken (before after : List String) (name : String) : Prop where
  reserved : isReserved name = true
  notSupport : name ≠ supportModule
  new : name ∉ before
  taken : name ∈ after

theorem IsTaken.mono {before before' after after' : List String} {name : String}
    (isTaken : IsTaken before after name) (fewer : before' ⊆ before) (more : after ⊆ after') :
    IsTaken before' after' name :=
  ⟨isTaken.reserved, isTaken.notSupport, fun old => isTaken.new (fewer old), more isTaken.taken⟩

theorem IsTaken.forall_cons {before between after stored : List String} {name : String}
    (isTaken : IsTaken before between name) (older : before ⊆ between) (grows : between ⊆ after)
    (taken : ∀ other ∈ stored, IsTaken between after other) :
    ∀ other ∈ name :: stored, IsTaken before after other :=
  List.forall_mem_cons.mpr ⟨isTaken.mono (fun _ => id) grows,
    fun other member => (taken other member).mono older fun _ => id⟩

theorem numberedName_ne_supportModule (base : String) (number : Nat) :
    numberedName base number ≠ supportModule := by
  intro same
  have chars := congrArg String.toList same
  simp [numberedName, supportModule] at chars

theorem ends_fresh {base : String} {next : String → Lowering β}
    {result : β × List Deferred → Context → Prop}
    (rest : ∀ name after, IsTaken context.reserved after.reserved name →
      after.reserved = name :: context.reserved → Ends after ((next name).run ahead) result) :
    Ends context ((fresh base >>= next).run ahead) result := by
  refine fun steps => rest (context.fresh base).1 (context.fresh base).2 ?_ rfl steps
  refine ⟨context.isReserved_fresh base, ?_, context.fresh_not_mem base, by simp⟩
  exact numberedName_ne_supportModule _ _

end Lowering

/-! ## Saving values -/

namespace Run

/-- Running `body` in place of `now` ends like `now`, and binds `gained` so that the
value can be had again later, silently, by `again`. The temporaries `held` must be
bound before. -/
def Saves (held gained : List String) (body : Run Value Error Unit)
    (now again : Run Value Error α) : Prop :=
  ∀ state, (∀ name ∈ held, (state.temporaries name).isSome) →
    ∃ after, body state = ((now state).1.map fun _ => (), after) ∧
      after.Agrees (· ∉ gained) (now state).2 ∧
      ∀ value, (now state).1 = .ok value → (∀ name ∈ gained, (after.temporaries name).isSome) ∧
        ∀ final : State Value, (∀ name, name ∈ held ∨ name ∈ gained →
          final.temporaries name = after.temporaries name) → again final = (.ok value, final)

namespace Saves

variable {held gained more : List String} {body rest : Run Value Error Unit} {γ : Type}

theorem both {first firstAgain : Run Value Error α} {second secondAgain : Run Value Error β}
    (make : α → β → γ) (firstSaves : Saves held gained body first firstAgain)
    (secondSaves : Saves held more rest second secondAgain)
    (firstKeeps : Keeps (fun _ => True) first) (secondKeeps : Keeps (fun _ => True) second)
    (same : Respects (· ∉ gained) second) (heldApart : ∀ name ∈ held, name ∉ gained)
    (apart : ∀ name, name ∈ held ∨ name ∈ gained → name ∉ more) :
    Saves held (gained ++ more) (do body; rest)
      (do let left ← first; let right ← second; return make left right)
      (do let left ← firstAgain; let right ← secondAgain; return make left right) := by
  intro state bound
  obtain ⟨after, ran, agrees, saved⟩ := firstSaves state bound
  have kept := firstKeeps state
  rcases firstRun : first state with ⟨reason | left, middle⟩
  · rw [firstRun] at ran agrees
    refine ⟨after, ?_, ?_, ?_⟩
    · rw [run_bind_error ran, run_bind_error firstRun]
      rfl
    · rw [run_bind_error firstRun]
      exact agrees.mono fun name outside => by simp_all
    · simp [run_bind_error firstRun]
  · rw [firstRun] at ran agrees kept saved
    -- Saving the first value binds no name that the second part needs.
    have boundAfter : ∀ name ∈ held, (after.temporaries name).isSome := by
      intro name isHeld
      rw [agrees.temporaries name (heldApart name isHeld), kept name trivial]
      exact bound name isHeld
    obtain ⟨ending, endRan, endAgrees, endSaved⟩ := secondSaves after boundAfter
    have alike := same after middle agrees
    have secondKept := secondKeeps after
    rcases secondRun : second after with ⟨result, last⟩
    rcases thirdRun : second middle with ⟨result', last'⟩
    rw [secondRun, thirdRun] at alike
    rw [secondRun] at endRan endAgrees endSaved secondKept
    obtain ⟨rfl, lastAgrees⟩ := alike
    -- Both runs of the second part end alike, so their ends differ in what was gained only.
    have whole : ((do let left ← first; let right ← second; return make left right) :
        Run Value Error γ) state = (result.map (make left), last') := by
      rw [run_bind_ok firstRun, run_bind, thirdRun]
      cases result <;> rfl
    have agreesAtEnd : ending.Agrees (· ∉ gained ++ more) last' := by
      refine (endAgrees.mono fun name outside => ?_).trans (lastAgrees.mono fun name outside => ?_)
        <;> simp_all
    refine ⟨ending, ?_, ?_, ?_⟩
    · rw [run_bind_ok ran, endRan, whole]
      cases result <;> rfl
    · rw [whole]
      exact agreesAtEnd
    · rw [whole]
      intro value isValue
      cases result with
      | error reason => cases isValue
      | ok right =>
        cases isValue
        -- Saving the second value leaves alone what the first one is had from.
        have stays : ∀ name, name ∈ held ∨ name ∈ gained →
            ending.temporaries name = after.temporaries name := fun name known =>
          (endAgrees.temporaries name (apart name known)).trans (secondKept name trivial)
        refine ⟨fun name member => ?_, fun final sameFinal => ?_⟩
        · rcases List.mem_append.mp member with member | member
          · rw [stays name (.inr member)]
            exact (saved left rfl).1 name member
          · exact (endSaved right rfl).1 name member
        · have leftAgain := (saved left rfl).2 final fun name known => by
            rw [← stays name known]
            exact sameFinal name (by simp; tauto)
          have rightAgain := (endSaved right rfl).2 final fun name known =>
            sameFinal name (by simp; tauto)
          rw [run_bind_ok leftAgain, run_bind_ok rightAgain]
          rfl

/-- A value that can be had at any time need not be saved. -/
theorem keep {action : Run Value Error α}
    (silent : ∀ state : State Value, (∀ name ∈ held, (state.temporaries name).isSome) →
      ∃ value, ∀ final : State Value,
        (∀ name ∈ held, final.temporaries name = state.temporaries name) →
        action final = (.ok value, final)) :
    Saves held [] (Pure.pure () : Run Value Error Unit) action action := by
  intro state bound
  obtain ⟨value, silent⟩ := silent state bound
  rw [silent state fun _ _ => rfl]
  refine ⟨state, rfl, .refl state, fun found isValue => ⟨by simp, fun final same => ?_⟩⟩
  cases isValue
  exact silent final fun name isHeld => same name (.inl isHeld)

/-- A value that is stored under a new name can be loaded again. -/
theorem store {action : Run Value Error Value} {name : String}
    (reserved : isReserved name = true) :
    Saves held [name] (do Runtime.store name (← action)) action (Runtime.load name) := by
  intro state _
  rcases ran : action state with ⟨reason | value, after⟩
  · exact ⟨after, run_bind_error ran, .refl after, fun _ isValue => by cases isValue⟩
  · refine ⟨after.put name value, run_bind_ok ran, ?_, ?_⟩
    · exact (State.Agrees.refl after).put_left value reserved (by simp)
    · intro found isValue
      cases isValue
      have stored := after.temporaries_put_self value reserved
      refine ⟨fun other member => ?_, fun final same => ?_⟩
      · rw [List.mem_singleton.mp member, stored]
        rfl
      · have bound := (same name (by simp)).trans stored
        exact Runtime.load_run_of_bound (State.lookup_of_temporary reserved bound)

end Saves
end Run

namespace Lowering

variable (runtime : Runtime Value Error)

/-- Operands that stood for `now` stand for `again`, now that statements were set
aside that save their values. -/
structure Hoists (held before after : List String) (ahead later : List Deferred)
    (gained : List String) (now again : Run Value Error α) : Prop where
  grows : before ⊆ after
  taken : ∀ name ∈ gained, IsTaken before after name
  saves : ∃ statements : List Stmt, later = ahead ++ statements.map (fun stmt => pure [stmt]) ∧
    Keeps (· ∉ gained) (runtime.execAll statements) ∧
    Saves held gained (runtime.execAll statements) now again

variable {runtime} {held : List String} {context : Context} {ahead : List Deferred}

theorem Hoists.both {γ : Type} {before between after more gained : List String}
    {middle later : List Deferred}
    {first firstAgain : Run Value Error α} {second secondAgain : Run Value Error β}
    (make : α → β → γ) (firstHoists : Hoists runtime held before between ahead middle gained
      first firstAgain)
    (secondHoists : Hoists runtime held between after middle later more second secondAgain)
    (firstKeeps : Keeps (fun _ => True) first) (secondKeeps : Keeps (fun _ => True) second)
    (same : ∀ tracked : String → Prop, (∀ name ∈ held, tracked name) →
      Respects tracked second)
    (known : held ⊆ before) :
    Hoists runtime held before after ahead later (gained ++ more)
      (do let left ← first; let right ← second; return make left right)
      (do let left ← firstAgain; let right ← secondAgain; return make left right) := by
  have heldApart : ∀ name ∈ held, name ∉ gained := fun name isHeld isGained =>
    (firstHoists.taken name isGained).new (known isHeld)
  obtain ⟨front, rfl, frontKeeps, frontSaves⟩ := firstHoists.saves
  obtain ⟨back, rfl, backKeeps, backSaves⟩ := secondHoists.saves
  refine ⟨fun _ member => secondHoists.grows (firstHoists.grows member), ?_, front ++ back,
    by simp, ?_, ?_⟩
  · intro name member
    rcases List.mem_append.mp member with member | member
    · exact (firstHoists.taken name member).mono (fun _ => id) secondHoists.grows
    · exact (secondHoists.taken name member).mono firstHoists.grows fun _ => id
  · rw [Runtime.execAll_append]
    exact (frontKeeps.mono (by grind)).bind fun _ => backKeeps.mono (by grind)
  · rw [Runtime.execAll_append]
    refine frontSaves.both make backSaves firstKeeps secondKeeps (same _ heldApart) heldApart ?_
    rintro name (isHeld | isGained) isMore
    · exact (secondHoists.taken name isMore).new (firstHoists.grows (known isHeld))
    · exact (secondHoists.taken name isMore).new (firstHoists.taken name isGained).taken

theorem Hoists.keep {before : List String} {action : Run Value Error α}
    (saves : Saves held [] (pure () : Run Value Error Unit) action action) :
    Hoists runtime held before before ahead ahead [] action action :=
  ⟨fun _ => id, by simp, [], by simp, .pure _, saves⟩

/-- What hoisting an operand, with its label, is to give. -/
def HoistsTo (runtime : Runtime Value Error) (held : List String) (context : Context)
    (ahead : List Deferred) (label : Option String) (now : Run Value Error Value) :
    Expr × List Deferred → Context → Prop :=
  fun (hoisted, later) after => ∃ gained, Residual (· ∈ held ++ gained) hoisted ∧
    hoisted.label? = label ∧ Hoists runtime held context.reserved after.reserved ahead later
      gained now (runtime.eval hoisted)

theorem save_hoists {value : Expr} (residual : Residual (· ∈ held) value) :
    Ends context ((save value).run ahead)
      (HoistsTo runtime held context ahead none (runtime.eval value)) := by
  refine ends_fresh fun name after isTaken _ => ends_emit (.pure ?_)
  refine ⟨[name], .temporary isTaken.notSupport (by simp), rfl, ?_, ?_, [.store name value],
    rfl, ?_, ?_⟩
  · simp_all
  · simp [isTaken]
  · rw [Runtime.execAll_store]
    exact (runtime.eval_keeps residual).bind fun _ => Runtime.store_keeps _ (by simp)
  · rw [Runtime.execAll_store, Runtime.eval_ofName]
    exact .store isTaken.reserved

/-- Hoisting an operand saves its value, unless it stays the same anyway. -/
theorem hoist_hoists (runtime : Runtime Value Error) {value : Expr}
    (residual : Residual (· ∈ held) value) (known : held ⊆ context.reserved) :
    Ends context ((hoist value).run ahead)
      (HoistsTo runtime held context ahead value.label? (runtime.eval value)) := by
  induction residual generalizing context ahead with
  | user user =>
    simp only [hoist, user]
    exact save_hoists (.user user)
  | @temporary position id different isHeld =>
    cases reserved : isReserved id with
    | false =>
      simp only [hoist, reserved]
      exact save_hoists (.temporary different isHeld)
    | true =>
      simp only [hoist, reserved]
      refine .pure ⟨[], .temporary different (by simp [isHeld]), rfl, .keep (.keep ?_)⟩
      intro state bound
      obtain ⟨value, isValue⟩ := Option.isSome_iff_exists.mp (bound id isHeld)
      refine ⟨value, fun final same => ?_⟩
      unfold Runtime.eval
      have found := (same id isHeld).trans isValue
      exact Runtime.load_run_of_bound (State.lookup_of_temporary reserved found)
  | @literal _ _ value =>
    refine .pure ⟨[], .literal, rfl, .keep (.keep fun _ _ => ⟨runtime.constant value, ?_⟩)⟩
    intro final _
    unfold Runtime.eval
    rfl
  | operation found each _ => exact save_hoists (.operation found each)
  | call function each _ _ => exact save_hoists (.call function each)
  | keyword _ inner =>
    simp only [hoist]
    refine ends_bind (inner known) fun hoisted later after ⟨gained, valid, _, hoists⟩ =>
      .pure ⟨gained, .keyword valid, rfl, ?_⟩
    simp only [Runtime.eval]
    exact hoists
  | member object _ =>
    simp only [hoist, Expr.isPure, object.isSupportPath]
    exact save_hoists (.member object)
  | list each _ => exact save_hoists (.list each)
  | tuple each _ => exact save_hoists (.tuple each)
  | set each _ => exact save_hoists (.set each)
  | dict each _ => exact save_hoists (.dict each)
  | entry first second firstHoists secondHoists =>
    simp only [hoist]
    refine ends_bind (firstHoists known)
      fun key middle between ⟨gained, keyValid, _, keyHoists⟩ => ?_
    refine ends_bind (secondHoists fun _ member => keyHoists.grows (known member))
      fun value later after ⟨more, valueValid, _, valueHoists⟩ => .pure ?_
    refine ⟨gained ++ more, .entry (keyValid.mono ?_) (valueValid.mono ?_), rfl, ?_⟩
    · grind
    · grind
    · simp only [Runtime.eval]
      exact keyHoists.both (fun key value => runtime.tuple [key, value]) valueHoists
        (runtime.eval_keeps first) (runtime.eval_keeps second)
        (fun _ each => runtime.eval_respects second each) known

theorem mapM_hoist_hoists (runtime : Runtime Value Error) {values : List Expr}
    (each : ∀ value ∈ values, Residual (· ∈ held) value) (known : held ⊆ context.reserved) :
    Ends context ((values.mapM hoist).run ahead) fun (hoisted, later) after =>
      ∃ gained, (∀ value ∈ hoisted, Residual (· ∈ held ++ gained) value) ∧
        hoisted.map Expr.label? = values.map Expr.label? ∧
        Hoists runtime held context.reserved after.reserved ahead later gained
          (runtime.evalAll values) (runtime.evalAll hoisted) := by
  induction values generalizing context ahead with
  | nil =>
    refine .pure ⟨[], by simp, rfl, .keep (.keep fun _ _ => ⟨[], fun final _ => ?_⟩)⟩
    unfold Runtime.evalAll
    rfl
  | cons value values induction =>
    have valueResidual := each value (by simp)
    have eachRest : ∀ other ∈ values, Residual (· ∈ held) other := fun other member =>
      each other (by simp [member])
    rw [List.mapM_cons]
    refine ends_bind (hoist_hoists runtime valueResidual known) ?_
    rintro first middle between ⟨gained, firstValid, firstLabel, firstHoists⟩
    refine ends_bind (induction eachRest fun _ member => firstHoists.grows (known member)) ?_
    rintro rest later after ⟨more, restValid, restLabels, restHoists⟩
    refine .pure ⟨gained ++ more, ?_, by simp [firstLabel, restLabels], ?_⟩
    · intro other member
      rcases List.mem_cons.mp member with rfl | member
      · exact firstValid.mono (by grind)
      · exact (restValid other member).mono (by grind)
    · simp only [Runtime.evalAll]
      exact firstHoists.both (· :: ·) restHoists (runtime.eval_keeps valueResidual)
        (runtime.closed_keeps.evalAll fun other member =>
          runtime.eval_keeps (eachRest other member))
        (fun _ tracked => runtime.closed_respects.evalAll fun other member =>
          runtime.eval_respects (eachRest other member) tracked) known

end Lowering
end Unsugar
