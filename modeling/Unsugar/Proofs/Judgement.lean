import Unsugar.Proofs.Outcome

/-! Judgements on computations, whatever their monad. Some judgements also say that a
computation does not fail, others only speak of the values that it gives. -/

namespace Unsugar

/-- A way to say that a computation gives values with a property. -/
structure Judgement (m : Type → Type) [Monad m] where
  Gives : {α : Type} → (α → Prop) → m α → Prop
  pure : ∀ {α : Type} {holds : α → Prop} {value : α}, holds value → Gives holds (Pure.pure value)
  bind : ∀ {α β : Type} {holds : α → Prop} {result : β → Prop} {action : m α} {next : α → m β},
    Gives holds action → (∀ value, holds value → Gives result (next value)) →
    Gives result (action >>= next)

namespace Judgement

variable {m : Type → Type} [Monad m]

/-- All values of a stateful computation, whatever the state. -/
def ofState (σ : Type) : Judgement (StateM σ) where
  Gives holds action := ∀ state, holds (Id.run (action.run state)).1
  pure valid _ := valid
  bind first rest state := rest _ (first state) _

/-- The value of a computation without effects. -/
def ofId : Judgement Id where
  Gives holds action := holds (Id.run action)
  pure valid := valid
  bind first rest := rest _ first

/-- The values of a computation with a state, whatever the state. -/
def withState (judge : Judgement m) (σ : Type) : Judgement (StateT σ m) where
  Gives holds action := ∀ state, judge.Gives (fun result => holds result.1) (action.run state)
  pure valid _ := judge.pure valid
  bind first rest state := by
    rw [StateT.run_bind]
    exact judge.bind (first state) fun (value, after) valid => rest value valid after

/-- The values of a computation with a state that has a property, and keeps it. -/
def keeping (judge : Judgement m) {σ : Type} (valid : σ → Prop) : Judgement (StateT σ m) where
  Gives holds action := ∀ state, valid state →
    judge.Gives (fun result => holds result.1 ∧ valid result.2) (action.run state)
  pure given _ kept := judge.pure ⟨given, kept⟩
  bind first rest state kept := by
    rw [StateT.run_bind]
    exact judge.bind (first state kept) fun (value, after) given => rest value given.1 after given.2

/-- A judgement of values alone: what holds of all values holds of those that any
computation gives. -/
structure Lenient (judge : Judgement m) : Prop where
  always : ∀ {α : Type} {holds : α → Prop} (action : m α), (∀ value, holds value) →
    judge.Gives holds action
  imp : ∀ {α : Type} {holds weaker : α → Prop} {action : m α}, judge.Gives holds action →
    (∀ value, holds value → weaker value) → judge.Gives weaker action

variable {α β : Type} {judge : Judgement m}

theorem ofId_lenient : ofId.Lenient :=
  ⟨fun _ always => always _, fun given implies => implies _ given⟩

theorem ofState_lenient (σ : Type) : (ofState σ).Lenient :=
  ⟨fun _ always _ => always _, fun given implies state => implies _ (given state)⟩

theorem Lenient.withState (lenient : judge.Lenient) (σ : Type) : (judge.withState σ).Lenient where
  always action always state := lenient.always (action.run state) fun result => always result.1
  imp given implies state := lenient.imp (given state) fun result => implies result.1

/-- A computation of which nothing need be known comes first. -/
theorem Lenient.skip (lenient : judge.Lenient) {result : β → Prop} (action : m α)
    {next : α → m β} (rest : ∀ value, judge.Gives result (next value)) :
    judge.Gives result (action >>= next) :=
  judge.bind (lenient.always action fun _ => True.intro) fun value (_ : True) => rest value

/-- A computation without the state leaves the state as it is. -/
theorem lift {holds : α → Prop} {σ : Type} {action : m α} (given : judge.Gives holds action) :
    (judge.withState σ).Gives holds (liftM action : StateT σ m α) :=
  fun _ => judge.bind given fun _ valid => judge.pure valid

/-! ## Transformations -/

/-- The values of a computation, if it gives any. -/
def ofTraced : Judgement Traced where
  Gives holds action := Traced.Ends (fun _ => True) holds action
  pure := Traced.Ends.pure
  bind := Traced.Ends.bind

theorem ofTraced_lenient : ofTraced.Lenient where
  always action always steps := by
    rcases action steps with ⟨failure | value, later⟩
    · exact trivial
    · exact always value
  imp given implies := given.mono (fun _ => id) implies

/-- The values of a transformation, if it gives any. -/
abbrev ofDesugar : Judgement Desugar := ofTraced.withState Context

theorem ofDesugar_lenient : ofDesugar.Lenient := ofTraced_lenient.withState Context

/-- A judgement on values, put in terms of a run that succeeds. -/
theorem holds_of_run {holds : α → Prop} {action : Desugar α} {context after : Context}
    {steps later : List Step} {value : α} (given : ofDesugar.Gives holds action)
    (run : action context steps = (.ok (value, after), later)) : holds value := by
  have ended := given context steps
  rw [StateT.run, run] at ended
  exact ended

/-- The values of lowering, if it gives any. -/
abbrev ofLowering : Judgement Lowering := ofDesugar.withState (List Deferred)

theorem ofLowering_lenient : ofLowering.Lenient := ofDesugar_lenient.withState (List Deferred)

end Judgement
end Unsugar
