import Unsugar.Proofs.Evaluation.Basic
import Unsugar.Proofs.Fresh

/-! When runs cannot be told apart. Two states agree if users see the same in both
and chosen temporaries hold the same; most runs end alike from states that agree on
few temporaries. A run refines another if it ends alike from the same world. -/

namespace Unsugar

variable {Value Error : Type}

/-! ## States -/

namespace State

structure Agrees (tracked : String → Prop) (first second : State Value) : Prop where
  world : first.world = second.world
  temporaries : ∀ name, tracked name → first.temporaries name = second.temporaries name

namespace Agrees

variable {tracked fewer : String → Prop} {first second third : State Value}

@[refl] theorem refl (state : State Value) : state.Agrees tracked state :=
  ⟨rfl, fun _ _ => rfl⟩

theorem trans (agrees : first.Agrees tracked second) (later : second.Agrees tracked third) :
    first.Agrees tracked third :=
  ⟨agrees.world.trans later.world, fun name isTracked =>
    (agrees.temporaries name isTracked).trans (later.temporaries name isTracked)⟩

theorem mono (agrees : first.Agrees tracked second)
    (fewer_tracked : ∀ name, fewer name → tracked name) : first.Agrees fewer second :=
  ⟨agrees.world, fun name isFewer => agrees.temporaries name (fewer_tracked name isFewer)⟩

theorem lookup (agrees : first.Agrees tracked second) {name : String}
    (visible : isReserved name = true → tracked name) :
    first.lookup name = second.lookup name := by
  cases reserved : isReserved name with
  | false => simp [State.lookup, reserved, agrees.world]
  | true => simp [State.lookup, reserved, agrees.temporaries name (visible reserved)]

/-- A temporary that no one follows can be bound on one side alone. -/
theorem put_left (agrees : first.Agrees tracked second) {name : String} (value : Value)
    (reserved : isReserved name = true) (untracked : ¬ tracked name) :
    (first.put name value).Agrees tracked second := by
  simp only [State.put, reserved, if_true]
  refine ⟨agrees.world, fun other isTracked => ?_⟩
  have different : other ≠ name := fun same => untracked (same ▸ isTracked)
  simpa [different] using agrees.temporaries other isTracked

end Agrees

@[simp] theorem temporaries_put_self (state : State Value) {name : String} (value : Value)
    (reserved : isReserved name = true) : (state.put name value).temporaries name = some value := by
  simp [put, reserved]

@[simp] theorem world_put_reserved (state : State Value) {name : String} (value : Value)
    (reserved : isReserved name = true) : (state.put name value).world = state.world := by
  simp [put, reserved]

theorem world_put_congr {first second : State Value} (world : first.world = second.world)
    (name : String) (value : Value) :
    (first.put name value).world = (second.put name value).world := by
  cases reserved : isReserved name <;> simp [put, reserved, world]

theorem lookup_of_temporary {state : State Value} {name : String} {value : Value}
    (reserved : isReserved name = true) (bound : state.temporaries name = some value) :
    state.lookup name = some value := by
  rw [lookup, if_pos reserved, bound]

theorem lookup_put_self (state : State Value) (name : String) (value : Value) :
    (state.put name value).lookup name = some value := by
  cases reserved : isReserved name <;> simp [put, lookup, reserved]

theorem temporaries_put_of_ne (state : State Value) {name other : String} (value : Value)
    (different : other ≠ name) :
    (state.put name value).temporaries other = state.temporaries other := by
  unfold put
  split
  · simp [different]
  · rfl

@[simp] theorem temporaries_put_user (state : State Value) {name : String} (value : Value)
    (user : isReserved name = false) :
    (state.put name value).temporaries = state.temporaries := by
  simp [put, user]

end State

/-! ## Runs -/

namespace Run

variable {α β γ : Type}

theorem run_pure (value : α) (state : State Value) :
    (pure value : Run Value Error α) state = (.ok value, state) := rfl

theorem run_bind (action : Run Value Error α) (next : α → Run Value Error β)
    (state : State Value) :
    (action >>= next) state =
      match action state with
      | (.ok value, after) => next value after
      | (.error reason, after) => (.error reason, after) := by
  simp only [bind, ExceptT.bind, ExceptT.mk, StateT.bind]
  rcases action state with ⟨_ | value, after⟩ <;> rfl

theorem run_bind_ok {action : Run Value Error α} {next : α → Run Value Error β}
    {state after : State Value} {value : α} (ran : action state = (.ok value, after)) :
    (action >>= next) state = next value after := by
  rw [run_bind, ran]

theorem run_bind_error {action : Run Value Error α} {next : α → Run Value Error β}
    {state after : State Value} {reason : Stop Error}
    (ran : action state = (.error reason, after)) :
    (action >>= next) state = (.error reason, after) := by
  rw [run_bind, ran]

theorem ok_of_run_bind {action : Run Value Error α} {next : α → Run Value Error β}
    {state final : State Value} {last : β} (ran : (action >>= next) state = (.ok last, final)) :
    ∃ value after, action state = (.ok value, after) ∧ next value after = (.ok last, final) := by
  rcases first : action state with ⟨reason | value, after⟩
  · rw [run_bind_error first] at ran
    cases ran
  · rw [run_bind_ok first] at ran
    exact ⟨value, after, rfl, ran⟩

/-! ### What a run depends on -/

/-- From two states that agree, a run ends alike and in states that agree. -/
def Respects (tracked : String → Prop) (action : Run Value Error α) : Prop :=
  ∀ left right : State Value, left.Agrees tracked right →
    (action left).1 = (action right).1 ∧ (action left).2.Agrees tracked (action right).2

namespace Respects

variable {tracked : String → Prop} {action : Run Value Error α}

theorem pure (value : α) : Respects tracked (Pure.pure value : Run Value Error α) :=
  fun _ _ agrees => ⟨rfl, agrees⟩

theorem bind {next : α → Run Value Error β} (respects : Respects tracked action)
    (rest : ∀ value, Respects tracked (next value)) : Respects tracked (action >>= next) := by
  intro left right agrees
  have here := respects left right agrees
  rw [run_bind, run_bind]
  revert here
  rcases action left with ⟨result, left'⟩
  rcases action right with ⟨_, right'⟩
  rintro ⟨rfl, agrees⟩
  cases result with
  | error reason => exact ⟨rfl, agrees⟩
  | ok value => exact rest value left' right' agrees

end Respects

/-! ### Temporaries that are left alone -/

/-- A run does not change chosen temporaries. -/
def Keeps (kept : String → Prop) (action : Run Value Error α) : Prop :=
  ∀ state name, kept name → (action state).2.temporaries name = state.temporaries name

namespace Keeps

variable {kept fewer : String → Prop} {action : Run Value Error α}

theorem mono (keeps : Keeps kept action) (fewer_kept : ∀ name, fewer name → kept name) :
    Keeps fewer action :=
  fun state name isFewer => keeps state name (fewer_kept name isFewer)

theorem pure (value : α) : Keeps kept (Pure.pure value : Run Value Error α) :=
  fun _ _ _ => rfl

theorem bind {next : α → Run Value Error β} (keeps : Keeps kept action)
    (rest : ∀ value, Keeps kept (next value)) : Keeps kept (action >>= next) := by
  intro state name isKept
  have here := keeps state name isKept
  rw [run_bind]
  revert here
  rcases action state with ⟨reason | value, after⟩ <;> intro here
  · exact here
  · exact (rest value after name isKept).trans here

end Keeps

/-! ### Refinement -/

/-- Two runs ended alike for a user: both with a value or both for the same reason, in
the same world. Of values, and of the state of the first run, more may be said. -/
def Alike (ends : α → β → State Value → Prop) :
    Except (Stop Error) α × State Value → Except (Stop Error) β × State Value → Prop
  | (.ok value, left), (.ok other, right) => left.world = right.world ∧ ends value other left
  | (.error reason, left), (.error other, right) => left.world = right.world ∧ reason = other
  | _, _ => False

/-- A run that starts in a state of which something is `given` ends like another one that
starts in the same world. -/
def Refines (given : State Value → Prop) (ends : α → β → State Value → Prop)
    (first : Run Value Error α) (second : Run Value Error β) : Prop :=
  ∀ left right : State Value, left.world = right.world → given left →
    Alike ends (first left) (second right)

/-- The values are the same, whatever the state. -/
abbrev Same (value other : α) (_ : State Value) : Prop :=
  value = other

/-- A run ends like another one, with the same value, wherever it starts. -/
abbrev Matches (first second : Run Value Error α) : Prop :=
  Refines (fun _ => True) Same first second

section Refines

variable {α' β' : Type} {given : State Value → Prop} {ends : α → β → State Value → Prop}
variable {ends' : α' → β' → State Value → Prop}
variable {first : Run Value Error α} {second : Run Value Error β}

/-- A run that stopped is like one that stopped, whatever was to follow. -/
theorem Alike.stop {reason : Stop Error} {left right : State Value}
    {next : β → Run Value Error β'} (alike : Alike ends (.error reason, left) (second right)) :
    Alike ends' (.error reason, left) ((second >>= next) right) := by
  rw [run_bind]
  revert alike
  rcases second right with ⟨other | value, right'⟩ <;> intro alike
  · exact alike
  · exact alike.elim

theorem Alike.of_world {reason : Stop Error} {left left' : State Value}
    {run : Except (Stop Error) β × State Value} (world : left'.world = left.world)
    (alike : Alike ends (.error reason, left) run) : Alike ends (.error reason, left') run := by
  rcases run with ⟨other | value, right⟩
  · exact ⟨world.trans alike.1, alike.2⟩
  · exact alike.elim

theorem Alike.ok {value : α} {left right : State Value}
    (alike : Alike ends (.ok value, left) (second right)) :
    ∃ other right', second right = (.ok other, right') ∧ left.world = right'.world ∧
      ends value other left := by
  revert alike
  rcases second right with ⟨other | value, right'⟩ <;> intro alike
  · exact alike.elim
  · exact ⟨value, right', rfl, alike⟩

/-- What follows runs that end alike need only be compared where they end. -/
theorem Alike.bind {next : α → Run Value Error α'} {later : β → Run Value Error β'}
    {left right : State Value} (alike : Alike ends (first left) (second right))
    (rest : ∀ value other left' right', first left = (.ok value, left') →
      left'.world = right'.world → ends value other left' →
      Alike ends' (next value left') (later other right')) :
    Alike ends' ((first >>= next) left) ((second >>= later) right) := by
  rcases ran : first left with ⟨reason | value, left'⟩
  · rw [ran] at alike
    rw [run_bind_error ran]
    exact alike.stop
  · rw [ran] at alike
    obtain ⟨other, right', ran', world, valid⟩ := alike.ok
    rw [run_bind_ok ran, run_bind_ok ran']
    exact rest value other left' right' ran world valid

theorem Alike.imp {run : Except (Stop Error) α × State Value}
    {other : Except (Stop Error) β × State Value} {weaker : α → β → State Value → Prop}
    (alike : Alike ends run other)
    (implies : ∀ value other state, ends value other state → weaker value other state) :
    Alike weaker run other := by
  rcases run with ⟨_ | _, _⟩ <;> rcases other with ⟨_ | _, _⟩
  · exact alike
  · exact alike
  · exact alike
  · exact ⟨alike.1, implies _ _ _ alike.2⟩

theorem Alike.same {run other : Except (Stop Error) α × State Value}
    (alike : Alike Same run other) : run.1 = other.1 ∧ run.2.world = other.2.world := by
  rcases run with ⟨_ | _, _⟩ <;> rcases other with ⟨_ | _, _⟩
  · exact ⟨congrArg Except.error alike.2, alike.1⟩
  · exact alike.elim
  · exact alike.elim
  · exact ⟨congrArg Except.ok alike.2, alike.1⟩

theorem Refines.bind {next : α → Run Value Error α'} {later : β → Run Value Error β'}
    (refines : Refines given ends first second)
    (rest : ∀ value other, Refines (ends value other) ends' (next value) (later other)) :
    Refines given ends' (first >>= next) (second >>= later) :=
  fun left right world isGiven => (refines left right world isGiven).bind
    fun value other left' right' _ world valid => rest value other left' right' world valid

/-- What goes on silently after the first run need not be matched. -/
theorem Refines.followed {next : α → Run Value Error α'} {ends' : α' → β → State Value → Prop}
    (refines : Refines given ends first second)
    (silent : ∀ value other state, ends value other state →
      ∃ found, next value state = (.ok found, state) ∧ ends' found other state) :
    Refines given ends' (first >>= next) second := by
  rw [← bind_pure second]
  refine refines.bind fun value other left right world valid => ?_
  obtain ⟨found, ran, foundValid⟩ := silent value other left valid
  rw [ran]
  exact ⟨world, foundValid⟩

theorem Refines.pure {value : α} {other : β}
    (valid : ∀ state, given state → ends value other state) :
    Refines given ends (Pure.pure value : Run Value Error α) (Pure.pure other) :=
  fun left _ world isGiven => ⟨world, valid left isGiven⟩

/-- What depends on no temporary is the same from any two states of one world. -/
theorem Respects.matches {action : Run Value Error α}
    (respects : Respects (fun _ => False) action) : Matches action action := by
  intro left right world _
  have here := respects left right ⟨world, fun _ none => none.elim⟩
  revert here
  rcases action left with ⟨result, left'⟩
  rcases action right with ⟨_, right'⟩
  rintro ⟨rfl, agrees⟩
  cases result with
  | error reason => exact ⟨agrees.world, rfl⟩
  | ok value => exact ⟨agrees.world, rfl⟩

end Refines
end Run

/-! ## Operations -/

namespace Runtime

open Run

variable (runtime : Runtime Value Error) {tracked kept : String → Prop}

theorem get_run (state : State Value) :
    (get : Run Value Error (State Value)) state = (.ok state, state) := rfl

theorem load_run (name : String) (state : State Value) :
    (load name : Run Value Error Value) state =
      (((state.lookup name).elim (.error (.unbound name)) .ok), state) := by
  simp only [load, run_bind, get_run]
  cases state.lookup name <;> rfl

theorem load_run_of_bound {name : String} {state : State Value} {value : Value}
    (bound : state.lookup name = some value) :
    (load name : Run Value Error Value) state = (.ok value, state) := by
  rw [load_run, bound]
  rfl

theorem test_run (value : Value) (state : State Value) :
    runtime.test value state = ((runtime.truth state.world value).1.mapError .raised,
      { state with world := runtime.tested state.world value }) := by
  simp only [test, run_bind, get_run]
  cases (runtime.truth state.world value).1 <;> rfl

@[simp] theorem tested_of_isQuiet {value : Value} (isQuiet : runtime.isQuiet value = true)
    (world : World Value) : runtime.tested world value = world := by
  rw [tested, if_pos isQuiet]

theorem test_run_of_isQuiet {value : Value} (isQuiet : runtime.isQuiet value = true)
    (state : State Value) : runtime.test value state =
      ((runtime.truth state.world value).1.mapError .raised, state) := by
  rw [test_run, runtime.tested_of_isQuiet isQuiet]

theorem test_boolean (value : Bool) :
    runtime.test (runtime.constant (.boolean value)) = pure value := by
  funext state
  rw [runtime.test_run_of_isQuiet (runtime.isQuiet_boolean value), runtime.truth_boolean]
  rfl

theorem ask_run (operation : Operation) (operands : List Value) (state : State Value) :
    runtime.ask operation operands state =
      ((runtime.respond state.world operation operands).1.mapError .raised,
        { state with world := ⟨state.world.history ++ [⟨operation, operands⟩],
          (runtime.respond state.world operation operands).2⟩ }) := by
  simp only [ask, run_bind, get_run]
  cases (runtime.respond state.world operation operands).1 <;> rfl

theorem load_respects {name : String} (visible : isReserved name = true → tracked name) :
    Respects tracked (load name : Run Value Error Value) := by
  intro left right agrees
  rw [load_run, load_run, agrees.lookup visible]
  exact ⟨rfl, agrees⟩

theorem test_respects (value : Value) :
    Respects tracked (runtime.test value) := by
  intro left right agrees
  rw [test_run, test_run, agrees.world]
  exact ⟨rfl, rfl, agrees.temporaries⟩

theorem ask_respects (operation : Operation) (operands : List Value) :
    Respects tracked (runtime.ask operation operands) := by
  intro left right agrees
  rw [ask_run, ask_run, agrees.world]
  exact ⟨rfl, rfl, agrees.temporaries⟩

theorem perform_respects (operation : Operation) (operands : List Value) :
    Respects tracked (runtime.perform operation operands) := by
  unfold perform
  split
  · exact (runtime.test_respects _).bind fun _ => .pure _
  · split
    · exact .pure _
    · exact runtime.ask_respects _ _

/-- What a comparison gives is tested without being seen. -/
theorem isQuiet_of_perform {op : CompareOp} {operands : List Value} {value : Value}
    {state after : State Value}
    (ran : runtime.perform (.compare op) operands state = (.ok value, after)) :
    runtime.isQuiet value = true := by
  cases known : runtime.known? (.compare op) operands with
  | some found =>
    have performed : runtime.perform (.compare op) operands = pure found := by
      simp [perform, known]
    rw [performed] at ran
    cases ran
    exact runtime.isQuiet_known known
  | none =>
    have performed : runtime.perform (.compare op) operands =
        runtime.ask (.compare op) operands := by
      simp [perform, known]
    rw [performed, ask_run] at ran
    cases answer : (runtime.respond state.world (.compare op) operands).1 with
    | error reason =>
      rw [answer] at ran
      cases ran
    | ok found =>
      rw [answer] at ran
      cases ran
      exact runtime.isQuiet_respond answer

theorem load_keeps (name : String) : Keeps kept (load name : Run Value Error Value) := by
  intro state other _
  rw [load_run]

theorem test_keeps (value : Value) : Keeps kept (runtime.test value) := by
  intro state other _
  rw [test_run]

theorem store_keeps {name : String} (value : Value) (other : ¬ kept name) :
    Keeps kept (store name value : Run Value Error Unit) := by
  intro state kept_name isKept
  exact state.temporaries_put_of_ne value fun same => other (same ▸ isKept)

theorem perform_keeps (operation : Operation) (operands : List Value) :
    Keeps kept (runtime.perform operation operands) := by
  unfold perform
  split
  · exact (runtime.test_keeps _).bind fun _ => .pure _
  · split
    · exact .pure _
    · intro state other _
      rw [ask_run]

end Runtime
end Unsugar
