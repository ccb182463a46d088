import Mathlib.Logic.Function.Basic
import Unsugar.Tree.Build

/-! What statements do. An action is the set of all ways in which it can end, so
that code which may fail, may be interrupted, may run on forever or is not known at
all is an action too. A language says what user code does; control flow, names and
the part of the support module that loops and handlers call are fixed here. -/

namespace Unsugar

/-! ## Actions -/

/-- The ways in which an action can end, with the state before and after. An action
that does not end from a state has no way to. -/
def Action (State Reason α : Type) : Type :=
  State → Except Reason α → State → Prop

namespace Action

variable {State Reason α β : Type}

def ofResult (result : Except Reason α) : Action State Reason α :=
  fun before ended after => ended = result ∧ after = before

instance : Monad (Action State Reason) where
  pure value := ofResult (.ok value)
  bind action next := fun before ended after =>
    (∃ value middle, action before (.ok value) middle ∧ next value middle ended after) ∨
      ∃ reason, ended = .error reason ∧ action before (.error reason) after

variable {before after : State}

theorem pure_iff {value : α} {ended : Except Reason α} :
    (pure value : Action State Reason α) before ended after ↔
      ended = .ok value ∧ after = before := Iff.rfl

theorem bind_iff {action : Action State Reason α} {next : α → Action State Reason β}
    {ended : Except Reason β} :
    (action >>= next) before ended after ↔
      (∃ value middle, action before (.ok value) middle ∧ next value middle ended after) ∨
        ∃ reason, ended = .error reason ∧ action before (.error reason) after := Iff.rfl

/-- What comes after an action depends on what it does from one state only. -/
theorem bind_congr_at {first other : Action State Reason α} (same : first before = other before)
    (next : α → Action State Reason β) : (first >>= next) before = (other >>= next) before := by
  funext ended after
  rw [eq_iff_iff, bind_iff, bind_iff, same]

theorem ext {first second : Action State Reason α}
    (same : ∀ before ended after, first before ended after ↔ second before ended after) :
    first = second :=
  funext fun before => funext fun ended => funext fun after => propext (same before ended after)

instance : LawfulMonad (Action State Reason) := LawfulMonad.mk' _
  (by
    intro α action
    refine ext fun before ended after => ?_
    constructor
    · rintro (⟨value, _, here, rfl, rfl⟩ | ⟨reason, rfl, here⟩)
      · exact here
      · exact here
    · intro here
      cases ended with
      | ok value => exact .inl ⟨value, after, here, rfl, rfl⟩
      | error reason => exact .inr ⟨reason, rfl, here⟩)
  (by
    intro α β value next
    refine ext fun before ended after => ?_
    constructor
    · rintro (⟨_, _, ⟨same, rfl⟩, there⟩ | ⟨_, _, other, _⟩)
      · cases same
        exact there
      · cases other
    · intro there
      exact .inl ⟨value, before, ⟨rfl, rfl⟩, there⟩)
  (by
    intro α β γ action next later
    refine ext fun before ended after => ?_
    constructor
    · rintro (⟨second, _, ⟨first, _, here, there⟩ | ⟨_, other, _⟩, last⟩ |
        ⟨reason, rfl, ⟨first, _, here, there⟩ | ⟨_, same, here⟩⟩)
      · exact .inl ⟨first, _, here, .inl ⟨second, _, there, last⟩⟩
      · cases other
      · exact .inl ⟨first, _, here, .inr ⟨reason, rfl, there⟩⟩
      · cases same
        exact .inr ⟨reason, rfl, here⟩
    · rintro (⟨first, _, here, ⟨second, _, there, last⟩ | ⟨reason, rfl, there⟩⟩ |
        ⟨reason, rfl, here⟩)
      · exact .inl ⟨second, _, .inl ⟨first, _, here, there⟩, last⟩
      · exact .inr ⟨reason, rfl, .inl ⟨first, _, here, there⟩⟩
      · exact .inr ⟨reason, rfl, .inr ⟨reason, rfl, here⟩⟩)

theorem error_bind (reason : Reason) (next : α → Action State Reason β) :
    (ofResult (.error reason) >>= next) = ofResult (.error reason) := by
  refine ext fun before ended after => ?_
  constructor
  · rintro (⟨_, _, ⟨other, _⟩, _⟩ | ⟨_, rfl, same, rfl⟩)
    · cases other
    · cases same
      exact ⟨rfl, rfl⟩
  · rintro ⟨rfl, rfl⟩
    exact .inr ⟨reason, rfl, rfl, rfl⟩

/-- What comes after an action matters only for the values that the action gives. -/
theorem bind_congr_of_gives {action : Action State Reason α} {next other : α → Action State Reason β}
    (same : ∀ before value after, action before (.ok value) after → next value = other value) :
    action >>= next = action >>= other := by
  refine ext fun before ended after => ?_
  constructor
  · rintro (⟨value, middle, here, there⟩ | failed)
    · exact .inl ⟨value, middle, here, same _ _ _ here ▸ there⟩
    · exact .inr failed
  · rintro (⟨value, middle, here, there⟩ | failed)
    · exact .inl ⟨value, middle, here, same _ _ _ here ▸ there⟩
    · exact .inr failed

end Action

/-! ## Interruptions and loops -/

/-- Why a statement does not lead to the next one. -/
inductive Interruption (Value : Type) where
  | breaks
  | continues
  | returns (value : Value)
  | raises (error : Value)

namespace Action

variable {State Value α β : Type}

/-- An evaluation as part of a statement: an error interrupts it. -/
def raising (action : Action State Value α) : Action State (Interruption Value) α :=
  fun before ended after => match ended with
    | .ok value => action before (.ok value) after
    | .error (.raises error) => action before (.error error) after
    | .error _ => False

theorem raising_pure (value : α) :
    raising (pure value : Action State Value α) = pure value := by
  refine ext fun before ended after => ?_
  rcases ended with (_ | _ | _ | _) | _ <;> simp [raising, pure_iff]

theorem raising_error (error : Value) :
    raising (ofResult (.error error) : Action State Value α) =
      ofResult (.error (.raises error)) := by
  refine ext fun before ended after => ?_
  rcases ended with (_ | _ | _ | _) | _ <;> simp [raising, ofResult]

theorem raising_bind (action : Action State Value α) (next : α → Action State Value β) :
    raising (action >>= next) = raising action >>= fun value => raising (next value) := by
  refine ext fun before ended after => ?_
  rcases ended with (_ | _ | _ | _) | _ <;> simp [raising, bind_iff]

/-- What the end of a round means for its loop: another round, or that the loop was
broken off, or an interruption of more than the loop. -/
def roundEnds : Except (Interruption Value) Unit → Except (Interruption Value) (Option Bool)
  | .ok _ | .error .continues => .ok none
  | .error .breaks => .ok (some false)
  | .error reason => .error reason

def attempt (round : Action State (Interruption Value) Unit) :
    Action State (Interruption Value) (Option Bool) :=
  fun before ended after => ∃ inner, round before inner after ∧ ended = roundEnds inner

/-- Repeats an action until it gives a value. -/
inductive repeating {Reason : Type} (turn : Action State Reason (Option α)) :
    Action State Reason α
  | fails {before after : State} {reason : Reason} (ran : turn before (.error reason) after) :
    repeating turn before (.error reason) after
  | ends {before after : State} {value : α} (ran : turn before (.ok (some value)) after) :
    repeating turn before (.ok value) after
  | again {before middle after : State} {ended : Except Reason α}
    (ran : turn before (.ok none) middle) (rest : repeating turn middle ended after) :
    repeating turn before ended after

/-- A body, and what is done when it raises an error or ends as it should. -/
def catching (body : Action State (Interruption Value) Unit)
    (handle : Value → Action State (Interruption Value) Unit)
    (orelse : Action State (Interruption Value) Unit) : Action State (Interruption Value) Unit :=
  fun before ended after => ∃ bodyEnded middle, body before bodyEnded middle ∧
    match bodyEnded with
    | .ok _ => orelse middle ended after
    | .error (.raises error) => handle error middle ended after
    | .error reason => ended = .error reason ∧ after = middle

/-- A body, and what is done in the end, however the body ends. The body has the
last word unless what is done in the end is interrupted itself. -/
def ensuring (body : Action State (Interruption Value) Unit)
    (final : Except (Interruption Value) Unit → Action State (Interruption Value) Unit) :
    Action State (Interruption Value) Unit :=
  fun before ended after => ∃ bodyEnded middle, body before bodyEnded middle ∧
    (do final bodyEnded; ofResult bodyEnded : Action State (Interruption Value) Unit)
      middle ended after

/-- An action, and what is done after it, which depends on how it ended. -/
def followed {Reason Other : Type} (first : Action State Reason α)
    (last : Except Reason α → Action State Other β) : Action State Other β :=
  fun before ended after => ∃ inner middle, first before inner middle ∧
    last inner middle ended after

/-- What is done after a body that ended in some way, where its errors are handled. -/
def caught (handle : Value → Action State (Interruption Value) Unit)
    (orelse : Action State (Interruption Value) Unit) :
    Except (Interruption Value) Unit → Action State (Interruption Value) Unit
  | .ok _ => orelse
  | .error (.raises error) => handle error
  | .error reason => ofResult (.error reason)

theorem catching_eq_followed (body : Action State (Interruption Value) Unit)
    (handle : Value → Action State (Interruption Value) Unit)
    (orelse : Action State (Interruption Value) Unit) :
    catching body handle orelse = followed body (caught handle orelse) := by
  refine ext fun before ended after => exists_congr fun inner => exists_congr fun middle => ?_
  rcases inner with (_ | _ | _ | _) | _
  all_goals rfl

theorem bind_eq_followed {Reason : Type} (first : Action State Reason α)
    (next : α → Action State Reason β) :
    (first >>= next) = followed first fun
      | .ok value => next value
      | .error reason => ofResult (.error reason) := by
  refine ext fun before ended after => ?_
  constructor
  · rintro (⟨value, middle, here, there⟩ | ⟨reason, rfl, here⟩)
    · exact ⟨.ok value, middle, here, there⟩
    · exact ⟨.error reason, after, here, rfl, rfl⟩
  · rintro ⟨reason | value, middle, here, there⟩
    · obtain ⟨rfl, rfl⟩ := there
      exact .inr ⟨reason, rfl, here⟩
    · exact .inl ⟨value, middle, here, there⟩

theorem followed_followed {Reason Other Last γ : Type} (first : Action State Reason α)
    (second : Except Reason α → Action State Other β)
    (last : Except Other β → Action State Last γ) :
    followed (followed first second) last =
      followed first fun ended => followed (second ended) last := by
  refine ext fun before ended after => ?_
  constructor
  · rintro ⟨inner, middle, ⟨early, start, here, there⟩, later⟩
    exact ⟨early, start, here, inner, middle, there, later⟩
  · rintro ⟨early, start, here, inner, middle, there, later⟩
    exact ⟨inner, middle, ⟨early, start, here, there⟩, later⟩

theorem followed_ofResult {Reason : Type} (action : Action State Reason α) :
    followed action ofResult = action := by
  refine ext fun before ended after => ⟨?_, fun ran => ⟨_, _, ran, rfl, rfl⟩⟩
  rintro ⟨_, _, ran, rfl, rfl⟩
  exact ran

theorem ofResult_followed {Reason Other : Type} (ended : Except Reason α)
    (last : Except Reason α → Action State Other β) :
    followed (ofResult ended) last = last ended := by
  refine ext fun before final after => ?_
  constructor
  · rintro ⟨_, _, ⟨rfl, rfl⟩, there⟩
    exact there
  · exact fun there => ⟨_, _, ⟨rfl, rfl⟩, there⟩

end Action

/-! ## States -/

/-- What user code can see: the values of names, and all else. -/
structure Visible (Value Memory : Type) where
  names : String → Option Value
  memory : Memory

/-- Some names are kept by generated code for itself. -/
structure Store (Value Memory : Type) where
  visible : Visible Value Memory
  own : String → Option Value

namespace Store

variable {Value Memory : Type} (hidden : List String)

def lookup (store : Store Value Memory) (name : String) : Option Value :=
  if name ∈ hidden then store.own name else store.visible.names name

/-- The store after a name got a value, or lost it. -/
def update (store : Store Value Memory) (name : String) (value : Option Value) :
    Store Value Memory :=
  if name ∈ hidden then { store with own := Function.update store.own name value }
  else { store with visible.names := Function.update store.visible.names name value }

theorem lookup_update_self (store : Store Value Memory) (name : String) (value : Option Value) :
    (store.update hidden name value).lookup hidden name = value := by
  by_cases isHidden : name ∈ hidden <;> simp [lookup, update, isHidden]

theorem update_update (store : Store Value Memory) (name : String) (first second : Option Value) :
    (store.update hidden name first).update hidden name second =
      store.update hidden name second := by
  by_cases isHidden : name ∈ hidden <;> simp [update, isHidden]

end Store

namespace Action

variable {Value Memory α : Type} {Reason : Type}

/-- What user code does to a store. -/
def ofVisible (action : Action (Visible Value Memory) Reason α) :
    Action (Store Value Memory) Reason α :=
  fun before ended after => action before.visible ended after.visible ∧ after.own = before.own

/-- What user code can see of an action. -/
def seen (action : Action (Store Value Memory) Reason α) (before : Store Value Memory)
    (ended : Except Reason α) (after : Visible Value Memory) : Prop :=
  ∃ own, action before ended ⟨after, own⟩

/-- Gives a name a value, or takes it away. -/
def setting (hidden : List String) (name : String) (value : Option Value) :
    Action (Store Value Memory) Reason Unit :=
  fun before ended after => ended = .ok () ∧ after = before.update hidden name value

variable {hidden : List String} {name : String}

theorem ofVisible_ofResult (result : Except Reason α) :
    ofVisible (ofResult result : Action (Visible Value Memory) Reason α) = ofResult result := by
  refine ext fun ⟨before, own⟩ ended ⟨after, later⟩ => ?_
  simp [ofVisible, ofResult, and_assoc]

theorem ofVisible_pure (value : α) :
    ofVisible (pure value : Action (Visible Value Memory) Reason α) = pure value :=
  ofVisible_ofResult (.ok value)

theorem ofVisible_bind {β : Type} (action : Action (Visible Value Memory) Reason α)
    (next : α → Action (Visible Value Memory) Reason β) :
    ofVisible (action >>= next) = ofVisible action >>= fun value => ofVisible (next value) := by
  refine ext fun before ended after => ?_
  constructor
  · rintro ⟨⟨value, middle, here, there⟩ | ⟨reason, rfl, here⟩, kept⟩
    · exact .inl ⟨value, ⟨middle, before.own⟩, ⟨here, rfl⟩, there, kept⟩
    · exact .inr ⟨reason, rfl, here, kept⟩
  · rintro (⟨value, middle, ⟨here, kept⟩, there, still⟩ | ⟨reason, rfl, here, kept⟩)
    · exact ⟨.inl ⟨value, middle.visible, here, there⟩, still.trans kept⟩
    · exact ⟨.inr ⟨reason, rfl, here⟩, kept⟩

theorem raising_setting (value : Option Value) :
    raising (setting hidden name value : Action (Store Value Memory) Value Unit) =
      setting hidden name value := by
  refine ext fun before ended after => ?_
  rcases ended with (_ | _ | _ | _) | _ <;> simp [raising, setting]

theorem setting_bind (value : Option Value) (next : Unit → Action (Store Value Memory) Reason α)
    (before : Store Value Memory) :
    (setting hidden name value >>= next) before = next () (before.update hidden name value) := by
  funext ended after
  refine propext ⟨?_, fun there => .inl ⟨(), _, ⟨rfl, rfl⟩, there⟩⟩
  rintro (⟨_, _, ⟨_, rfl⟩, there⟩ | ⟨_, _, other, _⟩)
  · exact there
  · cases other

/-- The last change of a name counts. -/
theorem setting_setting (first second : Option Value) :
    (do setting hidden name first; setting hidden name second) =
      (setting hidden name second : Action (Store Value Memory) Reason Unit) := by
  refine ext fun before ended after => ?_
  rw [setting_bind]
  exact and_congr_right fun _ => by rw [Store.update_update]

end Action

/-! ## Languages -/

/-- What user code does. The exception that is being handled, if there is one, is
known to all code. Expressions and statements whose meaning is fixed are not asked
for here. -/
structure Language (Value Memory : Type) where
  constant : Constant → Value
  /-- The error for a name that has no value. -/
  unbound : String → Value
  /-- The error for raising again where no exception is being handled. -/
  nothingHandled : Value
  /-- The value that stands for the end of an iterator. -/
  exhausted : Value
  /-- Whether two values are one and the same. -/
  same : Value → Value → Bool
  truth : Value → Action (Visible Value Memory) Value Bool
  /-- The iterator over a value. -/
  iterator : Value → Action (Visible Value Memory) Value Value
  /-- The next item of an iterator, or none if it is exhausted. -/
  next : Value → Action (Visible Value Memory) Value (Option Value)
  /-- Whether a handler of some type takes an exception. -/
  catches : (error type : Value) → Action (Visible Value Memory) Value Bool
  /-- What entering a context manager gives. -/
  enter : Value → Action (Visible Value Memory) Value Value
  /-- Leaves a context manager, because of an error or not; the result tells whether
  the error is dropped. -/
  exit : Value → Option Value → Action (Visible Value Memory) Value Bool
  /-- Any other function of the support module. -/
  support : (handled : Option Value) → String → List Value → Action (Visible Value Memory) Value Value
  /-- Any other expression. -/
  evaluate : (handled : Option Value) → Expr → Action (Visible Value Memory) Value Value
  /-- Stores a value in a target that is no name. -/
  assign : (handled : Option Value) → Expr → Value → Action (Visible Value Memory) Value Unit
  /-- Any other statement. -/
  execute : (handled : Option Value) → Stmt →
    Action (Visible Value Memory) (Interruption Value) Unit
  truth_boolean : ∀ value, truth (constant (.boolean value)) = pure value
  same_exhausted : same exhausted exhausted = true
  /-- No item is the value that stands for the end. -/
  next_not_exhausted : ∀ {iterator before item after},
    next iterator before (.ok (some item)) after → same item exhausted = false

namespace Language

variable {Value Memory : Type} (language : Language Value Memory) (hidden : List String)

/-! ## Expressions -/

def load (name : String) : Action (Store Value Memory) Value Value :=
  fun before ended after => after = before ∧
    ended = ((before.lookup hidden name).elim (.error (language.unbound name)) .ok)

/-- What a function of the support module gives. -/
def perform (handled : Option Value) :
    String → List Value → Action (Store Value Memory) Value Value
  | "not_", [value] => do
    return language.constant (.boolean !(← Action.ofVisible (language.truth value)))
  | "is_", [first, second] => return language.constant (.boolean (language.same first second))
  | "iter", [value] => .ofVisible (language.iterator value)
  | "next_or_sentinel", [iterator] => do
    return (← Action.ofVisible (language.next iterator)).getD language.exhausted
  | "current_exception", [] => return handled.getD (language.constant .none)
  | "exception_matches", [error, type] => do
    return language.constant (.boolean (← Action.ofVisible (language.catches error type)))
  | function, values => .ofVisible (language.support handled function values)

/-- The function of the support module that an expression is. -/
def supportName? : Expr → Option String
  | .member (.name _ root) _ id => if root == supportModule then some id else none
  | _ => none

mutual

def eval (handled : Option Value) : Expr → Action (Store Value Memory) Value Value
  | .name _ id => language.load hidden id
  | .literal _ _ value => return language.constant value
  | .call callee arguments closing =>
    match supportName? callee with
    | some function => do language.perform handled function (← evalAll handled arguments)
    | none => .ofVisible (language.evaluate handled (.call callee arguments closing))
  | .member object position id =>
    if supportName? (.member object position id) = some "ITER_COMPLETE" then
      return language.exhausted
    else .ofVisible (language.evaluate handled (.member object position id))
  | other => .ofVisible (language.evaluate handled other)

def evalAll (handled : Option Value) : List Expr → Action (Store Value Memory) Value (List Value)
  | [] => return []
  | first :: rest => do
    let value ← eval handled first
    return value :: (← evalAll handled rest)

end

def holds (handled : Option Value) (test : Expr) : Action (Store Value Memory) Value Bool := do
  .ofVisible (language.truth (← language.eval hidden handled test))

/-! ## Statements -/

def assignTo (handled : Option Value) : Expr → Value → Action (Store Value Memory) Value Unit
  | .name _ id, value => .setting hidden id (some value)
  | target, value => .ofVisible (language.assign handled target value)

def assignAll (handled : Option Value) (value : Value) :
    List Expr → Action (Store Value Memory) Value Unit
  | [] => return
  | first :: rest => do
    language.assignTo hidden handled first value
    assignAll handled value rest

/-- Deletes a name, which must have a value. -/
def drop (name : String) : Action (Store Value Memory) Value Unit := do
  let _ ← language.load hidden name
  .setting hidden name none

def deleting (handled : Option Value) (position : Position) :
    List Expr → Action (Store Value Memory) (Interruption Value) Unit
  | [.name _ id] => .raising (language.drop hidden id)
  | targets => .ofVisible (language.execute handled (.delete position targets))

/-- The body of a handler that may name its exception. The name has no value after
it, however the body ends. -/
def naming (ident : Option Ident) (error : Value)
    (body : Action (Store Value Memory) (Interruption Value) Unit) :
    Action (Store Value Memory) (Interruption Value) Unit :=
  match ident with
  | none => body
  | some ident => do
    .setting hidden ident.name (some error)
    Action.ensuring body fun _ => .setting hidden ident.name none

/-- Leaves a context manager after a body ended. -/
def leaving (manager : Value) :
    Except (Interruption Value) Unit → Action (Store Value Memory) (Interruption Value) Unit
  | .error (.raises error) => do
    let dropped ← Action.raising (.ofVisible (language.exit manager (some error)))
    if dropped then return else Action.ofResult (.error (.raises error))
  | ended => do
    let _ ← Action.raising (.ofVisible (language.exit manager none))
    Action.ofResult ended

/-- A body with context managers around it. -/
def within (handled : Option Value) (body : Action (Store Value Memory) (Interruption Value) Unit) :
    List WithItem → Action (Store Value Memory) (Interruption Value) Unit
  | [] => body
  | item :: rest => do
    let manager ← Action.raising (language.eval hidden handled item.manager)
    let entered ← Action.raising (.ofVisible (language.enter manager))
    let inner : Action (Store Value Memory) (Interruption Value) Unit := do
      Action.raising (language.assignAll hidden handled entered item.target.toList)
      within handled body rest
    fun before ended after => ∃ innerEnded middle, inner before innerEnded middle ∧
      language.leaving manager innerEnded middle ended after

/-- The exception that is being handled where a body has ended in some way. -/
def handledAfter (handled : Option Value) : Except (Interruption Value) Unit → Option Value
  | .error (.raises error) => some error
  | _ => handled

mutual

/-- What a statement does. A loop is completed when its test fails or it has no more
items, and only then is its last clause run. -/
def run : Stmt → (handled : Option Value) → Action (Store Value Memory) (Interruption Value) Unit
  | .expression value, handled => do
    let _ ← Action.raising (language.eval hidden handled value)
  | .assign targets value, handled => .raising do
    language.assignAll hidden handled (← language.eval hidden handled value) targets
  | .delete position targets, handled => language.deleting hidden handled position targets
  | .branch _ .pass, _ => return
  | .branch _ .breakLoop, _ => .ofResult (.error .breaks)
  | .branch _ .continueLoop, _ => .ofResult (.error .continues)
  | .returns _ none, _ => .ofResult (.error (.returns (language.constant .none)))
  | .returns _ (some result), handled => do
    let value ← Action.raising (language.eval hidden handled result)
    .ofResult (.error (.returns value))
  | .raises _ none _, handled =>
    .ofResult (.error (.raises (handled.getD language.nothingHandled)))
  | .conditional _ test body _ orelse, handled => do
    if ← Action.raising (language.holds hidden handled test) then runAll body handled
    else runAll orelse handled
  | .whileLoop _ test body orelse, handled => do
    let completed ← Action.repeating do
      if ← Action.raising (language.holds hidden handled test) then
        Action.attempt (runAll body handled)
      else return some true
    if completed then runAll orelse handled
  | .forLoop _ target iterable body orelse, handled => do
    let value ← Action.raising (language.eval hidden handled iterable)
    let iterator ← Action.raising (.ofVisible (language.iterator value))
    let completed ← Action.repeating do
      match ← Action.raising (.ofVisible (language.next iterator)) with
      | none => return some true
      | some item => Action.attempt do
        Action.raising (language.assignTo hidden handled target item)
        runAll body handled
    if completed then runAll orelse handled
  | .tryBlock _ body handlers orelse final, handled =>
    .ensuring
      (.catching (runAll body handled) (fun error => runHandlers handlers error)
        (runAll orelse handled))
      fun ended => runAll final (handledAfter handled ended)
  | .withBlock _ items body, handled => language.within hidden handled (runAll body handled) items
  | other, handled => .ofVisible (language.execute handled other)

def runAll : List Stmt → (handled : Option Value) →
    Action (Store Value Memory) (Interruption Value) Unit
  | [], _ => return
  | first :: rest, handled => do
    run first handled
    runAll rest handled

/-- What handlers do with an error. Their types are evaluated in order; the first
handler whose type takes the error is run, and if there is none the error goes on. -/
def runHandlers : List Handler → (error : Value) →
    Action (Store Value Memory) (Interruption Value) Unit
  | [], error => .ofResult (.error (.raises error))
  | .mk _ none _ body :: _, error => runAll body (some error)
  | .mk _ (some type) ident body :: rest, error => do
    let type ← Action.raising (language.eval hidden (some error) type)
    let caught ← Action.raising (.ofVisible (language.catches error type))
    if caught then naming hidden ident error (runAll body (some error)) else runHandlers rest error

end

/-! ## Laws of the statements that generated code is made of -/

section Laws

variable {hidden} (handled : Option Value)

theorem eval_ofName (name : String) :
    language.eval hidden handled (.ofName name) = language.load hidden name := rfl

theorem eval_ofBool (value : Bool) :
    language.eval hidden handled (.ofBool value) = pure (language.constant (.boolean value)) := rfl

theorem eval_absent :
    language.eval hidden handled .absent = pure (language.constant .none) := rfl

theorem eval_supportCall (function : String) (arguments : List Expr) :
    language.eval hidden handled (.supportCall function arguments) = (do
      language.perform handled function (← language.evalAll hidden handled arguments)) := rfl

theorem holds_boolean (value : Bool) :
    (Action.ofVisible (language.truth (language.constant (.boolean value))) :
      Action (Store Value Memory) Value Bool) = pure value := by
  rw [language.truth_boolean, Action.ofVisible_pure]

theorem runAll_singleton (stmt : Stmt) :
    language.runAll hidden [stmt] handled = language.run hidden stmt handled := by
  simp only [runAll, bind_pure_unit]

theorem runAll_append (first second : List Stmt) :
    language.runAll hidden (first ++ second) handled = (do
      language.runAll hidden first handled
      language.runAll hidden second handled) := by
  induction first with
  | nil => rw [List.nil_append, runAll, pure_bind]
  | cons stmt rest induction => rw [List.cons_append, runAll, runAll, induction, bind_assoc]

theorem run_store (name : String) (value : Expr) :
    language.run hidden (.store name value) handled = Action.raising (do
      Action.setting hidden name (some (← language.eval hidden handled value))) := by
  change Action.raising (do
    let found ← language.eval hidden handled value
    Action.setting hidden name (some found)
    pure ()) = _
  simp only [bind_pure_unit]

/-- A name that has a value is loaded without further ado. -/
theorem load_bind_of_lookup {α : Type} {name : String} {value : Value}
    {before : Store Value Memory} (found : before.lookup hidden name = some value)
    (next : Value → Action (Store Value Memory) (Interruption Value) α) :
    (Action.raising (language.load hidden name) >>= next) before = next value before := by
  funext ended after
  refine propext ⟨?_, fun there => .inl ⟨value, before, ⟨rfl, by rw [found]; rfl⟩, there⟩⟩
  rintro (⟨_, _, ⟨rfl, same⟩, there⟩ | ⟨(_ | _ | _ | _), rfl, failed⟩)
  · rw [found] at same
    cases same
    exact there
  · exact failed.elim
  · exact failed.elim
  · exact failed.elim
  · have same := failed.2
    rw [found] at same
    cases same

/-- The functions of the support module that are not fixed here. -/
theorem perform_eq_support {function : String} (values : List Value)
    (isOther : function ∉ ["not_", "is_", "iter", "next_or_sentinel", "current_exception",
      "exception_matches"]) :
    (language.perform handled function values : Action (Store Value Memory) Value Value) =
      .ofVisible (language.support handled function values) := by
  unfold perform
  split
  case h_7 => rfl
  all_goals exact absurd isOther (by decide)

theorem evalAll_singleton {argument : Expr} {value : Value}
    (evaluates : language.eval hidden handled argument = pure value) :
    language.evalAll hidden handled [argument] = pure [value] := by
  rw [evalAll, evaluates, evalAll, pure_bind, pure_bind]

/-- A call whose first argument is a name that has a value, and whose other arguments
have no effects. -/
theorem supportCall_bind_of_lookup {α : Type} {function name : String} {arguments : List Expr}
    {value : Value} {values : List Value} {before : Store Value Memory}
    (found : before.lookup hidden name = some value)
    (others : language.evalAll hidden handled arguments = pure values)
    (next : Value → Action (Store Value Memory) (Interruption Value) α) :
    (Action.raising (language.eval hidden handled
      (.supportCall function (.ofName name :: arguments))) >>= next) before =
      (Action.raising (language.perform handled function (value :: values)) >>= next) before := by
  rw [eval_supportCall, evalAll, eval_ofName, others]
  simp only [pure_bind, bind_assoc, Action.raising_bind]
  rw [language.load_bind_of_lookup found]

/-- A name has the value that it was just given. -/
theorem setting_load {α : Type} (name : String) (value : Value)
    (next : Value → Action (Store Value Memory) (Interruption Value) α) :
    (do
      Action.setting hidden name (some value)
      let found ← Action.raising (language.load hidden name)
      next found) =
    (do
      Action.setting hidden name (some value)
      next value) := by
  funext before
  rw [Action.setting_bind, Action.setting_bind]
  exact language.load_bind_of_lookup (Store.lookup_update_self hidden before name (some value)) next

end Laws

end Language
end Unsugar
