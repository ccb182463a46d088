import Unsugar.Proofs.Evaluation.Preparation

/-! Assignments and choices. What is assigned ahead is found again under its name, and
an operand that may not be needed is evaluated if and only if it is. -/

namespace Unsugar
namespace Lowering

open Run
open Desugar (Ends)

variable {Value Error : Type} {runtime : Runtime Value Error} {ι β : Type}

/-! ## Explicit forms -/

/-- The explicit form of an expression: the statements to run first, lowered, and the
residual. -/
def explicit (lowering : Lowering Expr) : Desugar (List Stmt × Expr) := do
  let (value, ahead) ← lowering.run []
  return (← Deferred.runAll ahead, value)

/-- Lowered at once, an expression means what `action` means, from every state of which
something is `given`. The statements may also change what is `written`. -/
def Means (runtime : Runtime Value Error) (written : List String) (lowering : Lowering Expr)
    (given : ι → State Value → Prop) (ends : Value → β → State Value → Prop)
    (action : ι → Run Value Error β) : Prop :=
  ∀ context : Context, written ⊆ context.reserved →
    Ends context (explicit lowering) fun (statements, value) after =>
      context.reserved ⊆ after.reserved ∧ Residual (fun _ => True) value ∧
        Keeps (fun name => name ∈ context.reserved ∧ name ∉ written)
          (runtime.execAll statements) ∧
        ∀ index, Refines (given index) ends
          (do runtime.execAll statements; runtime.eval value) (action index)

variable {written : List String} {lowering : Lowering Expr} {label : Option String}

theorem Ready.means {before : List String} {held : List String} {value : Expr}
    {ahead : List Deferred} {context : Context} {ends : Value → β → State Value → Prop}
    {action : Run Value Error β}
    (ready : Ready runtime before context.reserved ahead held (runtime.eval value) ends action) :
    Ends context (do return (← Deferred.runAll ahead, value)) fun (statements, found) after =>
      found = value ∧ context.reserved ⊆ after.reserved ∧
        Keeps (· ∈ before) (runtime.execAll statements) ∧
        Refines (fun _ => True) ends (do runtime.execAll statements; runtime.eval value) action :=
  (ready.runs context fun _ => id).bind fun _ _ ⟨grows, prepares⟩ => .pure
    ⟨rfl, grows, prepares.keeps.mono fun _ old => ⟨ready.grows old, .inl old⟩, prepares.refines⟩

theorem Lowers.means {action : Run Value Error Value}
    (lowers : Lowers runtime label lowering action) (written : List String)
    (given : ι → State Value → Prop) {ends : Value → Value → State Value → Prop}
    (valid : ∀ value state, ends value value state) :
    Means runtime written lowering given ends fun _ => action := by
  intro context _
  refine (lowers context).bind fun (value, ahead) between ⟨held, residual, _, ready⟩ => ?_
  refine ready.means.imp fun (statements, found) after ⟨same, grows, keeps, refines⟩ => ?_
  subst same
  refine ⟨fun _ old => grows (ready.grows old), residual.mono fun _ _ => trivial,
    keeps.mono fun _ known => known.1, fun _ left right world _ => ?_⟩
  exact (refines left right world trivial).imp fun _ _ _ same => same ▸ valid _ _

theorem Means.weaken {κ : Type} {given : ι → State Value → Prop}
    {ends weaker : Value → β → State Value → Prop} {action : ι → Run Value Error β}
    {more : List String} {stronger : κ → State Value → Prop}
    (means : Means runtime written lowering given ends action) (includes : written ⊆ more)
    (index : κ → ι) (needs : ∀ choice state, stronger choice state → given (index choice) state)
    (implies : ∀ value other state, ends value other state → weaker value other state) :
    Means runtime more lowering stronger weaker fun choice => action (index choice) := by
  intro context known
  refine (means context fun _ member => known (includes member)).imp
    fun (statements, value) after ⟨grows, residual, keeps, refines⟩ =>
      ⟨grows, residual, ?_, fun choice left right world isGiven => ?_⟩
  · exact keeps.mono fun _ kept => ⟨kept.1, fun member => kept.2 (includes member)⟩
  · exact (refines (index choice) left right world (needs choice left isGiven)).imp implies

/-! ## Storing -/

theorem storing_eq_explicit (name : String) (lowering : Lowering Expr) :
    storing name lowering = (do
      let (statements, value) ← explicit lowering
      return statements ++ [.store name value]) := by
  simp [storing, flush, explicit]

theorem execAll_storing (statements : List Stmt) (name : String) (value : Expr) :
    runtime.execAll (statements ++ [.store name value]) = (do
      let value ← (do runtime.execAll statements; runtime.eval value)
      Runtime.store name value) := by
  rw [Runtime.execAll_append, Runtime.execAll_store, bind_assoc]

variable {given : ι → State Value → Prop} {ends : Value → β → State Value → Prop}
variable {action : ι → Run Value Error β}

/-- Statements leave the value of an expression under a reserved name. -/
structure Stores (runtime : Runtime Value Error) (kept : String → Prop) (name : String)
    (given : ι → State Value → Prop) (ends : Value → β → State Value → Prop)
    (action : ι → Run Value Error β) (statements : List Stmt) : Prop where
  keeps : Keeps kept (runtime.execAll statements)
  binds : ∀ state final, runtime.execAll statements state = (.ok (), final) →
    (final.temporaries name).isSome
  refines : ∀ index, Refines (given index) (fun _ other state =>
      ∃ value, state.temporaries name = some value ∧ ends value other state)
    (runtime.execAll statements) (action index)

theorem Stores.mono {kept fewer : String → Prop} {name : String} {statements : List Stmt}
    (stores : Stores runtime kept name given ends action statements)
    (implies : ∀ other, fewer other → kept other) :
    Stores runtime fewer name given ends action statements :=
  ⟨stores.keeps.mono implies, stores.binds, stores.refines⟩

/-- What is known of the end of a run does not rest on temporaries but those `written`. -/
def IsStable (written : List String) (known : β → State Value → Prop) : Prop :=
  ∀ name, isReserved name = true → name ∉ written → ∀ value other state,
    known other state → known other (state.put name value)

theorem storing_stores {name : String} (means : Means runtime written lowering given ends action)
    (reserved : isReserved name = true) (outside : name ∉ written)
    (stable : ∀ value, IsStable written (ends value))
    {context : Context} (includes : written ⊆ context.reserved) :
    Ends context (storing name lowering) fun statements after =>
      context.reserved ⊆ after.reserved ∧
        Stores runtime (fun other => other ∈ context.reserved ∧ other ∉ written ∧ other ≠ name)
          name given ends action statements := by
  rw [storing_eq_explicit]
  refine (means context includes).bind
    fun (statements, value) after ⟨grows, residual, keeps, refines⟩ => .pure ⟨grows, ?_, ?_, ?_⟩
  · rw [execAll_storing]
    refine ((keeps.mono ?_).bind fun _ => runtime.eval_keeps residual).bind fun _ =>
      Runtime.store_keeps _ fun kept => kept.2.2 rfl
    exact fun other kept => ⟨kept.1, kept.2.1⟩
  · intro state final ran
    rw [execAll_storing] at ran
    obtain ⟨found, last, _, stored⟩ := ok_of_run_bind ran
    cases stored
    rw [State.temporaries_put_self _ _ reserved]
    rfl
  · intro index
    rw [execAll_storing, ← bind_pure (action index)]
    refine (refines index).bind fun found other left right world valid => ?_
    refine ⟨(left.world_put_reserved found reserved).trans world, found, ?_, ?_⟩
    · exact left.temporaries_put_self found reserved
    · exact stable found name reserved outside found other left valid

/-- The value of an expression, stored under a name that was taken for it. -/
theorem Lowers.stores {name : String} {action : Run Value Error Value}
    (lowers : Lowers runtime label lowering action) (reserved : isReserved name = true)
    (context : Context) :
    Ends context (storing name lowering) fun statements after =>
      context.reserved ⊆ after.reserved ∧
        Stores runtime (fun other => other ∈ context.reserved ∧ other ≠ name) name
          (fun (_ : Unit) _ => True) Same (fun _ => action) statements := by
  have stable : ∀ value : Value, IsStable [] fun other (_ : State Value) => value = other :=
    fun _ _ _ _ _ _ _ => id
  refine (storing_stores (lowers.means [] _ fun _ _ => rfl) reserved (by simp) stable
    (by simp)).imp fun statements after ⟨grows, stores⟩ => ⟨grows, stores.mono ?_⟩
  exact fun other kept => ⟨kept.1, by simp, kept.2⟩

/-! ## Assignment expressions -/

theorem storing_user_ends {name : String} {action : Run Value Error Value}
    (means : Means runtime [] lowering (fun (_ : Unit) _ => True) Same fun _ => action)
    (user : isReserved name = false) (context : Context) :
    Ends context (storing name lowering) fun statements after =>
      context.reserved ⊆ after.reserved ∧
        Keeps (· ∈ context.reserved) (runtime.execAll statements) ∧
        Refines (fun _ => True) (fun _ other state => state.lookup name = some other)
          (runtime.execAll statements)
          (do let value ← action; Runtime.store name value; return value) := by
  rw [storing_eq_explicit]
  refine (means context (by simp)).bind
    fun (statements, value) after ⟨grows, residual, keeps, refines⟩ => .pure ⟨grows, ?_, ?_⟩
  · rw [execAll_storing]
    refine ((keeps.mono (by simp)).bind fun _ => runtime.eval_keeps residual).bind
      fun found state other _ => ?_
    exact congrFun (state.temporaries_put_user found user) other
  · rw [execAll_storing]
    refine (refines ()).bind fun found other left right world same => ?_
    subst same
    exact ⟨State.world_put_congr world name found, left.lookup_put_self name found⟩

theorem assigning_lowers {name : String} {action : Run Value Error Value}
    (lowers : Lowers runtime label lowering action) (user : isReserved name = false) :
    Lowers runtime none (assigning name lowering)
      (do let value ← action; Runtime.store name value; return value) := by
  intro context
  refine ends_touch fun between same => ends_emit (.pure ?_)
  rw [← same]
  refine ⟨[], .user user, rfl, fun _ => id, by simp, fun later includes => ?_⟩
  rw [List.nil_append, Deferred.runAll_singleton]
  refine (storing_user_ends (lowers.means [] _ fun _ _ => rfl) user later).imp
    fun statements after ⟨grows, keeps, refines⟩ => ⟨grows, keeps.mono fun _ spared => spared.1,
      by simp, ?_⟩
  rw [Runtime.eval_ofName]
  exact refines.followed fun _ other state bound =>
    ⟨other, Runtime.load_run_of_bound bound, rfl⟩

/-! ## Short circuits -/

/-- The truth value of its first operand with which an operator goes on to the second. -/
def goesOnWith : LogicalOp → Bool
  | .and => true
  | .or => false

/-- The test that an operator makes of its first operand, where it is stored. -/
def testOf (op : LogicalOp) (result : String) : Expr :=
  match op with
  | .and => .ofName result
  | .or => .supportCall "not_" [.ofName result]

theorem testOf_residual {op : LogicalOp} {result : String} (different : result ≠ supportModule) :
    Residual (fun _ => True) (testOf op result) := by
  cases op with
  | and => exact .temporary different trivial
  | or =>
    refine .operation rfl fun argument member => ?_
    rw [List.mem_singleton.mp member]
    exact .temporary different trivial

theorem testOf_run {op : LogicalOp} {result : String} {state : State Value} {value : Value}
    (bound : state.lookup result = some value) :
    (do let test ← runtime.eval (testOf op result); runtime.test test) state =
      (((runtime.truth state.world value).1.mapError .raised).map (· == goesOnWith op),
        { state with world := runtime.tested state.world value }) := by
  have loaded : (Runtime.load result : Run Value Error Value) state = (.ok value, state) :=
    Runtime.load_run_of_bound bound
  cases op with
  | and =>
    rw [testOf, Runtime.eval_ofName, run_bind_ok loaded, Runtime.test_run]
    cases (runtime.truth state.world value).1 <;> simp [goesOnWith, Except.mapError, Except.map]
  | or =>
    have negation : runtime.eval (testOf .or result) = (do
        let value ← Runtime.load result
        let holds ← runtime.test value
        return runtime.constant (.boolean !holds)) := by
      rw [testOf, Expr.supportCall, Expr.apply, runtime.eval_call_operation _ _ rfl,
        Runtime.evalAll_singleton, Runtime.eval_ofName]
      simp [Runtime.perform]
    rw [negation, bind_assoc, run_bind_ok loaded, bind_assoc, run_bind, Runtime.test_run]
    cases (runtime.truth state.world value).1 <;>
      simp [goesOnWith, Except.mapError, Except.map, Runtime.test_boolean, run_pure]

/-- A run gave the value that `view` has of what it is to give, and more is known of the end,
unless it is sure that an operator does not go on from that value. -/
def Reaches (runtime : Runtime Value Error) (op : LogicalOp) (view : β → Value)
    (goingOn : β → State Value → Prop) (value : Value) (other : β) (state : State Value) : Prop :=
  value = view other ∧ (goingOn other state ∨ runtime.isQuiet (view other) = true ∧
    (runtime.truth state.world (view other)).1 ≠ .ok (goesOnWith op))

theorem IsStable.reaches {goingOn : β → State Value → Prop} (stable : IsStable written goingOn)
    (op : LogicalOp) (view : β → Value) (value : Value) :
    IsStable written (Reaches runtime op view goingOn value) := by
  rintro name reserved outside stored other state ⟨same, known⟩
  rw [Reaches, State.world_put_reserved _ _ reserved]
  exact ⟨same, known.imp_left (stable name reserved outside stored other state)⟩

/-- What is known of an operand can be relied on by an operator, whether it goes on from there
or not: it does not rest on the world, which the test may change, and where the operator ends
with the operand itself, as much is known as is `reached` by going on, or the operator ends so
again the next time. -/
structure Settles (runtime : Runtime Value Error) (view : β → Value)
    (goingOn reached : β → State Value → Prop) : Prop where
  lasts : ∀ other state world, goingOn other state → goingOn other { state with world := world }
  ends : ∀ other state, goingOn other state →
    runtime.isQuiet (view other) = true ∨ ∀ final, reached other final

/-- What a short circuit means. The first operand gives the value that `view` has of it,
and perhaps more that the second one goes on from. -/
def circuit (runtime : Runtime Value Error) (op : LogicalOp) (view : β → Value)
    (first : Run Value Error β) (second : β → Run Value Error β) : Run Value Error β := do
  let other ← first
  let holds ← runtime.test (view other)
  if holds == goesOnWith op then second other else return other

section Circuit

variable {kept : String → Prop} {result : String} {op : LogicalOp} {view : β → Value}
variable {goingOn reached : β → State Value → Prop} {first : Run Value Error β}
variable {second : β → Run Value Error β} {front back : List Stmt}

theorem execAll_circuit (position : Position) :
    runtime.execAll (front ++ [.conditional position (testOf op result) back .unknown []]) = (do
      runtime.execAll front
      let goes ← (do let test ← runtime.eval (testOf op result); runtime.test test)
      if goes then runtime.execAll back else pure ()) := by
  rw [Runtime.execAll_append]
  simp [Runtime.execAll, Runtime.exec]

/-- From the first operand on, which is stored, the second one is run if it is needed. -/
theorem Stores.circuit_alike (reserved : isReserved result = true)
    (secondStores : Stores runtime kept result goingOn (Reaches runtime op view reached) second
      back)
    (settles : Settles runtime view goingOn reached)
    {other : β} {stored right : State Value} (world : stored.world = right.world)
    (isStored : stored.temporaries result = some (view other))
    (known : goingOn other stored ∨ runtime.isQuiet (view other) = true ∧
      (runtime.truth stored.world (view other)).1 ≠ .ok (goesOnWith op)) :
    Alike (Reaches runtime op view reached)
      ((do
        let goes ← (do let test ← runtime.eval (testOf op result); runtime.test test)
        (if goes then runtime.execAll back else pure ()) >>= fun _ => Runtime.load result) stored)
      ((do
        let holds ← runtime.test (view other)
        if holds == goesOnWith op then second other else return other) right) := by
  let after := runtime.tested stored.world (view other)
  have tested : (do let test ← runtime.eval (testOf op result); runtime.test test) stored = _ :=
    testOf_run (State.lookup_of_temporary reserved isStored)
  have testedRight := runtime.test_run (view other) right
  rw [← world] at testedRight
  cases truth : (runtime.truth stored.world (view other)).1 with
  | error reason =>
    rw [truth] at tested testedRight
    rw [run_bind_error tested, run_bind_error testedRight]
    exact ⟨rfl, rfl⟩
  | ok holds =>
    rw [truth] at tested testedRight known
    rw [run_bind_ok tested, run_bind_ok testedRight]
    by_cases goes : holds = goesOnWith op
    · subst goes
      simp only [BEq.rfl, if_true]
      have goingOn : goingOn other stored := known.resolve_right fun quiet => quiet.2 rfl
      refine (secondStores.refines other).followed
        (fun _ last state ⟨value, isValue, valid⟩ => ?_) { stored with world := after }
        { right with world := after } rfl (settles.lasts other stored after goingOn)
      exact ⟨value, Runtime.load_run_of_bound (State.lookup_of_temporary reserved isValue), valid⟩
    · have stops : (holds == goesOnWith op) = false := by simpa using goes
      have loaded : (Runtime.load result : Run Value Error Value) { stored with world := after } =
          (.ok (view other), { stored with world := after }) :=
        Runtime.load_run_of_bound (State.lookup_of_temporary reserved isStored)
      simp only [stops]
      rw [if_neg (by simp), pure_bind, loaded]
      have settled : runtime.isQuiet (view other) = true ∨ ∀ final, reached other final :=
        known.elim (settles.ends other stored) fun quiet => .inl quiet.1
      refine ⟨rfl, rfl, settled.symm.imp (· _) fun quiet => ⟨quiet, ?_⟩⟩
      -- A quiet value still counts as it did, so no operator goes on from it.
      rw [show after = stored.world from runtime.tested_of_isQuiet quiet stored.world, truth]
      exact fun same => goes (Except.ok.inj same)

/-- The result of a short circuit, once the operands that are needed are stored. -/
theorem Stores.circuit (position : Position) (reserved : isReserved result = true)
    (different : result ≠ supportModule) (settles : Settles runtime view goingOn reached)
    (firstStores : Stores runtime kept result (fun (_ : Unit) _ => True)
      (Reaches runtime op view goingOn) (fun _ => first) front)
    (secondStores : Stores runtime kept result goingOn (Reaches runtime op view reached) second
      back) :
    Prepares kept [result]
      (runtime.execAll (front ++ [.conditional position (testOf op result) back .unknown []]))
      (Runtime.load result) (Reaches runtime op view reached)
      (Lowering.circuit runtime op view first second) := by
  rw [execAll_circuit]
  refine ⟨?_, ?_, ?_⟩
  · refine firstStores.keeps.bind fun _ => ?_
    refine ((runtime.eval_keeps (testOf_residual different)).bind fun _ =>
      runtime.test_keeps _).bind fun goes => ?_
    cases goes with
    | false => exact .pure ()
    | true => exact secondStores.keeps
  · intro state final ran name member
    rw [List.mem_singleton.mp member]
    obtain ⟨_, stored, frontRun, ran⟩ := ok_of_run_bind ran
    have bound := firstStores.binds state stored frontRun
    obtain ⟨value, isValue⟩ := Option.isSome_iff_exists.mp bound
    have found := State.lookup_of_temporary reserved isValue
    obtain ⟨goes, tested, testRun, ran⟩ := ok_of_run_bind ran
    rw [testOf_run found] at testRun
    cases goes with
    | false =>
      have temporaries : stored.temporaries = tested.temporaries :=
        congrArg (·.2.temporaries) testRun
      cases ran
      exact temporaries ▸ bound
    | true => exact secondStores.binds tested final ran
  · intro left right world _
    rw [bind_assoc]
    refine (firstStores.refines () left right world trivial).bind
      fun _ other stored right _ world ⟨value, isValue, same, known⟩ => ?_
    subst same
    rw [bind_assoc]
    exact secondStores.circuit_alike reserved settles world isValue known

end Circuit

/-- Lowering a short circuit. The operands may change what is `written`, which was taken
after the names `before`. -/
theorem shortCircuit_ready {left right : Lowering Expr} {op : LogicalOp} {view : β → Value}
    {goingOn reached : β → State Value → Prop} {first : Run Value Error β}
    {second : β → Run Value Error β} (position : Position)
    (leftMeans : Means runtime written left (fun (_ : Unit) _ => True)
      (Reaches runtime op view goingOn) fun _ => first)
    (rightMeans : Means runtime written right goingOn (Reaches runtime op view reached) second)
    (goingOnStable : IsStable written goingOn) (reachedStable : IsStable written reached)
    (settles : Settles runtime view goingOn reached)
    {context : Context} {before : List String} (old : before ⊆ context.reserved)
    (includes : written ⊆ context.reserved) (apart : ∀ name ∈ written, name ∉ before) :
    Ends context ((shortCircuit op position left right).run []) fun (value, ahead) after =>
      ∃ result, value = .ofName result ∧ result ≠ supportModule ∧
        context.reserved ⊆ after.reserved ∧
        Ready runtime before after.reserved ahead [result] (runtime.eval value)
          (Reaches runtime op view reached) (circuit runtime op view first second) := by
  refine ends_touch fun touched same => ends_fresh fun result between isTaken taken =>
    ends_emit (ends_emit (.pure ⟨result, rfl, isTaken.notSupport, ?_, ?_, ?_, ?_⟩))
  · exact fun name isOld => by simp [taken, same, isOld]
  · exact fun name isOld => by simp [taken, same, old isOld]
  · intro name member
    rw [List.mem_singleton.mp member]
    exact isTaken.mono (same ▸ old) fun _ => id
  · intro context known
    have resultOutside : result ∉ written := fun member => isTaken.new (same ▸ includes member)
    have writtenKnown : written ⊆ context.reserved := fun name member =>
      known (by simp [taken, same, includes member])
    have inOrder : Deferred.runAll [storing result left, do
          let body ← storing result right
          return [.conditional position (testOf op result) body .unknown []]] = (do
        let front ← storing result left
        let back ← storing result right
        return front ++ [.conditional position (testOf op result) back .unknown []]) := by
      simp [Deferred.runAll]
    change Ends context (Deferred.runAll [storing result left, do
      let body ← storing result right
      return [.conditional position (testOf op result) body .unknown []]]) _
    rw [inOrder]
    refine (storing_stores leftMeans isTaken.reserved resultOutside (goingOnStable.reaches op view)
      writtenKnown).bind ?_
    rintro front middle ⟨frontGrows, frontStores⟩
    refine (storing_stores rightMeans isTaken.reserved resultOutside (reachedStable.reaches op view)
      fun name member => frontGrows (writtenKnown member)).bind ?_
    rintro back last ⟨backGrows, backStores⟩
    refine .pure ⟨fun _ found => backGrows (frontGrows found), ?_⟩
    rw [Runtime.eval_ofName]
    -- What must not be touched is older than the result, or was taken since for other code.
    have spared : ∀ name, IsSpared before between.reserved context.reserved name →
        name ∈ context.reserved ∧ name ∉ written ∧ name ≠ result := by
      rintro name ⟨isKnown, isOld | notTaken⟩
      · refine ⟨isKnown, fun isWritten => apart name isWritten isOld, fun isResult => ?_⟩
        exact isTaken.new (same ▸ old (isResult ▸ isOld))
      · refine ⟨isKnown, fun isWritten => notTaken ?_, fun isResult => ?_⟩
        · simp [taken, same, includes isWritten]
        · exact notTaken (isResult ▸ isTaken.taken)
    refine Stores.circuit position isTaken.reserved isTaken.notSupport settles
      (frontStores.mono spared) (backStores.mono fun name isSpared => ?_)
    obtain ⟨isKnown, rest⟩ := spared name isSpared
    exact ⟨frontGrows isKnown, rest⟩

theorem shortCircuit_means {left right : Lowering Expr} {op : LogicalOp} {view : β → Value}
    {goingOn reached : β → State Value → Prop} {first : Run Value Error β}
    {second : β → Run Value Error β} (position : Position)
    (leftMeans : Means runtime written left (fun (_ : Unit) _ => True)
      (Reaches runtime op view goingOn) fun _ => first)
    (rightMeans : Means runtime written right goingOn (Reaches runtime op view reached) second)
    (goingOnStable : IsStable written goingOn) (reachedStable : IsStable written reached)
    (settles : Settles runtime view goingOn reached) :
    Means runtime written (shortCircuit op position left right) (fun (_ : Unit) _ => True)
      (Reaches runtime op view reached) fun _ => circuit runtime op view first second := by
  intro context includes
  -- The operands may write to old names, so only the others count as taken before.
  let before := context.reserved.filter (· ∉ written)
  have isOld : ∀ name, name ∈ before ↔ name ∈ context.reserved ∧ name ∉ written := by
    simp [before]
  refine (shortCircuit_ready position leftMeans rightMeans goingOnStable reachedStable settles
    (fun name member => ((isOld name).mp member).1) includes
    fun name isWritten member => ((isOld name).mp member).2 isWritten).bind
      fun (value, ahead) between ⟨result, isResult, different, takes, ready⟩ => ?_
  refine ready.means.imp fun (statements, found) after ⟨same, grows, keeps, refines⟩ => ?_
  subst same isResult
  exact ⟨fun _ known => grows (takes known), .temporary different trivial,
    keeps.mono fun name kept => (isOld name).mpr kept, fun _ => refines⟩

theorem shortCircuit_lowers {left right : Lowering Expr} {leftLabel rightLabel : Option String}
    {first second : Run Value Error Value} (op : LogicalOp) (position : Position)
    (leftLowers : Lowers runtime leftLabel left first)
    (rightLowers : Lowers runtime rightLabel right second) :
    Lowers runtime none (shortCircuit op position left right)
      (circuit runtime op id first fun _ => second) := by
  intro context
  have reaches : ∀ (value : Value) (state : State Value),
      Reaches runtime op id (fun (_ : Value) (_ : State Value) => True) value value state :=
    fun _ _ => ⟨rfl, .inl trivial⟩
  have settles : Settles runtime id (fun (_ : Value) (_ : State Value) => True)
      fun _ _ => True :=
    ⟨fun _ _ _ => id, fun _ _ _ => .inr fun _ => trivial⟩
  have stable : IsStable [] fun (_ : Value) (_ : State Value) => True :=
    fun _ _ _ _ _ _ => id
  refine (shortCircuit_ready position (leftLowers.means [] _ reaches)
    (rightLowers.means [] _ reaches) stable stable settles (fun _ => id) (by simp)
    (by simp)).imp
      fun (value, ahead) after ⟨result, isResult, different, _, ready⟩ => ?_
  subst isResult
  exact ⟨[result], .temporary different (by simp), rfl, ready.imp fun _ _ _ reached => reached.1⟩

/-! ## Conditional expressions -/

/-- What a temporary holds can be loaded. -/
theorem Stores.loads {kept : String → Prop} {name : String} {statements : List Stmt}
    (stores : Stores runtime kept name given ends action statements)
    (reserved : isReserved name = true) (index : ι) :
    Refines (given index) ends (do runtime.execAll statements; Runtime.load name)
      (action index) :=
  (stores.refines index).followed fun _ _ _ ⟨value, isValue, valid⟩ =>
    ⟨value, Runtime.load_run_of_bound (State.lookup_of_temporary reserved isValue), valid⟩

/-- The result of a conditional expression, once it is stored by one branch. -/
theorem Stores.choice {kept spared : String → Prop} {held : List String} {result : String}
    {front body orelse : List Stmt} {value : Expr} {visible : String → Prop}
    {testAction trueAction falseAction : Run Value Error Value}
    (reserved : isReserved result = true) (residual : Residual visible value)
    (prepares : Prepares spared held (runtime.execAll front) (runtime.eval value) Same testAction)
    (trueStores : Stores runtime kept result (fun (_ : Unit) _ => True) Same
      (fun _ => trueAction) body)
    (falseStores : Stores runtime kept result (fun (_ : Unit) _ => True) Same
      (fun _ => falseAction) orelse)
    (kept_spared : ∀ name, kept name → spared name) :
    Prepares kept [result] (runtime.execAll (front ++ [.choose value body orelse]))
      (Runtime.load result) Same (do
        let value ← testAction
        if ← runtime.test value then trueAction else falseAction) := by
  have chooses : runtime.execAll (front ++ [.choose value body orelse]) = (do
      let test ← (do runtime.execAll front; runtime.eval value)
      let holds ← runtime.test test
      if holds then runtime.execAll body else runtime.execAll orelse) := by
    rw [Runtime.execAll_append, bind_assoc]
    simp [Runtime.execAll, Runtime.exec, Stmt.choose]
  rw [chooses]
  refine ⟨?_, ?_, ?_⟩
  · refine ((prepares.keeps.mono kept_spared).bind fun _ => runtime.eval_keeps residual).bind
      fun _ => (runtime.test_keeps _).bind fun holds => ?_
    cases holds with
    | false => exact falseStores.keeps
    | true => exact trueStores.keeps
  · intro state final ran name member
    rw [List.mem_singleton.mp member]
    obtain ⟨_, _, _, ran⟩ := ok_of_run_bind ran
    obtain ⟨holds, tested, _, ran⟩ := ok_of_run_bind ran
    cases holds with
    | false => exact falseStores.binds tested final ran
    | true => exact trueStores.binds tested final ran
  · rw [bind_assoc]
    refine prepares.refines.bind fun test other left right world same => ?_
    subst same
    rw [bind_assoc]
    refine ((runtime.test_respects test).matches left right world trivial).bind
      fun holds _ left right _ world same => ?_
    subst same
    cases holds with
    | false => exact falseStores.loads reserved () left right world trivial
    | true => exact trueStores.loads reserved () left right world trivial

theorem choosing_lowers {test whenTrue whenFalse : Lowering Expr}
    {testLabel trueLabel falseLabel : Option String}
    {testAction trueAction falseAction : Run Value Error Value}
    (testLowers : Lowers runtime testLabel test testAction)
    (trueLowers : Lowers runtime trueLabel whenTrue trueAction)
    (falseLowers : Lowers runtime falseLabel whenFalse falseAction) :
    Lowers runtime none (choosing test whenTrue whenFalse) (do
      let value ← testAction
      if ← runtime.test value then trueAction else falseAction) := by
  intro context
  refine ends_touch fun touched same => ends_fresh fun result between isTaken taken =>
    ends_emit (.pure ⟨[result], .temporary isTaken.notSupport (by simp), rfl, ?_, ?_, ?_⟩)
  · exact fun name isOld => by simp [taken, same, isOld]
  · intro name member
    rw [List.mem_singleton.mp member, ← same]
    exact isTaken
  · intro context known
    have inOrder : Deferred.runAll [flush do
          let test ← test
          let body ← storing result whenTrue
          return .choose test body (← storing result whenFalse)] = (do
        let (value, ahead) ← test.run []
        let body ← storing result whenTrue
        let orelse ← storing result whenFalse
        let front ← Deferred.runAll ahead
        return front ++ [.choose value body orelse]) := by
      rw [Deferred.runAll_singleton]
      simp [flush]
    rw [List.nil_append, inOrder]
    refine (testLowers context).bind fun (value, ahead) tested ⟨held, residual, _, ready⟩ => ?_
    refine (trueLowers.stores isTaken.reserved tested).bind
      fun body stored ⟨bodyGrows, bodyStores⟩ => ?_
    refine (falseLowers.stores isTaken.reserved stored).bind
      fun orelse chosen ⟨orelseGrows, orelseStores⟩ => ?_
    refine (ready.runs chosen fun _ found => orelseGrows (bodyGrows found)).bind
      fun front last ⟨frontGrows, prepares⟩ => .pure ⟨?_, ?_⟩
    · exact fun _ found => frontGrows (orelseGrows (bodyGrows (ready.grows found)))
    have spared : ∀ name, IsSpared touched.reserved between.reserved context.reserved name →
        name ∈ context.reserved ∧ name ≠ result := by
      rintro name ⟨isKnown, isOld | notTaken⟩
      · exact ⟨isKnown, fun isResult => isTaken.new (isResult ▸ isOld)⟩
      · exact ⟨isKnown, fun isResult => notTaken (isResult ▸ isTaken.taken)⟩
    rw [Runtime.eval_ofName, ← same]
    refine Stores.choice isTaken.reserved residual prepares
      (bodyStores.mono fun name isSpared => ?_) (orelseStores.mono fun name isSpared => ?_)
      fun name isSpared => ?_
    · exact ⟨ready.grows (spared name isSpared).1, (spared name isSpared).2⟩
    · exact ⟨bodyGrows (ready.grows (spared name isSpared).1), (spared name isSpared).2⟩
    · have isKnown := (spared name isSpared).1
      exact ⟨orelseGrows (bodyGrows (ready.grows isKnown)), .inl isKnown⟩

end Lowering
end Unsugar
