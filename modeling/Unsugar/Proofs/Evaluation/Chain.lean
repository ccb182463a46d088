import Unsugar.Proofs.Evaluation.Call
import Unsugar.Proofs.Evaluation.Choice

/-! Chains of comparisons. The right operand of one comparison is the left operand of the
next one, and is recalled there: a literal as it is, any other operand from the
temporary that it was stored in. -/

namespace Unsugar
namespace Lowering

open Run
open Desugar (Ends)

variable {Value Error : Type} {runtime : Runtime Value Error} {ι β : Type}

/-! ## Linked comparisons -/

/-- Goes on with the last operand if the result so far counts as true. -/
def link (runtime : Runtime Value Error) (before : Run Value Error (Value × Value))
    (next : Value → Run Value Error (Value × Value)) : Run Value Error (Value × Value) :=
  circuit runtime .and Prod.fst before fun pair => next pair.2

/-- A comparison with the operand before it gives its result and the new operand. -/
def compared (runtime : Runtime Value Error) (op : CompareOp) (right : Expr) (left : Value) :
    Run Value Error (Value × Value) := do
  let right ← runtime.eval right
  let result ← runtime.perform (.compare op) [left, right]
  return (result, right)

/-- A run gives results that are tested without being seen. -/
def GivesQuiet (runtime : Runtime Value Error) (action : Run Value Error (Value × Value)) : Prop :=
  ∀ state pair after, action state = (.ok pair, after) → runtime.isQuiet pair.1 = true

theorem compared_givesQuiet (op : CompareOp) (right : Expr) (left : Value) :
    GivesQuiet runtime (compared runtime op right left) := by
  intro state pair after ran
  obtain ⟨_, _, _, ran⟩ := ok_of_run_bind ran
  obtain ⟨result, _, performed, ran⟩ := ok_of_run_bind ran
  cases ran
  exact runtime.isQuiet_of_perform performed

/-- A result that counts as false does so the next time it is asked for. -/
theorem link_link {before : Run Value Error (Value × Value)} (quiet : GivesQuiet runtime before)
    (next last : Value → Run Value Error (Value × Value)) :
    link runtime (link runtime before next) last =
      link runtime before fun value => link runtime (next value) last := by
  unfold link circuit
  rw [bind_assoc]
  funext state
  rcases ran : before state with ⟨reason | pair, after⟩
  · rw [run_bind_error ran, run_bind_error ran]
  rw [run_bind_ok ran, run_bind_ok ran, bind_assoc]
  have tested := runtime.test_run_of_isQuiet (quiet state pair after ran) after
  cases truth : (runtime.truth after.world pair.1).1 with
  | error reason =>
    rw [truth] at tested
    rw [run_bind_error tested, run_bind_error tested]
  | ok holds =>
    rw [truth] at tested
    rw [run_bind_ok tested, run_bind_ok tested]
    cases holds with
    | true => rfl
    | false =>
      -- The outer link tests the result once more, in the same world.
      simp only [goesOnWith, Bool.false_eq_true, beq_iff_eq, if_false, pure_bind]
      rw [run_bind_ok tested]
      rfl

theorem foldl_link {first : Run Value Error (Value × Value)} (quiet : GivesQuiet runtime first)
    (next : Value → Run Value Error (Value × Value))
    (rest : List (Value → Run Value Error (Value × Value))) :
    (next :: rest).foldl (link runtime) first =
      link runtime first fun value => rest.foldl (link runtime) (next value) := by
  induction rest generalizing next with
  | nil => rfl
  | cons second rest induction =>
    have earlier := induction fun value => link runtime (next value) second
    rw [List.foldl_cons] at earlier
    rw [List.foldl_cons, List.foldl_cons, link_link quiet, earlier]
    rfl

theorem evalChain_eq_foldl (left : Value) {op : CompareOp} {right : Expr} {ops : List CompareOp}
    {rights : List Expr} (sameLength : ops.length = rights.length) :
    runtime.evalChain left (op :: ops) (right :: rights) = Prod.fst <$>
      (List.zipWith (compared runtime) ops rights).foldl (link runtime)
        (compared runtime op right left) := by
  induction rights generalizing left op right ops with
  | nil =>
    cases ops with
    | nil => simp [Runtime.evalChain, compared]
    | cons => simp at sameLength
  | cons next rights induction =>
    cases ops with
    | nil => simp at sameLength
    | cons nextOp ops =>
      have rest : ∀ value, runtime.evalChain value (nextOp :: ops) (next :: rights) = _ :=
        fun value => induction value (by simpa using sameLength)
      rw [Runtime.evalChain, List.zipWith_cons_cons,
        foldl_link (compared_givesQuiet op right left)]
      · simp only [rest, link, circuit, compared, bind_assoc, pure_bind, map_bind]
        refine bind_congr fun value => bind_congr fun result => bind_congr fun holds => ?_
        cases holds <;> simp [goesOnWith]
      · simp

/-! ## Operands that are recalled -/

/-- How the next comparison has its left operand. -/
inductive Recall where
  /-- There is no next comparison. -/
  | nothing
  | literal (position : Position) (raw : String) (value : Constant)
  | temporary (name : String)

namespace Recall

/-- An operand can be recalled. -/
def Holds (runtime : Runtime Value Error) : Recall → Value → State Value → Prop
  | nothing, _, _ => True
  | literal _ _ constant, value, _ => value = runtime.constant constant
  | temporary name, value, state => state.temporaries name = some value

/-- The temporaries that are recalled from. -/
def names : Recall → List String
  | temporary name => [name]
  | _ => []

@[simp] theorem names_nothing : nothing.names = [] := rfl

@[simp] theorem names_literal (position : Position) (raw : String) (value : Constant) :
    (literal position raw value).names = [] := rfl

@[simp] theorem names_temporary (name : String) : (temporary name).names = [name] := rfl

/-- The left operand of the next comparison, lowered. -/
inductive Gives : Recall → Expr → Prop
  | literal (position : Position) (raw : String) (value : Constant) :
    Gives (literal position raw value) (.literal position raw value)
  | temporary {name : String} (reserved : isReserved name = true)
    (different : name ≠ supportModule) : Gives (temporary name) (.ofName name)

variable {recalled : Recall} {expr : Expr}

theorem Holds.congr {value : Value} {state other : State Value}
    (holds : recalled.Holds runtime value state)
    (same : ∀ name ∈ recalled.names, other.temporaries name = state.temporaries name) :
    recalled.Holds runtime value other := by
  cases recalled with
  | nothing => exact trivial
  | literal => exact holds
  | temporary name => exact (same name (by simp [names])).trans holds

theorem Gives.residual (gives : recalled.Gives expr) : Residual (fun _ => True) expr := by
  cases gives with
  | literal => exact .literal
  | temporary reserved different => exact .temporary different trivial

theorem Gives.hoist_eq (gives : recalled.Gives expr) : hoist expr = pure expr := by
  cases gives with
  | literal => rfl
  | temporary reserved => simp [Expr.ofName, hoist, reserved]

theorem Gives.eval_run (gives : recalled.Gives expr) {value : Value} {state : State Value}
    (holds : recalled.Holds runtime value state) :
    runtime.eval expr state = (.ok value, state) := by
  cases gives with
  | literal =>
    cases holds
    simp only [Runtime.eval]
    rfl
  | temporary reserved =>
    rw [Runtime.eval_ofName]
    exact Runtime.load_run_of_bound (State.lookup_of_temporary reserved holds)

theorem isStable (written : List String) (includes : recalled.names ⊆ written) :
    IsStable written fun (pair : Value × Value) state => recalled.Holds runtime pair.2 state := by
  intro name _ outside value pair state holds
  refine holds.congr fun other member => state.temporaries_put_of_ne value ?_
  exact fun same => outside (same ▸ includes member)

end Recall

/-- A result that is tested without being seen, with an operand that can be recalled. -/
def IsRecalled (runtime : Runtime Value Error) (recalled : Recall) (pair : Value × Value)
    (state : State Value) : Prop :=
  runtime.isQuiet pair.1 = true ∧ recalled.Holds runtime pair.2 state

theorem isRecalled_stable {recalled : Recall} (written : List String)
    (includes : recalled.names ⊆ written) : IsStable written (IsRecalled runtime recalled) :=
  fun name reserved outside value pair state holds =>
    ⟨holds.1, recalled.isStable written includes name reserved outside value pair state holds.2⟩

theorem isRecalled_settles (recalled next : Recall) :
    Settles runtime Prod.fst (IsRecalled runtime recalled) (IsRecalled runtime next) :=
  ⟨fun _ _ _ holds => ⟨holds.1, holds.2.congr fun _ _ => rfl⟩, fun _ _ holds => .inl holds.1⟩

/-- The result of a comparison, after which its right operand can be recalled. -/
def Recalls (runtime : Runtime Value Error) (recalled : Recall) (value : Value)
    (pair : Value × Value) (state : State Value) : Prop :=
  value = pair.1 ∧ IsRecalled runtime recalled pair state

/-- What an operand means that can be recalled. -/
def MeansRecalled (runtime : Runtime Value Error) (recalled : Recall) (right : Lowering Expr)
    (action : Run Value Error Value) : Prop :=
  Means runtime recalled.names right (fun (_ : Unit) _ => True)
    (fun value other state => value = other ∧ recalled.Holds runtime other state) fun _ => action

variable {label : Option String} {right : Lowering Expr} {action : Run Value Error Value}

theorem meansRecalled_nothing (lowers : Lowers runtime label right action) :
    MeansRecalled runtime .nothing right action :=
  lowers.means [] _ fun _ _ => ⟨rfl, trivial⟩

theorem meansRecalled_literal (runtime : Runtime Value Error) (position : Position)
    (raw : String) (value : Constant) :
    MeansRecalled runtime (.literal position raw value) (return .literal position raw value)
      (runtime.eval (.literal position raw value)) := by
  intro context _
  refine .pure ⟨fun _ => id, .literal, ?_, fun _ left right world _ => ?_⟩
  · unfold Runtime.execAll
    exact .pure ()
  · simp only [Runtime.execAll, Runtime.eval]
    exact ⟨world, rfl, rfl⟩

theorem explicit_assigning (name : String) (right : Lowering Expr) :
    explicit (assigning name right) = (do
      Desugar.touch
      let statements ← storing name right
      return (statements, .ofName name)) := by
  simp [explicit, assigning, touch, emit, Deferred.runAll]

/-- Once it is stored, an operand can be recalled. -/
theorem storing_prepares {name : String} (lowers : Lowers runtime label right action)
    (reserved : isReserved name = true) (context : Context) :
    Ends context (storing name right) fun statements after =>
      context.reserved ⊆ after.reserved ∧
        Prepares (fun other => other ∈ context.reserved ∧ other ≠ name) []
          (runtime.execAll statements) (runtime.eval (.ofName name))
          (fun value other state =>
            value = other ∧ (Recall.temporary name).Holds runtime other state) action := by
  refine (lowers.stores reserved context).imp
    fun statements after ⟨grows, stores⟩ => ⟨grows, stores.keeps, by simp, ?_⟩
  rw [Runtime.eval_ofName]
  refine (stores.refines ()).followed fun _ other state ⟨value, isValue, same⟩ => ?_
  have found := State.lookup_of_temporary reserved isValue
  exact ⟨value, Runtime.load_run_of_bound found, same, same ▸ isValue⟩

theorem meansRecalled_temporary {name : String} (lowers : Lowers runtime label right action)
    (reserved : isReserved name = true) (different : name ≠ supportModule) :
    MeansRecalled runtime (.temporary name) (assigning name right) action := by
  intro context _
  rw [explicit_assigning]
  refine .touch fun touched same => ?_
  rw [← same]
  refine (storing_prepares lowers reserved touched).bind
    fun statements after ⟨grows, prepares⟩ => .pure ⟨grows, .temporary different trivial, ?_, ?_⟩
  · exact prepares.keeps.mono fun other kept => ⟨kept.1, by simpa [Recall.names] using kept.2⟩
  · exact fun _ => prepares.refines

/-! ## Single comparisons -/

theorem comparing_eq_supporting {op : CompareOp} (notIn : op ≠ .isIn ∧ op ≠ .notIn)
    (left right : Lowering Expr) :
    comparing op left right = (do touch; supporting op.function [left, right]) := by
  cases op with
  | isIn => exact absurd rfl notIn.1
  | notIn => exact absurd rfl notIn.2
  | _ => rfl

theorem explicit_comparing_kept {op : CompareOp} (notIn : op ≠ .isIn ∧ op ≠ .notIn) {kept : Expr}
    (stays : hoist kept = pure kept) (right : Lowering Expr) :
    explicit (comparing op (return kept) right) = (do
      Desugar.touch
      let (statements, value) ← explicit right
      return (statements, .supportCall op.function [kept, value])) := by
  rw [comparing_eq_supporting notIn, supporting, operands_kept stays]
  simp [explicit, touch, operands, operandsAfter]

theorem eval_comparison {op : CompareOp} (notIn : op ≠ .isIn ∧ op ≠ .notIn) (left right : Expr) :
    runtime.eval (.supportCall op.function [left, right]) = (do
      let left ← runtime.eval left
      let right ← runtime.eval right
      runtime.perform (.compare op) [left, right]) := by
  have found : (Expr.support op.function).operation? = some (.compare op) :=
    supportOperation?_compare notIn
  rw [Expr.supportCall, Expr.apply, runtime.eval_call_operation _ _ found]
  simp [Runtime.evalAll]

theorem comparison_residual {held : String → Prop} {op : CompareOp}
    (notIn : op ≠ .isIn ∧ op ≠ .notIn) {left right : Expr} (leftResidual : Residual held left)
    (rightResidual : Residual held right) :
    Residual held (.supportCall op.function [left, right]) := by
  refine .operation (supportOperation?_compare notIn) ?_
  simp only [List.forall_mem_cons]
  exact ⟨leftResidual, rightResidual, by simp⟩

/-- Comparing two values leaves the second one where it can be recalled. -/
theorem performed_recalls {next : Recall} (op : CompareOp) (left : Value) {last : Value}
    {state other : State Value} (world : state.world = other.world)
    (holds : next.Holds runtime last state) :
    Alike (Recalls runtime next) (runtime.perform (.compare op) [left, last] state)
      ((do
        let result ← runtime.perform (.compare op) [left, last]
        return (result, last)) other) := by
  have alike := (runtime.perform_respects (.compare op) [left, last]).matches state other world
    trivial
  have keeps : Keeps (fun _ => True) (runtime.perform (.compare op) [left, last]) :=
    runtime.perform_keeps _ _
  have unchanged := keeps state
  rcases ran : runtime.perform (.compare op) [left, last] state with ⟨reason | result, after⟩
  · rw [ran] at alike
    exact alike.stop
  · rw [ran] at alike unchanged
    obtain ⟨_, final, finalRan, world, rfl⟩ := alike.ok
    rw [run_bind_ok finalRan]
    exact ⟨world, rfl, runtime.isQuiet_of_perform ran,
      holds.congr fun name _ => unchanged name trivial⟩

/-- A comparison with an operand that is recalled. -/
theorem comparing_means {op : CompareOp} (notIn : op ≠ .isIn ∧ op ≠ .notIn) {recalled next : Recall}
    {kept : Expr} (gives : recalled.Gives kept)
    (means : MeansRecalled runtime next right action)
    (apart : ∀ name ∈ recalled.names, name ∉ next.names) :
    Means runtime (recalled.names ++ next.names) (comparing op (return kept) right)
      (recalled.Holds runtime) (Recalls runtime next) fun left => do
        let right ← action
        let result ← runtime.perform (.compare op) [left, right]
        return (result, right) := by
  intro context includes
  have nextIncluded : next.names ⊆ context.reserved := fun _ member => includes (by simp [member])
  rw [explicit_comparing_kept notIn gives.hoist_eq]
  refine .touch fun touched same => ?_
  rw [← same] at nextIncluded ⊢
  refine (means touched nextIncluded).bind
    fun (statements, value) after ⟨grows, residual, keeps, refines⟩ => .pure ⟨grows, ?_, ?_, ?_⟩
  · exact comparison_residual notIn gives.residual residual
  · exact keeps.mono fun name kept => ⟨kept.1, fun member => kept.2 (by simp [member])⟩
  · intro left start other world holds
    rw [eval_comparison notIn]
    have alike := refines () start other world trivial
    have unchanged := keeps start
    rcases ran : runtime.execAll statements start with ⟨reason | ⟨⟩, prepared⟩
    · rw [run_bind_error ran] at alike ⊢
      exact alike.stop
    rw [ran] at unchanged
    rw [run_bind_ok ran] at alike ⊢
    have available : recalled.Holds runtime left prepared := holds.congr fun name member =>
      unchanged name ⟨same ▸ includes (by simp [member]), apart name member⟩
    rw [run_bind_ok (gives.eval_run available)]
    refine alike.bind fun found last _ _ _ world ⟨equal, nextHolds⟩ => ?_
    subst equal
    exact performed_recalls op left world nextHolds

/-! ## First comparisons -/

variable {left : Lowering Expr} {leftLabel : Option String} {leftAction : Run Value Error Value}

/-- A run that gives a part of what another one gives is like it. -/
theorem refines_of_map {α : Type} {given : State Value → Prop} {part : β → α} {holds : β → Prop}
    {first : Run Value Error α} {second : Run Value Error β}
    (refines : Refines given Same first (do return part (← second)))
    (known : ∀ state value after, second state = (.ok value, after) → holds value) :
    Refines given (fun value other _ => value = part other ∧ holds other) first second := by
  intro start other world isGiven
  have alike := refines start other world isGiven
  rcases ran : second other with ⟨reason | found, final⟩
  · rw [run_bind_error ran] at alike
    rcases firstRan : first start with ⟨_ | value, after⟩ <;> rw [firstRan] at alike
    · exact alike
    · exact alike.elim
  · rw [run_bind_ok ran] at alike
    rcases firstRan : first start with ⟨_ | value, after⟩ <;> rw [firstRan] at alike
    · exact alike.elim
    · exact ⟨alike.1, alike.2, known other found final ran⟩

theorem comparing_lowers {op : CompareOp} (notIn : op ≠ .isIn ∧ op ≠ .notIn)
    (leftLowers : Lowers runtime leftLabel left leftAction)
    (rightLowers : Lowers runtime label right action) :
    Lowers runtime none (comparing op left right) (do
      let left ← leftAction
      let right ← action
      runtime.perform (.compare op) [left, right]) := by
  rw [comparing_eq_supporting notIn]
  exact (supporting_pair_lowers (supportOperation?_compare notIn) leftLowers rightLowers).touch

/-- The first comparison of a chain, with a right operand that is not stored. -/
theorem comparing_first_means {op : CompareOp} (notIn : op ≠ .isIn ∧ op ≠ .notIn) {next : Recall}
    (leftLowers : Lowers runtime leftLabel left leftAction)
    (rightLowers : Lowers runtime label right action)
    (recalled : ∀ state value after, action state = (.ok value, after) →
      ∀ other, next.Holds runtime value other) :
    Means runtime [] (comparing op left right) (fun (_ : Unit) _ => True) (Recalls runtime next)
      fun _ => do
        let left ← leftAction
        let right ← action
        let result ← runtime.perform (.compare op) [left, right]
        return (result, right) := by
  let pairs : Run Value Error (Value × Value) := do
    let left ← leftAction
    let right ← action
    let result ← runtime.perform (.compare op) [left, right]
    return (result, right)
  have lowers : Lowers runtime none (comparing op left right) (do return Prod.fst (← pairs)) := by
    simpa [pairs] using comparing_lowers notIn leftLowers rightLowers
  have means : Means runtime [] (comparing op left right) (fun (_ : Unit) _ => True) Same
      fun _ => do return Prod.fst (← pairs) := lowers.means [] _ fun _ _ => rfl
  have known : ∀ state pair after, pairs state = (.ok pair, after) →
      ∀ other, IsRecalled runtime next pair other := by
    intro state pair after ran other
    obtain ⟨_, _, _, ran⟩ := ok_of_run_bind ran
    obtain ⟨value, valued, valueRan, ran⟩ := ok_of_run_bind ran
    obtain ⟨_, _, performed, ran⟩ := ok_of_run_bind ran
    cases ran
    exact ⟨runtime.isQuiet_of_perform performed, recalled _ value valued valueRan other⟩
  intro context includes
  refine (means context includes).imp fun (statements, value) after
    ⟨grows, residual, keeps, refines⟩ => ⟨grows, residual, keeps, fun index => ?_⟩
  intro start other world isGiven
  exact (refines_of_map (refines index) known start other world isGiven).imp
    fun _ _ state ⟨same, all⟩ => ⟨same, all state⟩

theorem explicit_comparing_stored {op : CompareOp} (notIn : op ≠ .isIn ∧ op ≠ .notIn)
    (name : String) (left right : Lowering Expr) :
    explicit (comparing op left (assigning name right)) = (do
      Desugar.touch
      let (value, ahead) ← left.run []
      Desugar.touch
      let (saved, ahead) ← (hoist value).run ahead
      let front ← Deferred.runAll ahead
      let back ← storing name right
      return (front ++ back, .supportCall op.function [saved, .ofName name])) := by
  rw [comparing_eq_supporting notIn]
  simp [explicit, supporting, operands, operandsAfter, assigning, touch, emit, Deferred.runAll,
    Deferred.runAll_append]

/-- Two operands that are had, the second one where it can be recalled, are compared. -/
theorem compared_refines {op : CompareOp} (notIn : op ≠ .isIn ∧ op ≠ .notIn) {next : Recall}
    {body : Run Value Error Unit} {first second : Expr}
    (refines : Refines (fun _ => True)
      (Then fun value other state => value = other ∧ next.Holds runtime other state)
      (do
        body
        let left ← runtime.eval first
        let right ← runtime.eval second
        return (left, right))
      (do let left ← leftAction; let right ← action; return (left, right))) :
    Refines (fun _ => True) (Recalls runtime next)
      (do body; runtime.eval (.supportCall op.function [first, second]))
      (do
        let left ← leftAction
        let right ← action
        let result ← runtime.perform (.compare op) [left, right]
        return (result, right)) := by
  have operands : (do body; runtime.eval (.supportCall op.function [first, second])) = ((do
        body
        let left ← runtime.eval first
        let right ← runtime.eval second
        return (left, right)) >>= fun pair =>
      runtime.perform (.compare op) [pair.1, pair.2]) := by
    simp [eval_comparison notIn]
  have meaning : (do
        let left ← leftAction
        let right ← action
        let result ← runtime.perform (.compare op) [left, right]
        return (result, right)) = ((do
        let left ← leftAction
        let right ← action
        return (left, right)) >>= fun pair => do
      let result ← runtime.perform (.compare op) [pair.1, pair.2]
      return (result, pair.2)) := by
    simp
  rw [operands, meaning]
  refine refines.bind fun (left, right) (other, last) state final world valid => ?_
  obtain ⟨rfl, rfl, holds⟩ := valid
  exact performed_recalls op _ world holds

/-- The first comparison of a chain, with a right operand that is stored. -/
theorem comparing_stored_means {op : CompareOp} (notIn : op ≠ .isIn ∧ op ≠ .notIn) {name : String}
    (reserved : isReserved name = true) (different : name ≠ supportModule)
    (leftLowers : Lowers runtime leftLabel left leftAction)
    (rightLowers : Lowers runtime label right action) :
    Means runtime [name] (comparing op left (assigning name right)) (fun (_ : Unit) _ => True)
      (Recalls runtime (.temporary name)) fun _ => do
        let left ← leftAction
        let right ← action
        let result ← runtime.perform (.compare op) [left, right]
        return (result, right) := by
  intro context includes
  have isOld : name ∈ context.reserved := includes (by simp)
  rw [explicit_comparing_stored notIn]
  refine .touch fun touched same => ?_
  rw [← same] at isOld ⊢
  refine (leftLowers touched).bind fun (value, ahead) between ⟨held, residual, _, ready⟩ => ?_
  refine .touch fun again sameAgain => ?_
  rw [← sameAgain] at ready
  have heldKnown : held ⊆ again.reserved := fun other isHeld => (ready.taken other isHeld).taken
  refine (hoist_hoists runtime residual heldKnown).bind
    fun (saved, later) after ⟨gained, savedResidual, _, hoists⟩ => ?_
  obtain ⟨saves, rfl, saveKeeps, saveSaves⟩ := hoists.saves
  dsimp only
  rw [Deferred.runAll_append, Deferred.runAll_statements, bind_assoc]
  refine (ready.runs after hoists.grows).bind fun front between ⟨frontGrows, prepares⟩ => ?_
  rw [pure_bind, pure_bind]
  refine (storing_prepares rightLowers reserved between).bind
    fun back last ⟨backGrows, backPrepares⟩ => .pure ⟨?_, ?_, ?_⟩
  · exact fun _ found => backGrows (frontGrows (hoists.grows (ready.grows found)))
  · exact comparison_residual notIn (savedResidual.mono fun _ _ => trivial)
      (.temporary different trivial)
  have prepared : Prepares (fun other => other ∈ touched.reserved ∧ other ≠ name) _ _ _ _ _ :=
    prepares.hoisting saveKeeps saveSaves backPrepares
      (fun other isHeld isGained => (hoists.taken other isGained).new (heldKnown isHeld))
      (fun other known => ?_) fun other ⟨isOlder, isOther⟩ => ⟨?_, ?_, ?_⟩
  · have body : runtime.execAll (front ++ saves ++ back) = (do
        runtime.execAll front
        runtime.execAll saves
        runtime.execAll back) := by
      simp only [Runtime.execAll_append, bind_assoc]
    rw [body]
    exact ⟨prepared.keeps.mono fun other kept => ⟨kept.1, by simpa using kept.2⟩,
      fun _ => compared_refines notIn prepared.refines⟩
  · -- What is held for the left operand is new, so it is not the name of the right one.
    rcases known with isHeld | isGained
    · have isTaken := ready.taken other isHeld
      exact ⟨frontGrows (hoists.grows isTaken.taken), fun isName => isTaken.new (isName ▸ isOld)⟩
    · have isTaken := hoists.taken other isGained
      exact ⟨frontGrows isTaken.taken, fun isName => isTaken.new (ready.grows (isName ▸ isOld))⟩
  · exact ⟨hoists.grows (ready.grows isOlder), .inl isOlder⟩
  · exact fun isGained => (hoists.taken other isGained).new (ready.grows isOlder)
  · exact ⟨frontGrows (hoists.grows (ready.grows isOlder)), isOther⟩

/-! ## Chains -/

/-- Comparisons that follow one another, each from the operand that the one before it
left to be recalled. -/
inductive Follows (runtime : Runtime Value Error) (written : List String) :
    Recall → List (Lowering Expr) → List (Value → Run Value Error (Value × Value)) → Prop
  | nil (recalled : Recall) : Follows runtime written recalled [] []
  | cons {recalled next : Recall} {piece : Lowering Expr} {pieces : List (Lowering Expr)}
    {action : Value → Run Value Error (Value × Value)}
    {actions : List (Value → Run Value Error (Value × Value))}
    (included : next.names ⊆ written)
    (means : Means runtime written piece (recalled.Holds runtime) (Recalls runtime next) action)
    (rest : Follows runtime written next pieces actions) :
    Follows runtime written recalled (piece :: pieces) (action :: actions)

/-- What comparisons so far mean: their result, and if it counts as true an operand that
can be recalled. -/
def MeansSoFar (runtime : Runtime Value Error) (written : List String) (recalled : Recall)
    (lowering : Lowering Expr) (action : Run Value Error (Value × Value)) : Prop :=
  Means runtime written lowering (fun (_ : Unit) _ => True)
    (Reaches runtime .and Prod.fst (IsRecalled runtime recalled)) fun _ => action

variable {written : List String} {recalled next : Recall} {piece : Lowering Expr}
variable {pairs : Run Value Error (Value × Value)}
variable {follow : Value → Run Value Error (Value × Value)}

/-- A further comparison, in the form that a short circuit goes on with. -/
theorem Means.goingOn
    (means : Means runtime written piece (recalled.Holds runtime) (Recalls runtime next) follow) :
    Means runtime written piece (IsRecalled runtime recalled)
      (Reaches runtime .and Prod.fst (IsRecalled runtime next)) fun pair => follow pair.2 :=
  means.weaken (fun _ => id) Prod.snd (fun _ _ => And.right)
    fun _ _ _ recalls => ⟨recalls.1, .inl recalls.2⟩

theorem MeansSoFar.link {lowering : Lowering Expr}
    (soFar : MeansSoFar runtime written recalled lowering pairs)
    (known : recalled.names ⊆ written) (included : next.names ⊆ written)
    (means : Means runtime written piece (recalled.Holds runtime) (Recalls runtime next) follow) :
    MeansSoFar runtime written next (shortCircuit .and .unknown lowering piece)
      (link runtime pairs follow) :=
  shortCircuit_means .unknown soFar means.goingOn (isRecalled_stable written known)
    (isRecalled_stable written included) (isRecalled_settles recalled next)

/-- All comparisons of a chain, from the second one on. -/
theorem foldl_ready {pieces : List (Lowering Expr)}
    {actions : List (Value → Run Value Error (Value × Value))} {first : Lowering Expr}
    {context : Context} {before : List String}
    (soFar : MeansSoFar runtime written recalled first pairs) (known : recalled.names ⊆ written)
    (follows : Follows runtime written recalled pieces actions) (nonempty : pieces ≠ [])
    (old : before ⊆ context.reserved) (includes : written ⊆ context.reserved)
    (apart : ∀ name ∈ written, name ∉ before) :
    Ends context ((pieces.foldl (shortCircuit .and .unknown) first).run [])
      fun (value, ahead) after => ∃ held, Residual (· ∈ held) value ∧ value.label? = none ∧
        Ready runtime before after.reserved ahead held (runtime.eval value) Same
          (do return Prod.fst (← actions.foldl (link runtime) pairs)) := by
  induction follows generalizing first pairs with
  | nil => exact absurd rfl nonempty
  | cons included means rest induction =>
    cases rest with
    | nil =>
      refine (shortCircuit_ready .unknown soFar means.goingOn (isRecalled_stable written known)
        (isRecalled_stable written included) (isRecalled_settles _ _) old includes apart).imp
          fun (value, ahead) after ⟨result, isResult, different, _, ready⟩ => ?_
      subst isResult
      refine ⟨[result], .temporary different (by simp), rfl, ?_⟩
      have first := ready.map Same id Prod.fst fun _ _ _ reaches => reaches.1
      simpa only [id, bind_pure, List.foldl_cons, List.foldl_nil, Lowering.link] using first
    | cons nextIncluded nextMeans more =>
      have rest := induction (soFar.link known included means) included (by simp)
      simpa only [List.foldl_cons] using rest

/-- An operand of a chain of comparisons, with its comparison and its lowering. -/
structure IsComparand (runtime : Runtime Value Error) (op : CompareOp) (operand : Expr)
    (right : Lowering Expr) : Prop where
  notIn : op ≠ .isIn ∧ op ≠ .notIn
  lowers : ∃ label, Lowers runtime label right (runtime.eval operand)
  literal : operand.isReusable = true → ∃ position raw value,
    operand = .literal position raw value ∧ right = return .literal position raw value

/-- The operands of a chain of comparisons that are left, as lowering is given them. -/
abbrev Comparands := List (CompareOp × Expr × Lowering Expr)

/-- What the rest of a chain means, one comparison after the other. -/
def Comparands.actions (runtime : Runtime Value Error) (items : Comparands) :
    List (Value → Run Value Error (Value × Value)) :=
  items.map fun item => compared runtime item.1 item.2.1

/-- What lowering the rest of a chain gives: comparisons that follow one another. -/
def FollowsFrom (runtime : Runtime Value Error) (recalled : Recall) (items : Comparands)
    (context : Context) (ahead : List Deferred) :
    List (Lowering Expr) × List Deferred → Context → Prop :=
  fun (pieces, later) after => later = ahead ∧ context.reserved ⊆ after.reserved ∧
    pieces.length = items.length ∧ ∃ stored,
      (∀ name ∈ stored, IsTaken context.reserved after.reserved name) ∧
      ∀ written, recalled.names ⊆ written → stored ⊆ written →
        Follows runtime written recalled pieces (items.actions runtime)

theorem Follows.comparing {op : CompareOp} {operand kept : Expr} {pieces : List (Lowering Expr)}
    {actions : List (Value → Run Value Error (Value × Value))}
    (notIn : op ≠ .isIn ∧ op ≠ .notIn) (gives : recalled.Gives kept)
    (means : MeansRecalled runtime next right (runtime.eval operand))
    (apart : ∀ name ∈ recalled.names, name ∉ next.names) (known : recalled.names ⊆ written)
    (included : next.names ⊆ written) (rest : Follows runtime written next pieces actions) :
    Follows runtime written recalled (comparing op (return kept) right :: pieces)
      (compared runtime op operand :: actions) :=
  .cons included ((comparing_means notIn gives means apart).weaken
    (List.append_subset.mpr ⟨known, included⟩) id (fun _ _ => id) fun _ _ _ => id) rest

theorem chain_follows {kept : Expr} {items : Comparands} {context : Context}
    {ahead : List Deferred} (gives : recalled.Gives kept)
    (each : ∀ item ∈ items, IsComparand runtime item.1 item.2.1 item.2.2)
    (known : recalled.names ⊆ context.reserved) :
    Ends context ((chain (return kept) items).run ahead)
      (FollowsFrom runtime recalled items context ahead) := by
  -- Each comparison recalls the operand that the one before it kept, so what is recalled
  -- changes from step to step.
  induction items generalizing recalled kept context with
  | nil => exact .pure ⟨rfl, fun _ => id, rfl, [], by simp, fun _ _ _ => .nil recalled⟩
  | cons item items induction =>
    obtain ⟨op, operand, right⟩ := item
    obtain ⟨notIn, ⟨label, lowers⟩, literal⟩ := each (op, operand, right) (by simp)
    have eachRest : ∀ item ∈ items, IsComparand runtime item.1 item.2.1 item.2.2 :=
      fun item member => each item (by simp [member])
    cases items with
    | nil =>
      refine .pure ⟨rfl, fun _ => id, rfl, [], by simp, fun written included _ => ?_⟩
      exact .comparing notIn gives (meansRecalled_nothing lowers) (by simp) included (by simp)
        (.nil _)
    | cons item items =>
      unfold chain
      split
      · rename_i reusable
        obtain ⟨position, raw, value, rfl, rfl⟩ := literal reusable
        refine ends_bind (induction (.literal position raw value) eachRest (by simp))
          fun pieces later after ⟨sameAhead, grows, length, stored, taken, follows⟩ => .pure ?_
        refine ⟨sameAhead, grows, by simp [length], stored, taken, fun written included more => ?_⟩
        exact .comparing notIn gives (meansRecalled_literal runtime position raw value) (by simp)
          included (by simp) (follows written (by simp) more)
      · refine ends_fresh fun name between isTaken reserved => ?_
        refine ends_bind (induction (.temporary isTaken.reserved isTaken.notSupport) eachRest
          (by simp [isTaken.taken]))
          fun pieces later after ⟨sameAhead, grows, length, stored, taken, follows⟩ => .pure ?_
        have older : context.reserved ⊆ between.reserved := by simp [reserved]
        refine ⟨sameAhead, fun _ found => grows (older found), by simp [length], name :: stored,
          isTaken.forall_cons older grows taken, fun written included more => ?_⟩
        have nameWritten : [name] ⊆ written := fun _ member => more (by simp_all)
        refine .comparing notIn gives
          (meansRecalled_temporary lowers isTaken.reserved isTaken.notSupport) ?_ included
          nameWritten (follows written nameWritten fun _ member => more (by simp [member]))
        intro other isRecalled member
        exact isTaken.new (List.mem_singleton.mp member ▸ known isRecalled)

theorem foldl_link_bind {α : Type} (first : Run Value Error α)
    (goOn : α → Run Value Error (Value × Value))
    (rest : List (Value → Run Value Error (Value × Value))) :
    rest.foldl (link runtime) (first >>= goOn) =
      first >>= fun value => rest.foldl (link runtime) (goOn value) := by
  induction rest generalizing goOn with
  | nil => rfl
  | cons next rest induction =>
    have linked : link runtime (first >>= goOn) next =
        first >>= fun value => link runtime (goOn value) next := by
      simp only [link, circuit, bind_assoc]
    rw [List.foldl_cons, linked, induction]
    rfl

/-- A chain of at least two comparisons begins with one from its first operand. -/
theorem chain_begins {op : CompareOp} {operand : Expr} {next : CompareOp × Expr × Lowering Expr}
    {items : Comparands} {context : Context}
    (leftLowers : Lowers runtime leftLabel left leftAction)
    (comparand : IsComparand runtime op operand right)
    (each : ∀ item ∈ next :: items, IsComparand runtime item.1 item.2.1 item.2.2) :
    Ends context ((chain left ((op, operand, right) :: next :: items)).run [])
      fun (pieces, later) after => later = [] ∧ context.reserved ⊆ after.reserved ∧
        ∃ first rest recalled stored, pieces = first :: rest ∧ rest ≠ [] ∧
          (∀ name ∈ stored, IsTaken context.reserved after.reserved name) ∧
          recalled.names ⊆ stored ∧
          MeansSoFar runtime stored recalled first (leftAction >>= compared runtime op operand) ∧
          Follows runtime stored recalled rest (Comparands.actions runtime (next :: items)) := by
  obtain ⟨notIn, ⟨label, lowers⟩, literal⟩ := comparand
  have soFar : ∀ {first : Lowering Expr} {recalled : Recall} {written stored : List String},
      Means runtime written first (fun (_ : Unit) _ => True) (Recalls runtime recalled)
        (fun _ => leftAction >>= compared runtime op operand) → written ⊆ stored →
      MeansSoFar runtime stored recalled first (leftAction >>= compared runtime op operand) :=
    fun means includes => means.weaken includes id (fun _ _ => id)
      fun _ _ _ recalls => ⟨recalls.1, .inl recalls.2⟩
  unfold chain
  split
  · rename_i reusable
    obtain ⟨position, raw, value, rfl, rfl⟩ := literal reusable
    refine ends_bind (chain_follows (.literal position raw value) each (by simp))
      fun pieces later after ⟨sameAhead, grows, length, stored, taken, follows⟩ => .pure ?_
    refine ⟨sameAhead, grows, _, pieces, .literal position raw value, stored, rfl, ?_, taken,
      by simp, soFar (comparing_first_means notIn leftLowers lowers ?_) (by simp),
      follows stored (by simp) fun _ => id⟩
    · exact List.ne_nil_of_length_pos (by simp [length])
    · intro state found after ran other
      simp only [Runtime.eval] at ran
      cases ran
      rfl
  · refine ends_fresh fun name between isTaken reserved => ?_
    refine ends_bind (chain_follows (.temporary isTaken.reserved isTaken.notSupport) each
      (by simp [isTaken.taken]))
      fun pieces later after ⟨sameAhead, grows, length, stored, taken, follows⟩ => .pure ?_
    have older : context.reserved ⊆ between.reserved := by simp [reserved]
    exact ⟨sameAhead, fun _ found => grows (older found), _, pieces, .temporary name,
      name :: stored, rfl, List.ne_nil_of_length_pos (by simp [length]),
      isTaken.forall_cons older grows taken, by simp,
      soFar (comparing_stored_means notIn isTaken.reserved isTaken.notSupport leftLowers lowers)
        (by simp),
      follows _ (by simp) (by simp)⟩

/-- A chain of comparisons means its comparisons one after the other, as long as they
hold. -/
theorem chained_lowers {op : CompareOp} {operand : Expr} {items : Comparands}
    (leftLowers : Lowers runtime leftLabel left leftAction)
    (comparand : IsComparand runtime op operand right)
    (each : ∀ item ∈ items, IsComparand runtime item.1 item.2.1 item.2.2) :
    Lowers runtime none (chained left ((op, operand, right) :: items)) (do
      let left ← leftAction
      return Prod.fst (← (items.actions runtime).foldl (link runtime)
        (compared runtime op operand left))) := by
  cases items with
  | nil =>
    obtain ⟨notIn, ⟨label, lowers⟩, -⟩ := comparand
    have single : chained left [(op, operand, right)] = comparing op left right := by
      simp [chained, chain]
    rw [single]
    simpa [Comparands.actions, compared] using comparing_lowers notIn leftLowers lowers
  | cons item items =>
    intro context
    refine ends_bind (chain_begins leftLowers comparand each)
      fun pieces later after ⟨sameAhead, grows, first, rest, recalled, stored, isPieces, nonempty,
        taken, recallStored, soFar, follows⟩ => ?_
    subst sameAhead isPieces
    have ready := foldl_ready soFar recallStored follows nonempty grows
      (fun name member => (taken name member).taken) fun name member => (taken name member).new
    simpa only [foldl_link_bind, bind_assoc] using ready

end Lowering
end Unsugar
