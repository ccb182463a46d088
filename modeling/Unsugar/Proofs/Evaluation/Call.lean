import Unsugar.Lowering.Expression
import Unsugar.Proofs.Evaluation.Preparation

/-! Calls, operators and displays. Lowered, they are put together from the residuals of
their operands, and they mean what the operands mean, followed by one operation. -/

namespace Unsugar
namespace Lowering

open Run
open Desugar (Ends)

variable {Value Error : Type} {runtime : Runtime Value Error}
variable {label : Option String} {lowering : Lowering Expr} {action : Run Value Error Value}
variable {items : List (Operand Value Error)}

/-! ## Rules -/

theorem Lowers.residual {value : Expr} (residual : Residual (· ∈ []) value) :
    Lowers runtime value.label? (return value) (runtime.eval value) := by
  intro context
  refine .pure ⟨[], residual, rfl, .nothing ?_⟩
  exact (runtime.eval_respects residual (by simp)).matches

theorem Lowers.touch (lowers : Lowers runtime label lowering action) :
    Lowers runtime label (do touch; lowering) action := by
  intro context
  refine ends_touch fun after same => ?_
  rw [← same]
  exact lowers after

/-- What is put together from residuals means what they mean, and what follows. -/
theorem LowersAll.build {labels : List (Option String)} {lowering : Lowering (List Expr)}
    {action : Run Value Error (List Value)} (lowers : LowersAll runtime labels lowering action)
    (build : List Expr → Expr) (finish : List Value → Run Value Error Value)
    (built : ∀ {held : String → Prop} {values : List Expr},
      (∀ value ∈ values, Residual held value) → values.map Expr.label? = labels →
      Residual held (build values) ∧ (build values).label? = label ∧
        runtime.eval (build values) = runtime.evalAll values >>= finish)
    (respects : ∀ values, Respects (fun _ => False) (finish values)) :
    Lowers runtime label (do return build (← lowering)) (action >>= finish) := by
  intro context
  refine ends_bind (lowers context)
    fun values ahead after ⟨held, residuals, labels, ready⟩ => .pure ?_
  obtain ⟨residual, builtLabel, meaning⟩ := built residuals labels
  refine ⟨held, residual, builtLabel, ?_⟩
  rw [meaning]
  exact ready.bind fun value other left right world same =>
    same ▸ (respects value).matches left right world trivial

/-! ## Functions of the support module -/

theorem operation?_support (id : String) :
    (Expr.support id).operation? = supportOperation? id := rfl

theorem operation?_builtin (id : String) :
    (Expr.builtin id).operation? = builtinOperation? id := rfl

theorem applied_lowers {callee : Expr} {operation : Operation}
    (found : callee.operation? = some operation)
    (each : ∀ operand ∈ items, Lowers runtime operand.label operand.lowering operand.action) :
    Lowers runtime none
      (do return .apply callee (← operands (items.map Operand.lowering)))
      (do runtime.perform operation (← items.mapM Operand.action)) :=
  (operands_lowers each).build _ _
    (fun residuals _ => ⟨.operation found residuals, rfl, runtime.eval_call_operation _ _ found⟩)
    fun _ => runtime.perform_respects _ _

theorem supportOperation?_getattr : supportOperation? "getattr" = some .member := rfl

theorem supporting_lowers {id : String} {operation : Operation}
    (found : supportOperation? id = some operation)
    (each : ∀ operand ∈ items, Lowers runtime operand.label operand.lowering operand.action) :
    Lowers runtime none (supporting id (items.map Operand.lowering))
      (do runtime.perform operation (← items.mapM Operand.action)) :=
  applied_lowers (operation?_support id ▸ found) each

theorem supporting_pair_lowers {id : String} {operation : Operation}
    {second : Lowering Expr} {secondLabel : Option String} {secondAction : Run Value Error Value}
    (found : supportOperation? id = some operation)
    (firstLowers : Lowers runtime label lowering action)
    (secondLowers : Lowers runtime secondLabel second secondAction) :
    Lowers runtime none (supporting id [lowering, second]) (do
      let first ← action
      let second ← secondAction
      runtime.perform operation [first, second]) := by
  have each : ∀ operand ∈ [⟨lowering, label, action⟩,
        (⟨second, secondLabel, secondAction⟩ : Operand Value Error)],
      Lowers runtime operand.label operand.lowering operand.action := by
    simp only [List.forall_mem_cons]
    exact ⟨firstLowers, secondLowers, by simp⟩
  simpa [List.mapM_cons] using supporting_lowers found each

/-- An operand that hoisting leaves alone stays in front of the others. -/
theorem operandsAfter_kept {kept : Expr} (stays : hoist kept = pure kept) (done : List Expr)
    (rest : List (Lowering Expr)) :
    operandsAfter (kept :: done) rest = (do return kept :: (← operandsAfter done rest)) := by
  induction rest generalizing done with
  | nil => simp [operandsAfter]
  | cons first rest induction =>
    simp only [operandsAfter_cons, bind_assoc]
    refine bind_congr fun found => ?_
    obtain ⟨value, ahead⟩ := found
    cases ahead with
    | nil => simp [← induction]
    | cons => simp [List.mapM_cons, stays, ← induction]

theorem operands_kept {kept : Expr} (stays : hoist kept = pure kept)
    (rest : List (Lowering Expr)) :
    operands (pure kept :: rest) = (do return kept :: (← operands rest)) := by
  rw [operands, operandsAfter_cons, operands, ← operandsAfter_kept stays]
  refine StateT.ext fun ahead => ?_
  simp

theorem applying_builtin_lowers {id : String} {operation : Operation}
    (found : builtinOperation? id = some operation)
    (each : ∀ operand ∈ items, Lowers runtime operand.label operand.lowering operand.action) :
    Lowers runtime none (applying (return .builtin id) (items.map Operand.lowering))
      (do runtime.perform operation (← items.mapM Operand.action)) := by
  have calleeStays : applying (return .builtin id) (items.map Operand.lowering) =
      (do return .apply (.builtin id) (← operands (items.map Operand.lowering))) := by
    rw [applying, operands_kept rfl]
    simp
  rw [calleeStays]
  exact applied_lowers (operation?_builtin id ▸ found) each

/-! ## Calls -/

theorem call_lowers {callee : Operand Value Error} (closing : Position)
    (each : ∀ operand ∈ callee :: items,
      Lowers runtime operand.label operand.lowering operand.action) :
    Lowers runtime none
      (do match ← operands (callee.lowering :: items.map Operand.lowering) with
        | callee :: arguments => return .call callee arguments closing
        | [] => return .absent)
      (do
        let values ← (callee :: items).mapM Operand.action
        runtime.perform (.call (items.map Operand.label)) values) := by
  let build : List Expr → Expr
    | callee :: arguments => .call callee arguments closing
    | [] => .absent
  have builds : (do match ← operands (callee.lowering :: items.map Operand.lowering) with
        | callee :: arguments => return .call callee arguments closing
        | [] => return .absent) =
      (do return build (← operands ((callee :: items).map Operand.lowering))) := by
    refine bind_congr fun values => ?_
    cases values <;> rfl
  rw [builds]
  refine (operands_lowers each).build build _ (fun {held values} residuals labels => ?_)
    fun _ => runtime.perform_respects _ _
  cases values with
  | nil => simp at labels
  | cons function arguments =>
    simp only [List.map_cons, List.cons.injEq] at labels
    have functionResidual := residuals function (by simp)
    refine ⟨.call functionResidual fun argument member => residuals argument (by simp [member]),
      rfl, ?_⟩
    rw [runtime.eval_call arguments closing functionResidual, labels.2]

theorem applying_lowers {callee : Operand Value Error}
    (each : ∀ operand ∈ callee :: items,
      Lowers runtime operand.label operand.lowering operand.action) :
    Lowers runtime none (applying callee.lowering (items.map Operand.lowering)) (do
      let values ← (callee :: items).mapM Operand.action
      runtime.perform (.call (items.map Operand.label)) values) :=
  call_lowers .unknown each

/-! ## Parts of an expression -/

theorem keyword_lowers (position : Position) (id : String)
    (lowers : Lowers runtime label lowering action) :
    Lowers runtime (some id) (do return .keyword position id (← lowering)) action := by
  intro context
  refine ends_bind (lowers context) fun value ahead after ⟨held, residual, _, ready⟩ => .pure ?_
  refine ⟨held, .keyword residual, rfl, ?_⟩
  simpa only [Runtime.eval] using ready

theorem entry_lowers {key value : Operand Value Error}
    (each : ∀ operand ∈ [key, value],
      Lowers runtime operand.label operand.lowering operand.action) :
    Lowers runtime none
      (do match ← operands [key.lowering, value.lowering] with
        | [key, value] => return .entry key value
        | _ => return .absent)
      (do let key ← key.action; let value ← value.action; return runtime.tuple [key, value]) := by
  let build : List Expr → Expr
    | [key, value] => .entry key value
    | _ => .absent
  have builds : (do match ← operands [key.lowering, value.lowering] with
        | [key, value] => return .entry key value
        | _ => return .absent) =
      (do return build (← operands ([key, value].map Operand.lowering))) := by
    refine bind_congr fun values => ?_
    rcases values with _ | ⟨_, _ | ⟨_, _ | _⟩⟩ <;> rfl
  have meaning : (do
        let key ← key.action
        let value ← value.action
        return runtime.tuple [key, value] : Run Value Error Value) =
      (do return runtime.tuple (← [key, value].mapM Operand.action)) := by
    simp [List.mapM_cons]
  rw [builds, meaning]
  refine (operands_lowers each).build build _ (fun {held values} residuals labels => ?_)
    fun _ => .pure _
  obtain ⟨first, second, rfl⟩ := List.length_eq_two.mp (by simpa using congrArg List.length labels)
  refine ⟨.entry (residuals first (by simp)) (residuals second (by simp)), rfl, ?_⟩
  simp [build, Runtime.eval, Runtime.evalAll]

/-! ## Displays -/

theorem tuple_lowers (opening closing : Position)
    (each : ∀ operand ∈ items, Lowers runtime operand.label operand.lowering operand.action) :
    Lowers runtime none
      (do return .tuple opening (← operands (items.map Operand.lowering)) closing)
      (do return runtime.tuple (← items.mapM Operand.action)) :=
  (operands_lowers each).build _ _
    (fun residuals _ => ⟨.tuple residuals, rfl, by simp only [Runtime.eval]⟩) fun _ => .pure _

/-- A display that is built by one operation. -/
theorem display_lowers {operation : Operation} (build : List Expr → Expr)
    (built : ∀ {held : String → Prop} {values : List Expr},
      (∀ value ∈ values, Residual held value) →
      Residual held (build values) ∧ (build values).label? = none ∧ runtime.eval (build values) =
        (do runtime.perform operation (← runtime.evalAll values)))
    (each : ∀ operand ∈ items, Lowers runtime operand.label operand.lowering operand.action) :
    Lowers runtime none (do return build (← operands (items.map Operand.lowering)))
      (do runtime.perform operation (← items.mapM Operand.action)) :=
  (operands_lowers each).build build _ (fun residuals _ => built residuals)
    fun _ => runtime.perform_respects _ _

/-! ## Attributes -/

theorem memberOf_lowers (env : Env) (object : Expr) (position : Position) (id : String)
    (lowers : Lowers runtime label lowering action) :
    Lowers runtime none (memberOf env object position id lowering) (do
      let object ← action
      runtime.perform .member [object, runtime.constant (.text id)]) := by
  unfold memberOf
  split
  · have name : Lowers runtime none (return .ofText id) (runtime.eval (.ofText id)) :=
      .residual .literal
    have supported := (supporting_pair_lowers supportOperation?_getattr lowers name).touch
    simpa [Runtime.eval, Expr.ofText] using supported
  · intro context
    refine ends_bind (lowers context) fun value ahead after ⟨held, residual, _, ready⟩ => .pure ?_
    refine ⟨held, .member residual, rfl, ?_⟩
    simp only [Runtime.eval]
    exact ready.bind fun value other left right world same =>
      same ▸ (runtime.perform_respects _ _).matches left right world trivial

end Lowering
end Unsugar
