import Unsugar.Proofs.Evaluation.Agreement

/-! Residuals: what is left of an expression once the statements ahead of it are set
aside. A residual binds no name, and of the temporaries it reads those alone that
are held for it. -/

namespace Unsugar

open Run

variable {Value Error : Type} (runtime : Runtime Value Error)

inductive Residual (held : String → Prop) : Expr → Prop
  | user {position : Position} {id : String} (user : isReserved id = false) :
    Residual held (.name position id)
  | temporary {position : Position} {id : String} (different : id ≠ supportModule)
    (isHeld : held id) : Residual held (.name position id)
  | literal {position : Position} {raw : String} {value : Constant} :
    Residual held (.literal position raw value)
  | operation {callee : Expr} {arguments : List Expr} {closing : Position} {operation : Operation}
    (found : callee.operation? = some operation)
    (each : ∀ argument ∈ arguments, Residual held argument) :
    Residual held (.call callee arguments closing)
  | call {callee : Expr} {arguments : List Expr} {closing : Position}
    (function : Residual held callee) (each : ∀ argument ∈ arguments, Residual held argument) :
    Residual held (.call callee arguments closing)
  | keyword {position : Position} {id : String} {value : Expr} (inner : Residual held value) :
    Residual held (.keyword position id value)
  | member {object : Expr} {position : Position} {id : String} (inner : Residual held object) :
    Residual held (.member object position id)
  | list {opening closing : Position} {items : List Expr}
    (each : ∀ item ∈ items, Residual held item) : Residual held (.list opening items closing)
  | tuple {opening closing : Position} {items : List Expr}
    (each : ∀ item ∈ items, Residual held item) : Residual held (.tuple opening items closing)
  | set {opening closing : Position} {items : List Expr}
    (each : ∀ item ∈ items, Residual held item) : Residual held (.set opening items closing)
  | dict {opening closing : Position} {items : List Expr}
    (each : ∀ item ∈ items, Residual held item) : Residual held (.dict opening items closing)
  | entry {key value : Expr} (first : Residual held key) (second : Residual held value) :
    Residual held (.entry key value)

namespace Residual

variable {held more : String → Prop} {expr : Expr}

theorem mono (residual : Residual held expr) (implies : ∀ name, held name → more name) :
    Residual more expr := by
  induction residual with
  | user user => exact .user user
  | temporary different isHeld => exact .temporary different (implies _ isHeld)
  | literal => exact .literal
  | operation found _ each => exact .operation found each
  | call _ _ function each => exact .call function each
  | keyword _ inner => exact .keyword inner
  | member _ inner => exact .member inner
  | list _ each => exact .list each
  | tuple _ each => exact .tuple each
  | set _ each => exact .set each
  | dict _ each => exact .dict each
  | entry _ _ first second => exact .entry first second

/-- A residual has a value, so it is not a part of the support module. -/
theorem isSupportPath (residual : Residual held expr) : expr.isSupportPath = false := by
  induction residual with
  | user user =>
    have different : _ ≠ supportModule := ne_of_isReserved user (by decide)
    simpa [Expr.isSupportPath] using different
  | temporary different _ => simpa [Expr.isSupportPath] using different
  | member _ inner => exact inner
  | _ => rfl

theorem operation?_eq_none (residual : Residual held expr) : expr.operation? = none := by
  have noPath := residual.isSupportPath
  unfold Expr.operation?
  split
  · simp_all [Expr.isSupportPath]
  · simp_all [Expr.isSupportPath]
  · rfl

end Residual

namespace Runtime

variable {held tracked kept : String → Prop} {expr : Expr}

/-! ## Lists -/

theorem evalAll_singleton (expr : Expr) :
    runtime.evalAll [expr] = (do return [← runtime.eval expr]) := by
  simp [evalAll]

theorem evalAll_append (front back : List Expr) :
    runtime.evalAll (front ++ back) =
      (do let values ← runtime.evalAll front; return values ++ (← runtime.evalAll back)) := by
  induction front with
  | nil => simp [evalAll]
  | cons first rest induction => simp [evalAll, induction]

theorem execAll_append (front back : List Stmt) :
    runtime.execAll (front ++ back) =
      (do runtime.execAll front; runtime.execAll back) := by
  induction front with
  | nil => simp [execAll]
  | cons first rest induction => simp [execAll, induction]

/-! ## Names -/

theorem eval_ofName (name : String) : runtime.eval (.ofName name) = load name := by
  simp [eval, Expr.ofName]

theorem execAll_store (name : String) (value : Expr) :
    runtime.execAll [.store name value] = (do store name (← runtime.eval value)) := by
  simp [execAll, exec, Stmt.store, Expr.ofName]

/-! ## Calls -/

theorem eval_call_operation {callee : Expr} {operation : Operation} (arguments : List Expr)
    (closing : Position) (found : callee.operation? = some operation) :
    runtime.eval (.call callee arguments closing) =
      (do runtime.perform operation (← runtime.evalAll arguments)) := by
  simp [eval, found]

theorem eval_call {callee : Expr} (arguments : List Expr) (closing : Position)
    (residual : Residual held callee) :
    runtime.eval (.call callee arguments closing) = (do
      runtime.perform (.call (arguments.map Expr.label?))
        (← runtime.evalAll (callee :: arguments))) := by
  simp [eval, evalAll, residual.operation?_eq_none]

/-! ## Runs of residuals and of simple expressions -/

/-- A property of runs that holds of all that is put together from operations. -/
structure Closed (holds : {α : Type} → Run Value Error α → Prop) : Prop where
  pure : ∀ {α : Type} (value : α), holds (Pure.pure value)
  bind : ∀ {α β : Type} {action : Run Value Error α} {next : α → Run Value Error β},
    holds action → (∀ value, holds (next value)) → holds (action >>= next)
  test : ∀ value, holds (runtime.test value)
  perform : ∀ operation operands, holds (runtime.perform operation operands)

theorem closed_respects :
    runtime.Closed fun action => Respects tracked action where
  pure := .pure
  bind := .bind
  test := runtime.test_respects
  perform := runtime.perform_respects

theorem closed_keeps : runtime.Closed fun action => Keeps kept action where
  pure := .pure
  bind := .bind
  test := runtime.test_keeps
  perform := runtime.perform_keeps

section Closed

variable {runtime} {holds : {α : Type} → Run Value Error α → Prop}
variable (closed : runtime.Closed holds)
include closed

theorem Closed.evalAll {items : List Expr} (each : ∀ item ∈ items, holds (runtime.eval item)) :
    holds (runtime.evalAll items) := by
  induction items with
  | nil => exact closed.pure _
  | cons first rest induction =>
    unfold Runtime.evalAll
    refine closed.bind (each first (by simp)) fun _ => ?_
    exact closed.bind (induction fun item member => each item (by simp [member])) fun _ =>
      closed.pure _

theorem Closed.eval_residual (loads : ∀ name, (isReserved name = true → held name) →
    holds (load name)) (residual : Residual held expr) : holds (runtime.eval expr) := by
  induction residual with
  | user user =>
    unfold Runtime.eval
    exact loads _ fun reserved => by simp [user] at reserved
  | temporary _ isHeld =>
    unfold Runtime.eval
    exact loads _ fun _ => isHeld
  | literal =>
    unfold Runtime.eval
    exact closed.pure _
  | operation found _ each =>
    rw [eval_call_operation _ _ _ found]
    exact closed.bind (closed.evalAll each) fun _ => closed.perform _ _
  | call function _ function_holds each =>
    rw [eval_call _ _ _ function]
    refine closed.bind (closed.evalAll fun item member => ?_) fun _ => closed.perform _ _
    rcases List.mem_cons.mp member with rfl | member
    · exact function_holds
    · exact each item member
  | keyword _ inner =>
    unfold Runtime.eval
    exact inner
  | member _ inner =>
    unfold Runtime.eval
    exact closed.bind inner fun _ => closed.perform _ _
  | list _ each | set _ each | dict _ each =>
    unfold Runtime.eval
    exact closed.bind (closed.evalAll each) fun _ => closed.perform _ _
  | tuple _ each =>
    unfold Runtime.eval
    exact closed.bind (closed.evalAll each) fun _ => closed.pure _
  | entry _ _ first second =>
    unfold Runtime.eval
    exact closed.bind first fun _ => closed.bind second fun _ => closed.pure _

end Closed

/-- The value of a residual depends on the temporaries held for it alone. -/
theorem eval_respects (residual : Residual held expr)
    (each_tracked : ∀ name, held name → tracked name) :
    Respects tracked (runtime.eval expr) :=
  runtime.closed_respects.eval_residual
    (fun _ visible => load_respects fun reserved => each_tracked _ (visible reserved)) residual

/-- Evaluating a residual changes no temporary. -/
theorem eval_keeps (residual : Residual held expr) : Keeps kept (runtime.eval expr) :=
  runtime.closed_keeps.eval_residual (fun _ _ => load_keeps _) residual

end Runtime
end Unsugar
