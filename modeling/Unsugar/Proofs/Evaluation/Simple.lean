import Unsugar.Proofs.Evaluation.Residual

/-! Simple expressions have a meaning: whatever operations answer, they end with a value,
with an error that an operation raised, or at a name that is not bound. -/

namespace Unsugar

open Run

variable {Value Error : Type}

namespace Expr

variable {expr : Expr}

theorem areSimple_iff {items : List Expr} :
    areSimple items = true ↔ ∀ item ∈ items, item.isSimple = true := by
  induction items with
  | nil => simp [areSimple]
  | cons first rest induction => simp [areSimple, induction]

theorem operation?_of_isSimple (simple : expr.isSimple = true) : expr.operation? = none := by
  have supportReserved : isReserved supportModule = true := by decide
  unfold operation?
  split
  · rename_i id _ _
    have user : isReserved id = false := by simpa [isSimple] using simple
    simp [ne_of_isReserved user supportReserved]
  · rename_i id _ _ _ _
    have user : isReserved id = false := by simpa [isSimple] using simple
    simp [ne_of_isReserved user supportReserved]
  · rfl

theorem literal_of_isReusable (simple : expr.isSimple = true)
    (reusable : expr.isReusable = true) :
    ∃ position raw value, expr = literal position raw value := by
  cases expr with
  | name position id => simp_all [isSimple, isReusable]
  | literal position raw value => exact ⟨position, raw, value, rfl⟩
  | _ => simp [isReusable] at reusable

end Expr

namespace Runtime

variable {runtime : Runtime Value Error} {holds : {α : Type} → Run Value Error α → Prop}

theorem Closed.evalChain (closed : runtime.Closed holds) {ops : List CompareOp}
    {rights : List Expr} (sameLength : ops.length = rights.length) (nonempty : ops ≠ [])
    (each : ∀ right ∈ rights, holds (runtime.eval right)) (left : Value) :
    holds (runtime.evalChain left ops rights) := by
  induction rights generalizing ops left with
  | nil => exact absurd (List.eq_nil_of_length_eq_zero sameLength) nonempty
  | cons right rights induction =>
    have first := each right (by simp)
    match ops, rights with
    | [op], [] =>
      rw [Runtime.evalChain]
      exact closed.bind first fun _ => closed.perform _ _
    | op :: next :: ops, second :: rights =>
      rw [Runtime.evalChain]
      · refine closed.bind first fun value => closed.bind (closed.perform _ _) fun result => ?_
        refine closed.bind (closed.test result) fun holds => ?_
        cases holds with
        | false => exact closed.pure _
        | true =>
          exact induction (by simpa using sameLength) (by simp)
            (fun item member => each item (by simp [member])) value
      · simp

mutual

theorem Closed.eval (closed : runtime.Closed holds) (loads : ∀ name, holds (load name))
    (stores : ∀ name value, holds (store name value)) :
    ∀ expr : Expr, expr.isSimple = true → holds (runtime.eval expr)
  | .name .., _ => by
    rw [Runtime.eval]
    exact loads _
  | .literal .., _ => by
    rw [Runtime.eval]
    exact closed.pure _
  | .fstring _ _ parts, simple => by
    simp only [Expr.isSimple, Bool.and_eq_true] at simple
    have each := closed.evalEach loads stores parts simple.2
    rw [Runtime.eval]
    split
    · exact closed.pure _
    · exact closed.bind (closed.evalAll each) fun _ => closed.perform _ _
  | .field _ value conversion spec, simple => by
    simp only [Expr.isSimple, Bool.and_eq_true] at simple
    have formats : ∀ converted, holds (do
        let spec ← runtime.evalSpec spec
        runtime.perform .format (converted :: spec)) := fun _ =>
      closed.bind (closed.evalSpec loads stores spec simple.2) fun _ => closed.perform _ _
    rw [Runtime.eval]
    refine closed.bind (closed.eval loads stores value simple.1) fun value => ?_
    cases conversion with
    | none => exact closed.bind (closed.pure value) formats
    | some => exact closed.bind (closed.perform _ _) formats
  | .call callee arguments _, simple => by
    simp only [Expr.isSimple, Bool.and_eq_true] at simple
    rw [Runtime.eval, Expr.operation?_of_isSimple simple.1]
    exact closed.bind (closed.eval loads stores callee simple.1) fun _ =>
      closed.bind (closed.evalAll (closed.evalEach loads stores arguments simple.2)) fun _ =>
        closed.perform _ _
  | .keyword _ _ value, simple => by
    rw [Runtime.eval]
    exact closed.eval loads stores value simple
  | .member object _ _, simple => by
    rw [Runtime.eval]
    exact closed.bind (closed.eval loads stores object simple) fun _ => closed.perform _ _
  | .subscript object key _, simple => by
    simp only [Expr.isSimple, Bool.and_eq_true] at simple
    rw [Runtime.eval]
    exact closed.bind (closed.eval loads stores object simple.1) fun _ =>
      closed.bind (closed.eval loads stores key simple.2) fun _ => closed.perform _ _
  | .slice _ first last step, simple => by
    simp only [Expr.isSimple, Bool.and_eq_true] at simple
    rw [Runtime.eval]
    exact closed.bind (closed.evalOrAbsent loads stores first simple.1.1) fun _ =>
      closed.bind (closed.evalOrAbsent loads stores last simple.1.2) fun _ =>
        closed.bind (closed.evalOrAbsent loads stores step simple.2) fun _ => closed.perform _ _
  | .binary left _ _ right, simple => by
    simp only [Expr.isSimple, Bool.and_eq_true] at simple
    rw [Runtime.eval]
    exact closed.bind (closed.eval loads stores left simple.1) fun _ =>
      closed.bind (closed.eval loads stores right simple.2) fun _ => closed.perform _ _
  | .logical left _ op right, simple => by
    simp only [Expr.isSimple, Bool.and_eq_true] at simple
    have second := closed.eval loads stores right simple.2
    rw [Runtime.eval]
    refine closed.bind (closed.eval loads stores left simple.1) fun _ =>
      closed.bind (closed.test _) fun holds => ?_
    cases op <;> cases holds <;> first | exact second | exact closed.pure _
  | .compare left ops rights, simple => by
    simp only [Expr.isSimple, Bool.and_eq_true, beq_iff_eq] at simple
    obtain ⟨⟨⟨⟨leftSimple, -⟩, nonempty⟩, sameLength⟩, rightsSimple⟩ := simple
    have each := closed.evalEach loads stores rights rightsSimple
    rw [Runtime.eval]
    exact closed.bind (closed.eval loads stores left leftSimple) fun _ =>
      closed.evalChain sameLength (by simpa using nonempty) each _
  | .unary _ _ operand, simple => by
    rw [Runtime.eval]
    exact closed.bind (closed.eval loads stores operand simple) fun _ => closed.perform _ _
  | .conditional test whenTrue whenFalse, simple => by
    simp only [Expr.isSimple, Bool.and_eq_true] at simple
    have trueHolds := closed.eval loads stores whenTrue simple.1.2
    have falseHolds := closed.eval loads stores whenFalse simple.2
    rw [Runtime.eval]
    refine closed.bind (closed.eval loads stores test simple.1.1) fun _ =>
      closed.bind (closed.test _) fun holds => ?_
    cases holds with
    | true => exact trueHolds
    | false => exact falseHolds
  | .list _ items _, simple | .set _ items _, simple | .dict _ items _, simple => by
    have each := closed.evalEach loads stores items simple
    rw [Runtime.eval]
    exact closed.bind (closed.evalAll each) fun _ => closed.perform _ _
  | .tuple _ items _, simple => by
    have each := closed.evalEach loads stores items simple
    rw [Runtime.eval]
    exact closed.bind (closed.evalAll each) fun _ => closed.pure _
  | .entry key value, simple => by
    simp only [Expr.isSimple, Bool.and_eq_true] at simple
    rw [Runtime.eval]
    exact closed.bind (closed.eval loads stores key simple.1) fun _ =>
      closed.bind (closed.eval loads stores value simple.2) fun _ => closed.pure _
  | .named target value, simple => by
    simp only [Expr.isSimple, Bool.and_eq_true] at simple
    rw [Runtime.eval]
    exact closed.bind (closed.eval loads stores value simple.2) fun _ =>
      closed.bind (stores _ _) fun _ => closed.pure _

theorem Closed.evalEach (closed : runtime.Closed holds) (loads : ∀ name, holds (load name))
    (stores : ∀ name value, holds (store name value)) :
    ∀ items : List Expr, Expr.areSimple items = true → ∀ item ∈ items, holds (runtime.eval item)
  | [], _ => by simp
  | first :: rest, simple => by
    simp only [Expr.areSimple, Bool.and_eq_true] at simple
    exact List.forall_mem_cons.mpr
      ⟨closed.eval loads stores first simple.1, closed.evalEach loads stores rest simple.2⟩

theorem Closed.evalOrAbsent (closed : runtime.Closed holds) (loads : ∀ name, holds (load name))
    (stores : ∀ name value, holds (store name value)) :
    ∀ value : Option Expr, Expr.isSimpleOption value = true → holds (runtime.evalOrAbsent value)
  | none, _ => by
    rw [Runtime.evalOrAbsent]
    exact closed.pure _
  | some value, simple => by
    rw [Runtime.evalOrAbsent]
    exact closed.eval loads stores value simple

theorem Closed.evalSpec (closed : runtime.Closed holds) (loads : ∀ name, holds (load name))
    (stores : ∀ name value, holds (store name value)) :
    ∀ spec : Option Expr, Expr.isSimpleOption spec = true → holds (runtime.evalSpec spec)
  | none, _ => by
    rw [Runtime.evalSpec]
    exact closed.pure _
  | some spec, simple => by
    rw [Runtime.evalSpec]
    exact closed.bind (closed.eval loads stores spec simple) fun _ => closed.pure _

end

/-! ## Meaningful runs -/

/-- A run ends with a value or for a reason that the language has. -/
def Meaningful {α : Type} (action : Run Value Error α) : Prop :=
  ∀ state, (action state).1 ≠ .error .meaningless

theorem Meaningful.bind {α β : Type} {action : Run Value Error α} {next : α → Run Value Error β}
    (meaningful : Meaningful action) (rest : ∀ value, Meaningful (next value)) :
    Meaningful (action >>= next) := by
  intro state
  have here := meaningful state
  rcases ran : action state with ⟨reason | value, after⟩
  · rw [run_bind_error ran]
    simpa [ran] using here
  · rw [run_bind_ok ran]
    exact rest value after

theorem test_meaningful (value : Value) : Meaningful (runtime.test value) := by
  intro state
  rw [test_run]
  cases (runtime.truth state.world value).1 <;> simp [Except.mapError]

theorem perform_meaningful (operation : Operation) (operands : List Value) :
    Meaningful (runtime.perform operation operands) := by
  unfold perform
  split
  · exact (test_meaningful _).bind fun _ _ => by simp [run_pure]
  · split
    · exact fun _ => by simp [run_pure]
    · intro state
      rw [ask_run]
      cases (runtime.respond state.world operation operands).1 <;> simp [Except.mapError]

theorem load_meaningful (name : String) : Meaningful (load name : Run Value Error Value) := by
  intro state
  rw [load_run]
  cases state.lookup name <;> simp

theorem closed_meaningful : runtime.Closed fun action => Meaningful action where
  pure _ _ := by simp [run_pure]
  bind := .bind
  test := test_meaningful
  perform := perform_meaningful

theorem eval_meaningful (runtime : Runtime Value Error) {expr : Expr}
    (simple : expr.isSimple = true) : Meaningful (runtime.eval expr) :=
  closed_meaningful.eval load_meaningful (fun _ _ _ => nofun) expr simple

end Runtime
end Unsugar
