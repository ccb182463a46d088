import Unsugar.Proofs.Judgement
import Unsugar.Proofs.Lowering.Emission
import Unsugar.Proofs.Supply

/-! What lowering does apart from the trees it makes. It adds to the statements set
aside and never looks at them, names in use stay in use, and decorators are left only
where they were: a module whose decorated functions have names of its own still is such
a module. -/

namespace Unsugar

/-! ## Orderly statements -/

namespace Stmt

mutual

/-- Whether the decorated functions in a statement have names that are not reserved, and
its handlers without a type come last. -/
def isOrderly : Stmt → Bool
  | conditional _ _ body _ orelse | whileLoop _ _ body orelse | forLoop _ _ _ body orelse =>
    areOrderly body && areOrderly orelse
  | tryBlock _ body handlers orelse final =>
    (Lowering.earlyBareHandler? handlers).isNone && areOrderly body &&
      areHandlersOrderly handlers && areOrderly orelse && areOrderly final
  | withBlock _ _ body => areOrderly body
  | function decorators _ ident _ _ body =>
    (decorators.isEmpty || !isReserved ident.name) && areOrderly body
  | classDef _ _ _ _ body => areOrderly body
  | _ => true

def areOrderly : List Stmt → Bool
  | [] => true
  | first :: rest => isOrderly first && areOrderly rest

def areHandlersOrderly : List Handler → Bool
  | [] => true
  | .mk _ _ _ body :: rest => areOrderly body && areHandlersOrderly rest

end

@[simp] theorem areOrderly_nil : areOrderly [] = true := rfl

@[simp] theorem areOrderly_cons (first : Stmt) (rest : List Stmt) :
    areOrderly (first :: rest) = (first.isOrderly && areOrderly rest) := rfl

@[simp] theorem areOrderly_append (first second : List Stmt) :
    areOrderly (first ++ second) = (areOrderly first && areOrderly second) := by
  induction first with
  | nil => rfl
  | cons stmt rest induction => simp [induction, Bool.and_assoc]

theorem areOrderly_iff {body : List Stmt} :
    areOrderly body = true ↔ ∀ stmt ∈ body, stmt.isOrderly = true := by
  induction body with
  | nil => simp
  | cons first rest induction => simp [induction]

@[simp] theorem isOrderly_store (name : String) (value : Expr) :
    (store name value).isOrderly = true := rfl

@[simp] theorem isOrderly_perform (id : String) (arguments : List Expr) :
    (perform id arguments).isOrderly = true := rfl

@[simp] theorem isOrderly_pass : pass.isOrderly = true := rfl

@[simp] theorem isOrderly_drop (name : String) : (drop name).isOrderly = true := rfl

@[simp] theorem isOrderly_conditional (position elsePosition : Position) (test : Expr)
    (body orelse : List Stmt) :
    (conditional position test body elsePosition orelse).isOrderly =
      (areOrderly body && areOrderly orelse) := rfl

@[simp] theorem isOrderly_choose (test : Expr) (body orelse : List Stmt) :
    (choose test body orelse).isOrderly = (areOrderly body && areOrderly orelse) := rfl

theorem areOrderly_orPass {body : List Stmt} (orderly : areOrderly body = true) :
    areOrderly (orPass body) = true := by
  unfold orPass
  split
  · rfl
  · exact orderly

end Stmt

/-! ## Transformations -/

namespace Desugar

variable {α β : Type}

/-- What holds of each value that a transformation gives; the names in use stay in use. -/
def growing : Judgement Desugar where
  Gives holds action := ∀ context steps, match (action context steps).1 with
    | .ok (value, after) => holds value ∧ context.reserved ⊆ after.reserved
    | .error _ => True
  pure valid _ _ := ⟨valid, List.Subset.refl _⟩
  bind {_ _ holds result action next} first rest := by
    intro context steps
    have ended := first context steps
    rw [run_bind]
    revert ended
    rcases action context steps with ⟨_ | ⟨value, after⟩, later⟩ <;> intro ended
    · trivial
    · have last := rest value ended.1 after later
      revert last
      rcases (next value after later).1 with _ | ⟨value', final⟩ <;> intro last
      · trivial
      · exact ⟨last.1, List.Subset.trans ended.2 last.2⟩

/-- A transformation that gives orderly statements. -/
abbrev Orderly (action : Desugar (List Stmt)) : Prop :=
  growing.Gives (Stmt.areOrderly · = true) action

theorem Orderly.append {first second : Desugar (List Stmt)} (here : Orderly first)
    (later : Orderly second) : Orderly (do
      let here ← first
      return here ++ (← second)) :=
  growing.bind here fun _ hereOrderly => growing.bind later fun _ laterOrderly =>
    growing.pure (by simp [hereOrderly, laterOrderly])

namespace growing

variable {holds : α → Prop}

theorem map {result : β → Prop} {action : Desugar α} {change : α → β}
    (given : growing.Gives holds action) (implies : ∀ value, holds value → result (change value)) :
    growing.Gives result (change <$> action) := by
  rw [map_eq_pure_bind]
  exact growing.bind given fun value valid => growing.pure (implies value valid)

theorem fresh (base : String) : growing.Gives (fun _ => True) (Desugar.fresh base) :=
  fun context _ => ⟨trivial, context.reserved_subset_fresh base⟩

theorem touch : growing.Gives (fun _ => True) Desugar.touch :=
  fun _ _ => ⟨trivial, List.Subset.refl _⟩

theorem apply (rule : Rule) (outcome : Outcome) (position : Position) :
    growing.Gives (fun _ => True) (Desugar.apply rule outcome position) :=
  fun _ _ => ⟨trivial, List.Subset.refl _⟩

theorem note (step : Step) : growing.Gives (fun _ => True) (Desugar.note step) :=
  fun _ _ => ⟨trivial, List.Subset.refl _⟩

theorem refuse (position : Position) (construct : Construct) :
    growing.Gives holds (Desugar.refuse position construct) :=
  fun _ _ => trivial

theorem runAll : ∀ {statements : List Deferred}, (∀ deferred ∈ statements, Orderly deferred) →
    Orderly (Deferred.runAll statements)
  | [], _ => growing.pure rfl
  | first :: rest, each => by
    obtain ⟨here, later⟩ := List.forall_mem_cons.mp each
    exact here.append (runAll later)

/-- What follows a transformation need only agree on the values that it gives. -/
theorem bind_congr {action : Desugar α} {next other : α → Desugar β}
    (given : growing.Gives holds action) (same : ∀ value, holds value → next value = other value) :
    action >>= next = action >>= other := by
  funext context steps
  have ended := given context steps
  rw [run_bind, run_bind]
  revert ended
  rcases action context steps with ⟨failure | ⟨value, after⟩, later⟩ <;> intro ended
  · rfl
  · exact congrFun (congrFun (same value ended.1) after) later

end growing
end Desugar

namespace Lowering

open Desugar (growing Orderly)

variable {α β : Type}

/-! ## Lowering -/

/-- Lowering that adds to the statements set aside, and does not look at them. -/
def Blind (action : Lowering α) : Prop :=
  ∀ ahead, action.run ahead = (fun (value, more) => (value, ahead ++ more)) <$> action.run []

/-- What holds of each value that lowering gives. It does not depend on what was set aside
before, what it sets aside itself is orderly, and the names in use stay in use. -/
structure Steady (holds : α → Prop) (action : Lowering α) : Prop where
  blind : Blind action
  gives : growing.Gives (fun (value, more) => holds value ∧ ∀ deferred ∈ more, Orderly deferred)
    (action.run [])

namespace Steady

variable {holds : α → Prop} {result : β → Prop}

theorem pure {value : α} (valid : holds value) : Steady holds (Pure.pure value : Lowering α) where
  blind _ := by simp
  gives := growing.pure ⟨valid, by simp⟩

theorem bind {action : Lowering α} {next : α → Lowering β} (first : Steady holds action)
    (rest : ∀ value, holds value → Steady result (next value)) :
    Steady result (action >>= next) where
  blind ahead := by
    rw [StateT.run_bind, StateT.run_bind, first.blind ahead, bind_map_left, map_bind]
    refine growing.bind_congr first.gives fun (value, more) ended => ?_
    rw [(rest value ended.1).blind (ahead ++ more), (rest value ended.1).blind more]
    simp
  gives := by
    rw [StateT.run_bind]
    refine growing.bind first.gives fun (value, more) ended => ?_
    rw [(rest value ended.1).blind more]
    refine growing.map (rest value ended.1).gives fun (value', others) last => ⟨last.1, ?_⟩
    exact List.forall_mem_append.mpr ⟨ended.2, last.2⟩

/-- A step of the transformation sets nothing aside. -/
theorem lift {action : Desugar α} (given : growing.Gives holds action) :
    Steady holds (liftM action : Lowering α) where
  blind ahead := by
    change (action >>= fun value => Pure.pure (value, ahead)) = _ <$>
      (action >>= fun value => Pure.pure (value, []))
    simp
  gives := by
    change growing.Gives _ (action >>= fun value => Pure.pure (value, []))
    exact growing.bind given fun _ valid => growing.pure ⟨valid, by simp⟩

theorem append {more : List Deferred} (each : ∀ deferred ∈ more, Orderly deferred) :
    Steady (fun _ => True) (modify (· ++ more) : Lowering Unit) where
  blind ahead := by
    change (Pure.pure ((), ahead ++ more) : Desugar _) = _ <$> Pure.pure ((), [] ++ more)
    simp
  gives := growing.pure ⟨trivial, by simpa using each⟩

theorem emit {statements : Deferred} (orderly : Orderly statements) :
    Steady (fun _ => True) (Lowering.emit statements) :=
  append (by simpa using orderly)

theorem touch : Steady (fun _ => True) Lowering.touch := .lift growing.touch

theorem fresh (base : String) : Steady (fun _ => True) (Lowering.fresh base) :=
  .lift (growing.fresh base)

/-- The statements set aside for a statement come ahead of it. -/
theorem flush {build : Lowering Stmt} (steady : Steady (·.isOrderly = true) build) :
    Orderly (Lowering.flush build) := by
  refine growing.bind steady.gives fun (stmt, ahead) ended => ?_
  refine growing.bind (growing.runAll ended.2) fun before orderly => growing.pure ?_
  simpa [orderly] using ended.1

theorem mapM {action : α → Lowering β} (each : ∀ item, Steady (fun _ => True) (action item))
    (items : List α) : Steady (·.length = items.length) (items.mapM action) := by
  induction items with
  | nil =>
    rw [List.mapM_nil]
    exact .pure rfl
  | cons first rest induction =>
    rw [List.mapM_cons]
    exact (each first).bind fun _ _ => induction.bind fun _ same => .pure (by simp [same])

end Steady

/-- Lowering of an expression, of whose value nothing is said. -/
abbrev IsSteady (action : Lowering Expr) : Prop := Steady (fun _ => True) action

/-! ### Operands -/

theorem storing_orderly {name : String} {value : Lowering Expr} (steady : IsSteady value) :
    Orderly (storing name value) :=
  Steady.flush (steady.bind fun _ _ => .pure rfl)

theorem save_steady (value : Expr) : IsSteady (save value) :=
  (Steady.fresh "tmp").bind fun _ _ =>
    (Steady.emit (growing.pure rfl)).bind fun _ _ => .pure trivial

theorem hoist_steady (value : Expr) : IsSteady (hoist value) := by
  fun_induction hoist value with
  | case1 _ _ _ induction => exact induction.bind fun _ _ => .pure trivial
  | case2 _ _ _ induction => exact induction.bind fun _ _ => .pure trivial
  | case3 _ _ keyInduction valueInduction =>
    exact keyInduction.bind fun _ _ => valueInduction.bind fun _ _ => .pure trivial
  | case4 => exact .pure trivial
  | case5 => exact save_steady _
  | case6 => exact .pure trivial
  | case7 => exact save_steady _

theorem operands_steady {items : List (Lowering Expr)} (each : ∀ item ∈ items, IsSteady item) :
    Steady (fun _ => True) (operands items) := by
  have after : ∀ done, Steady (fun _ => True) (operandsAfter done items) := by
    induction items with
    | nil => exact fun done => .pure trivial
    | cons first rest induction =>
      obtain ⟨here, later⟩ := List.forall_mem_cons.mp each
      intro done
      refine (Steady.lift here.gives).bind fun (value, ahead) ended => ?_
      have resume : ∀ done, Steady (fun _ => True)
          (do modify (· ++ ahead); operandsAfter (done ++ [value]) rest) := fun done =>
        (Steady.append ended.2).bind fun _ _ => induction later _
      dsimp only
      split
      · exact (Steady.pure trivial).bind fun done (_ : True) => resume done
      · exact (Steady.mapM hoist_steady done).bind fun done _ => resume done
  exact after []

theorem applying_steady {callee : Lowering Expr} {arguments : List (Lowering Expr)}
    (calleeSteady : IsSteady callee) (each : ∀ argument ∈ arguments, IsSteady argument) :
    IsSteady (applying callee arguments) :=
  (operands_steady (List.forall_mem_cons.mpr ⟨calleeSteady, each⟩)).bind fun values _ => by
    cases values <;> exact .pure trivial

theorem supporting_steady {id : String} {arguments : List (Lowering Expr)}
    (each : ∀ argument ∈ arguments, IsSteady argument) : IsSteady (supporting id arguments) :=
  (operands_steady each).bind fun _ _ => .pure trivial

theorem assigning_steady {name : String} {value : Lowering Expr} (steady : IsSteady value) :
    IsSteady (assigning name value) :=
  Steady.touch.bind fun _ _ => (Steady.emit (storing_orderly steady)).bind fun _ _ => .pure trivial

theorem shortCircuit_steady {op : LogicalOp} {position : Position} {left right : Lowering Expr}
    (leftSteady : IsSteady left) (rightSteady : IsSteady right) :
    IsSteady (shortCircuit op position left right) := by
  refine Steady.touch.bind fun _ _ => (Steady.fresh "tmp").bind fun _ _ => ?_
  refine (Steady.emit (storing_orderly leftSteady)).bind fun _ _ => ?_
  refine (Steady.emit ?_).bind fun _ _ => .pure trivial
  exact growing.bind (storing_orderly rightSteady) fun _ orderly => growing.pure (by simp [orderly])

theorem choosing_steady {test whenTrue whenFalse : Lowering Expr} (testSteady : IsSteady test)
    (trueSteady : IsSteady whenTrue) (falseSteady : IsSteady whenFalse) :
    IsSteady (choosing test whenTrue whenFalse) := by
  refine Steady.touch.bind fun _ _ => (Steady.fresh "tmp").bind fun _ _ => ?_
  refine (Steady.emit (Steady.flush (testSteady.bind fun _ _ => ?_))).bind fun _ _ => .pure trivial
  refine (Steady.lift (storing_orderly trueSteady)).bind fun _ body => ?_
  refine (Steady.lift (storing_orderly falseSteady)).bind fun _ orelse => .pure ?_
  simp [body, orelse]

theorem memberOf_steady {env : Env} {object : Expr} {position : Position} {id : String}
    {lowered : Lowering Expr} (steady : IsSteady lowered) :
    IsSteady (memberOf env object position id lowered) := by
  unfold memberOf
  split
  · refine Steady.touch.bind fun _ _ => supporting_steady ?_
    simpa using ⟨steady, .pure trivial⟩
  · exact steady.bind fun _ _ => .pure trivial

/-! ### Displays, formatted strings and comparisons -/

theorem Item.argument_steady {item : Item (Lowering Expr)} (steady : IsSteady item.value) :
    IsSteady item.argument := by
  cases item with
  | plain value => exact steady
  | unpacked position op value => exact steady.bind fun _ _ => .pure trivial

theorem Item.segments_steady {gather : List (Lowering Expr) → Lowering Expr}
    {convert : Lowering Expr → Lowering Expr}
    (gathers : ∀ values, (∀ value ∈ values, IsSteady value) → IsSteady (gather values))
    (converts : ∀ value, IsSteady value → IsSteady (convert value))
    {items : List (Item (Lowering Expr))} (each : ∀ item ∈ items, IsSteady item.value) :
    ∀ {gathered : List (Lowering Expr)}, (∀ value ∈ gathered, IsSteady value) →
      ∀ segment ∈ segments gather convert gathered items, IsSteady segment := by
  have run : ∀ gathered : List (Lowering Expr), (∀ value ∈ gathered, IsSteady value) →
      ∀ segment ∈ (if gathered.isEmpty then [] else [gather gathered]), IsSteady segment := by
    intro gathered steady segment member
    split at member
    · cases member
    · rw [List.mem_singleton.mp member]
      exact gathers gathered steady
  induction items with
  | nil => exact fun {gathered} => run gathered
  | cons item rest induction =>
    obtain ⟨here, later⟩ := List.forall_mem_cons.mp each
    intro gathered steady
    cases item with
    | plain value =>
      refine induction later (List.forall_mem_append.mpr ⟨steady, fun found member => ?_⟩)
      rw [List.mem_singleton.mp member]
      exact here
    | unpacked position op value =>
      refine List.forall_mem_append.mpr ⟨run gathered steady, List.forall_mem_cons.mpr ⟨?_, ?_⟩⟩
      · exact converts value here
      · exact induction later (by simp)

theorem Item.joined_steady {join : Lowering Expr → Lowering Expr → Lowering Expr}
    {empty : Lowering Expr} (none : IsSteady empty)
    (joins : ∀ first second, IsSteady first → IsSteady second → IsSteady (join first second))
    {segments : List (Lowering Expr)} (each : ∀ segment ∈ segments, IsSteady segment) :
    IsSteady (joined join empty segments) := by
  cases segments with
  | nil => exact none
  | cons first rest =>
    obtain ⟨here, later⟩ := List.forall_mem_cons.mp each
    exact List.foldlRecOn rest join here fun before steady segment member =>
      joins before segment steady (later segment member)

/-- What a display becomes whose items are gathered in segments. -/
theorem segmented_steady {id combine : String} {build : List Expr → Expr}
    {items : List (Item (Lowering Expr))} (each : ∀ item ∈ items, IsSteady item.value) :
    IsSteady (Item.joined (fun before segment => supporting combine [before, segment])
      (return .tupleOf [])
      (Item.segments (fun values => return build (← operands values))
        (fun value => supporting id [value]) [] items)) := by
  refine Item.joined_steady (.pure trivial) (fun _ _ first second => ?_) ?_
  · exact supporting_steady (by simpa using ⟨first, second⟩)
  · refine Item.segments_steady (fun values steady => ?_) (fun value steady => ?_) each (by simp)
    · exact (operands_steady steady).bind fun _ _ => .pure trivial
    · exact supporting_steady (by simpa using steady)

theorem splat_steady {items : List (Item (Lowering Expr))}
    (each : ∀ item ∈ items, IsSteady item.value) : IsSteady (splat items) :=
  segmented_steady each

theorem merge_steady {items : List (Item (Lowering Expr))}
    (each : ∀ item ∈ items, IsSteady item.value) : IsSteady (merge items) :=
  segmented_steady each

theorem arguments_steady {items : List (Item (Lowering Expr))}
    (each : ∀ item ∈ items, IsSteady item.value) :
    ∀ argument ∈ items.map Item.argument, IsSteady argument :=
  List.forall_mem_map.mpr fun item member => Item.argument_steady (each item member)

theorem display_steady {items : List (Item (Lowering Expr))} {build : List Expr → Expr}
    {other : Lowering Expr} (each : ∀ item ∈ items, IsSteady item.value)
    (otherSteady : IsSteady other) :
    IsSteady (if items.any Item.isUnpacked then other
      else do return build (← operands (items.map Item.argument))) := by
  split
  · exact otherSteady
  · exact (operands_steady (arguments_steady each)).bind fun _ _ => .pure trivial

theorem formatting_steady {conversion : Option Conversion} {value : Lowering Expr}
    {spec : List (Lowering Expr)} (steady : IsSteady value)
    (each : ∀ part ∈ spec, IsSteady part) : IsSteady (formatting conversion value spec) := by
  refine applying_steady (.pure trivial) (List.forall_mem_cons.mpr ⟨?_, each⟩)
  cases conversion with
  | none => exact steady
  | some => exact applying_steady (.pure trivial) (by simpa using steady)

theorem joining_steady {env : Env} {parts : List Part}
    (each : ∀ part ∈ parts, IsSteady part.action) : IsSteady (joining env parts) := by
  unfold joining
  split
  · exact .pure trivial
  · exact .pure trivial
  · refine applying_steady (memberOf_steady (.pure trivial)) ?_
    have both := operands_steady (List.forall_mem_map.mpr each)
    simpa using both.bind fun _ _ => .pure trivial

theorem comparing_steady {op : CompareOp} {left right : Lowering Expr}
    (leftSteady : IsSteady left) (rightSteady : IsSteady right) :
    IsSteady (comparing op left right) := by
  refine Steady.touch.bind fun _ _ => ?_
  have swapped : ∀ id, IsSteady (supporting id [right, left]) := fun id =>
    supporting_steady (by simpa using ⟨rightSteady, leftSteady⟩)
  cases op with
  | isIn => exact swapped _
  | notIn => exact supporting_steady (by simpa using swapped _)
  | _ => exact supporting_steady (by simpa using ⟨leftSteady, rightSteady⟩)

theorem chain_steady : ∀ {left : Lowering Expr} {rights : List (CompareOp × Expr × Lowering Expr)},
    IsSteady left → (∀ right ∈ rights, IsSteady right.2.2) →
    Steady (∀ comparison ∈ ·, IsSteady comparison) (chain left rights)
  | _, [], _, _ => .pure (by simp)
  | _, [(op, operand, right)], leftSteady, each => by
    have here := each (op, operand, right) (by simp)
    exact .pure (by simpa using comparing_steady leftSteady here)
  | left, (op, operand, right) :: second :: rest, leftSteady, each => by
    obtain ⟨here, later⟩ := List.forall_mem_cons.mp each
    unfold chain
    split
    · refine (chain_steady here later).bind fun _ others => .pure ?_
      exact List.forall_mem_cons.mpr ⟨comparing_steady leftSteady here, others⟩
    · refine (Steady.fresh "tmp").bind fun stored _ => ?_
      refine (chain_steady (.pure trivial) later).bind fun _ others => .pure ?_
      exact List.forall_mem_cons.mpr ⟨comparing_steady leftSteady (assigning_steady here), others⟩

theorem chained_steady {left : Lowering Expr} {rights : List (CompareOp × Expr × Lowering Expr)}
    (leftSteady : IsSteady left) (each : ∀ right ∈ rights, IsSteady right.2.2) :
    IsSteady (chained left rights) := by
  refine (chain_steady leftSteady each).bind fun comparisons steady => ?_
  match comparisons, steady with
  | [], _ => exact .pure trivial
  | first :: rest, steady =>
    obtain ⟨here, later⟩ := List.forall_mem_cons.mp steady
    exact List.foldlRecOn rest (shortCircuit .and .unknown) here fun _ before comparison member =>
      shortCircuit_steady before (later comparison member)

theorem declaring_steady {env : Env} {helper : String} {position : Position}
    {targets : List String} :
    Steady (Stmt.areOrderly · = true) (declaring env helper position targets) := by
  have frame : Steady (fun _ => True) (declarationIn env.frame position) := by
    cases env.frame with
    | moduleFrame => exact .pure trivial
    | classFrame => exact .lift (growing.refuse _ _)
    | functionFrame name =>
      have context : growing.Gives (fun _ => True) (get : Desugar Context) :=
        fun _ _ => ⟨trivial, List.Subset.refl _⟩
      exact (Steady.lift context).bind fun _ _ => .pure trivial
  unfold declaring
  split
  · exact .pure rfl
  · refine frame.bind fun declaration _ => ?_
    have noted : growing.Gives (fun _ => True)
        (modify fun context : Context =>
          { context with helpers := (helper, declaration) :: context.helpers } : Desugar Unit) :=
      fun _ _ => ⟨trivial, List.Subset.refl _⟩
    exact (Steady.lift noted).bind fun _ _ => .pure rfl

/-! ### Loops and assignments -/

theorem looping_orderly {position : Position} {assign : Expr → Desugar (List Stmt)}
    {iterable : Lowering Expr} {body : Desugar (List Stmt)}
    {orelse : Option (Desugar (List Stmt))}
    (assignOrderly : ∀ item, Orderly (assign (.ofName item)))
    (iterableSteady : IsSteady iterable) (bodyOrderly : Orderly body)
    (orelseOrderly : ∀ action ∈ orelse, Orderly action) :
    Orderly (looping position assign iterable body orelse) := by
  refine growing.bind (growing.fresh "iter") fun iterator _ => ?_
  refine growing.bind (growing.fresh "tmp") fun item _ => ?_
  refine growing.bind (growing.fresh "completed") fun completed _ => ?_
  refine growing.bind (growing.apply _ _ _) fun _ _ => ?_
  refine growing.bind (storing_orderly (supporting_steady (by simpa using iterableSteady)))
    fun start startOrderly => ?_
  refine growing.bind (assignOrderly item) fun assigned assignedOrderly => ?_
  refine growing.bind bodyOrderly fun body bodyOrderly => ?_
  cases orelse with
  | none =>
    refine growing.pure ?_
    simp [Stmt.isOrderly, startOrderly, assignedOrderly, bodyOrderly]
  | some orelse =>
    refine growing.bind (orelseOrderly orelse rfl) fun after afterOrderly => growing.pure ?_
    simp [Stmt.isOrderly, startOrderly, assignedOrderly, bodyOrderly, afterOrderly]

theorem collecting_orderly {kind : ComprehensionKind} {result : String} {body : Lowering Expr}
    {entry : List (Lowering Expr)} (bodySteady : IsSteady body)
    (each : ∀ part ∈ entry, IsSteady part) : Orderly (collecting kind result body entry) := by
  have expression : ∀ {action : Lowering Expr}, IsSteady action →
      Steady (·.isOrderly = true) (do return Stmt.expression (← action)) := fun steady =>
    steady.bind fun _ _ => .pure rfl
  refine Steady.flush ?_
  cases kind with
  | list | set => exact expression (applying_steady (.pure trivial) (by simpa using bodySteady))
  | dict => exact expression (supporting_steady (List.forall_mem_cons.mpr ⟨.pure trivial, each⟩))
  | generator => exact bodySteady.bind fun _ _ => .pure rfl

theorem saveAhead_grows (value : Expr) (parts : List Expr) :
    growing.Gives (fun _ => True) (saveAhead value parts) := by
  unfold saveAhead
  split
  · exact growing.pure trivial
  · exact growing.bind (growing.fresh "tmp") fun _ _ => growing.pure trivial

theorem finishing_orderly {saved : Option String} {value : Lowering Expr}
    {finish : Lowering Expr → Lowering Stmt} (valueSteady : IsSteady value)
    (finishes : ∀ value, IsSteady value → Steady (·.isOrderly = true) (finish value)) :
    Orderly (finishing saved value finish) := by
  cases saved with
  | none => exact Steady.flush (finishes value valueSteady)
  | some name =>
    refine growing.bind (storing_orderly valueSteady) fun ahead aheadOrderly => ?_
    refine growing.bind (Steady.flush (finishes _ (.pure trivial)))
      fun last lastOrderly => growing.pure ?_
    simp [aheadOrderly, lastOrderly]

theorem unpacking_orderly {position : Position} {items : List Expr} {value : Lowering Expr}
    {assign : String → Desugar (List Stmt)} (valueSteady : IsSteady value)
    (assignOrderly : ∀ name, Orderly (assign name)) :
    Orderly (unpacking position items value assign) := by
  unfold unpacking
  split
  · exact growing.refuse _ _
  · refine growing.bind (growing.fresh "tmp") fun unpacked _ => ?_
    refine growing.bind (growing.apply _ _ _) fun _ _ => ?_
    have unpack : ∀ spec, IsSteady (supporting "unpack" [value, return spec]) := fun spec =>
      supporting_steady (by simpa using ⟨valueSteady, .pure trivial⟩)
    refine growing.bind (storing_orderly (unpack _)) fun ahead aheadOrderly => ?_
    refine growing.bind (assignOrderly unpacked) fun body bodyOrderly => growing.pure ?_
    simp [Stmt.isOrderly, Stmt.areHandlersOrderly, earlyBareHandler?, aheadOrderly,
      Stmt.areOrderly_orPass bodyOrderly]

/-- The function made from a comprehension. -/
theorem collector_orderly {position : Position} {ident : Ident} {kind : ComprehensionKind}
    {iterator result : String} {declares loops : List Stmt}
    (declaresOrderly : Stmt.areOrderly declares = true)
    (loopsOrderly : Stmt.areOrderly loops = true) :
    Stmt.areOrderly [.function [] position ident [.plain iterator] none
      (declares ++ (emptyResult kind).toList.map (Stmt.store result) ++ loops ++
        (emptyResult kind).toList.map fun _ => .returns .unknown (some (.ofName result)))] =
      true := by
  cases kind <;> simp [Stmt.isOrderly, emptyResult, declaresOrderly, loopsOrderly]

/-! ### Expressions and targets -/

mutual

theorem lower_steady (env : Env) : ∀ expr : Expr, IsSteady (lower env expr)
  | .name .. | .literal .. => .pure trivial
  | .fstring _ _ parts => Steady.touch.bind fun _ _ => joining_steady (lowerParts_steady env parts)
  | .field _ value _ spec => Steady.touch.bind fun _ _ =>
    formatting_steady (lower_steady env value) (lowerSpec_steady env spec)
  | .call callee arguments _ => by
    have each := arguments_steady (lowerItems_steady env arguments)
    refine (operands_steady (List.forall_mem_cons.mpr ⟨lower_steady env callee, each⟩)).bind
      fun values _ => ?_
    cases values <;> exact .pure trivial
  | .keyword _ _ value | .starred _ _ value =>
    (lower_steady env value).bind fun _ _ => .pure trivial
  | .member object _ _ => memberOf_steady (lower_steady env object)
  | .subscript object key _ => Steady.touch.bind fun _ _ =>
    supporting_steady (by simpa using ⟨lower_steady env object, lower_steady env key⟩)
  | .slice _ first last step => Steady.touch.bind fun _ _ =>
    supporting_steady (by simpa using ⟨lowerOrAbsent_steady env first,
      lowerOrAbsent_steady env last, lowerOrAbsent_steady env step⟩)
  | .binary left _ _ right => Steady.touch.bind fun _ _ =>
    supporting_steady (by simpa using ⟨lower_steady env left, lower_steady env right⟩)
  | .logical left _ _ right => shortCircuit_steady (lower_steady env left) (lower_steady env right)
  | .compare left ops rights => by
    refine chained_steady (lower_steady env left) fun right member => ?_
    have inner := (List.of_mem_zip member).2
    exact lowerList_steady env rights right.2.2 (List.of_mem_zip inner).2
  | .unary _ _ operand => by
    refine Steady.touch.bind fun _ _ => ?_
    split
    · exact .pure trivial
    · exact supporting_steady (by simpa using lower_steady env operand)
  | .conditional test whenTrue whenFalse =>
    choosing_steady (lower_steady env test) (lower_steady env whenTrue) (lower_steady env whenFalse)
  | .lambda _ params body => by
    refine Steady.touch.bind fun _ _ => (Steady.fresh "lambda").bind fun name _ => ?_
    refine (Steady.emit (Steady.flush ?_)).bind fun _ _ => .pure trivial
    refine (lowerParams_steady env params).bind fun params _ => ?_
    have body := lower_steady { env with frame := .functionFrame name } body
    refine (Steady.lift (Steady.flush (body.bind fun _ _ => .pure rfl))).bind
      fun body orderly => .pure ?_
    simpa [Stmt.isOrderly] using orderly
  | .list _ items _ | .set _ items _ => by
    have each := lowerItems_steady env items
    exact display_steady each <| Steady.touch.bind fun _ _ =>
      supporting_steady (by simpa using splat_steady each)
  | .tuple _ items _ =>
    have each := lowerItems_steady env items
    display_steady each <| Steady.touch.bind fun _ _ => splat_steady each
  | .dict _ items _ =>
    have each := lowerItems_steady env items
    display_steady each <| Steady.touch.bind fun _ _ => merge_steady each
  | .entry key value => by
    have each : ∀ part ∈ [lower env key, lower env value], IsSteady part := by
      simpa using ⟨lower_steady env key, lower_steady env value⟩
    refine (operands_steady each).bind fun values _ => ?_
    split <;> exact .pure trivial
  | .comprehension kind opening body clauses closing => by
    refine Steady.touch.bind fun _ _ => (Steady.fresh kind.text).bind fun name _ => ?_
    refine (Steady.fresh "iter").bind fun iterator _ => ?_
    refine declaring_steady.bind fun declares declaresOrderly => ?_
    have bodySteady := lower_steady { env with frame := .functionFrame name } body
    have entrySteady := lowerEntry_steady { env with frame := .functionFrame name } body
    have loops := fun result => lowerClauses_orderly { env with frame := .functionFrame name }
      (some (.ofName iterator)) (@collecting_orderly kind result _ _ bodySteady entrySteady) clauses
    have made : IsSteady
        (applying (return .ofName name) [supporting "iter" (firstIterable env clauses)]) := by
      refine applying_steady (.pure trivial) ?_
      simpa using supporting_steady (firstIterable_steady env clauses)
    cases kind with
    | generator =>
      refine (Steady.emit (growing.bind (loops "") fun _ loopsOrderly => growing.pure ?_)).bind
        fun _ _ => made
      exact collector_orderly declaresOrderly loopsOrderly
    | _ =>
      refine (Steady.fresh "result").bind fun result _ => ?_
      refine (Steady.emit (growing.bind (loops result) fun _ loopsOrderly => growing.pure ?_)).bind
        fun _ _ => made
      exact collector_orderly declaresOrderly loopsOrderly
  | .named _ value => assigning_steady (lower_steady env value)
  | .yield _ _ value => (lowerOption_steady env value).bind fun _ _ => .pure trivial

theorem lowerOption_steady (env : Env) :
    ∀ value : Option Expr, Steady (fun _ => True) (lowerOption env value)
  | none => .pure trivial
  | some value => (lower_steady env value).bind fun _ _ => .pure trivial

theorem lowerOrAbsent_steady (env : Env) :
    ∀ value : Option Expr, IsSteady (lowerOrAbsent env value)
  | none => .pure trivial
  | some value => lower_steady env value

theorem lowerList_steady (env : Env) :
    ∀ items : List Expr, ∀ action ∈ lowerList env items, IsSteady action
  | [] => by simp [lowerList]
  | first :: rest => List.forall_mem_cons.mpr ⟨lower_steady env first, lowerList_steady env rest⟩

theorem lowerItems_steady (env : Env) :
    ∀ items : List Expr, ∀ item ∈ lowerItems env items, IsSteady item.value
  | [] => by simp [lowerItems]
  | first :: rest => by
    have later := lowerItems_steady env rest
    have here := lower_steady env first
    cases first with
    | starred _ _ value => exact List.forall_mem_cons.mpr ⟨lower_steady env value, later⟩
    | _ => exact List.forall_mem_cons.mpr ⟨here, later⟩

theorem lowerParts_steady (env : Env) :
    ∀ parts : List Expr, ∀ part ∈ lowerParts env parts, IsSteady part.action
  | [] => by simp [lowerParts]
  | first :: rest => by
    have later := lowerParts_steady env rest
    cases first with
    | literal _ _ constant =>
      cases constant with
      | text value => exact List.forall_mem_cons.mpr ⟨.pure trivial, later⟩
      | _ => exact later
    | field _ value _ spec =>
      refine List.forall_mem_cons.mpr ⟨?_, later⟩
      exact formatting_steady (lower_steady env value) (lowerSpec_steady env spec)
    | _ => exact later

theorem lowerSpec_steady (env : Env) :
    ∀ spec : Option Expr, ∀ action ∈ lowerSpec env spec, IsSteady action
  | none => by simp [lowerSpec]
  | some spec => by simpa [lowerSpec] using lower_steady env spec

theorem lowerParams_steady (env : Env) :
    ∀ params : List Param, Steady (fun _ => True) (lowerParams env params)
  | [] => .pure trivial
  | .mk _ _ _ _ value :: rest =>
    (lowerOption_steady env value).bind fun _ _ =>
      (lowerParams_steady env rest).bind fun _ _ => .pure trivial

theorem lowerEntry_steady (env : Env) (expr : Expr) :
    ∀ action ∈ lowerEntry env expr, IsSteady action := by
  cases expr with
  | entry key value => simpa [lowerEntry] using ⟨lower_steady env key, lower_steady env value⟩
  | _ => simp [lowerEntry]

theorem firstIterable_steady (env : Env) :
    ∀ clauses : List Clause, ∀ action ∈ firstIterable env clauses, IsSteady action
  | .loop _ _ iterable :: _ => by simpa [firstIterable] using lower_steady env iterable
  | .filter .. :: _ | [] => by simp [firstIterable]

theorem lowerClauses_orderly (env : Env) (given : Option Expr) {inner : Desugar (List Stmt)}
    (innerOrderly : Orderly inner) :
    ∀ clauses : List Clause, Orderly (lowerClauses env given inner clauses)
  | [] => innerOrderly
  | .loop _ target iterable :: rest => by
    have later := lowerClauses_orderly env none innerOrderly rest
    have assigns : ∀ item, Orderly (assignTo env target (.ofName item) (return .ofName item)) :=
      fun item => assignTo_orderly env target _ (.pure trivial)
    have source := lower_steady env iterable
    cases given with
    | none =>
      rw [lowerClauses]
      exact looping_orderly assigns source later (by simp)
    | some given =>
      rw [lowerClauses]
      exact looping_orderly assigns (.pure trivial) later (by simp)
  | .filter _ test :: rest => by
    refine Steady.flush ((lower_steady env test).bind fun _ _ => ?_)
    refine (Steady.lift (lowerClauses_orderly env none innerOrderly rest)).bind
      fun _ orderly => .pure ?_
    simp [orderly]

theorem assignTo_orderly (env : Env) : ∀ (target value : Expr) {lowered : Lowering Expr},
    IsSteady lowered → Orderly (assignTo env target value lowered)
  | .name .., _, _, steady => Steady.flush (steady.bind fun _ _ => .pure rfl)
  | .tuple _ items _, _, _, steady | .list _ items _, _, _, steady =>
    unpacking_orderly steady fun unpacked => assignItems_orderly env unpacked 0 items
  | .member object position id, value, _, steady => by
    have objectSteady := lower_steady env object
    unfold assignTo
    split
    · refine growing.bind (saveAhead_grows value [object]) fun saved _ => ?_
      refine growing.bind (growing.apply _ _ _) fun _ _ => ?_
      refine finishing_orderly steady fun value valueSteady => ?_
      refine Steady.bind (supporting_steady ?_) fun _ _ => .pure rfl
      simpa using ⟨objectSteady, .pure trivial, valueSteady⟩
    · have storing : ∀ value : Lowering Expr, IsSteady value →
          Steady (Stmt.isOrderly · = true) (do
            let value ← value
            return Stmt.assign [.member (← lower env object) position id] value) :=
        fun value valueSteady => valueSteady.bind fun _ _ => objectSteady.bind fun _ _ => .pure rfl
      have finished := fun saved => @finishing_orderly saved _ _ steady storing
      by_cases saves : (object.needsStatements && !value.isPure) = true
      · simp only [saves, if_true]
        have named : growing.Gives (fun _ => True) (some <$> Desugar.fresh "tmp") :=
          growing.map (growing.fresh "tmp") fun _ _ => trivial
        refine growing.bind named fun saved _ => ?_
        split
        · exact growing.bind (growing.apply _ _ _) fun _ _ => finished saved
        · exact finished saved
      · simp only [saves]
        exact finished none
  | .subscript object key _, value, _, steady => by
    refine growing.bind (saveAhead_grows value [object, key]) fun saved _ => ?_
    refine growing.bind (growing.apply _ _ _) fun _ _ => ?_
    refine finishing_orderly steady fun value valueSteady => ?_
    refine Steady.bind (supporting_steady ?_) fun _ _ => .pure rfl
    simpa using ⟨lower_steady env object, lower_steady env key, valueSteady⟩
  | .starred .., _, _, _ => growing.refuse _ _
  | .literal .., _, _, _ | .fstring .., _, _, _ | .field .., _, _, _ | .call .., _, _, _
  | .keyword .., _, _, _ | .slice .., _, _, _ | .binary .., _, _, _ | .logical .., _, _, _
  | .compare .., _, _, _ | .unary .., _, _, _ | .conditional .., _, _, _ | .lambda .., _, _, _
  | .set .., _, _, _ | .dict .., _, _, _ | .entry .., _, _, _ | .comprehension .., _, _, _
  | .named .., _, _, _ | .yield .., _, _, _ => growing.refuse _ _

theorem assignItems_orderly (env : Env) (unpacked : String) :
    ∀ (index : Nat) (items : List Expr), Orderly (assignItems env unpacked index items)
  | _, [] => growing.pure rfl
  | index, first :: rest => by
    have here : ∀ value lowered, IsSteady lowered → Orderly (assignTo env first value lowered) :=
      fun value _ steady => assignTo_orderly env first value steady
    have later := assignItems_orderly env unpacked (index + 1) rest
    cases first with
    | starred _ _ target =>
      have inside : ∀ value lowered, IsSteady lowered →
          Orderly (assignTo env target value lowered) :=
        fun value _ steady => assignTo_orderly env target value steady
      exact (inside _ _ (.pure trivial)).append later
    | _ => exact (here _ _ (.pure trivial)).append later

end

end Lowering
end Unsugar
