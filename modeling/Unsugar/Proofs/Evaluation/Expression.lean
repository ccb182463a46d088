import Unsugar.Proofs.Evaluation.Chain
import Unsugar.Proofs.Evaluation.Simple
import Unsugar.Proofs.Lowering.Expression

/-! Lowering an expression preserves its meaning: run after the statements set aside for
it, the residual asks for the same operations and tests the same values, with the same
operands and in the same order, as the expression did, and ends alike. -/

namespace Unsugar
namespace Lowering

open Run

variable {Value Error : Type} (runtime : Runtime Value Error) (env : Env)

/-! ## Lists of operands -/

/-- An expression as an operand. -/
def operandOf (expr : Expr) : Operand Value Error :=
  ⟨lower env expr, expr.label?, runtime.eval expr⟩

theorem lowerList_eq_map (items : List Expr) :
    lowerList env items = (items.map (operandOf runtime env)).map Operand.lowering := by
  induction items with
  | nil => rfl
  | cons first rest induction => simp [lowerList, induction, operandOf]

theorem evalAll_eq_mapM (items : List Expr) :
    runtime.evalAll items = (items.map (operandOf runtime env)).mapM Operand.action := by
  induction items with
  | nil => rfl
  | cons first rest induction => simp [Runtime.evalAll, induction, operandOf, List.mapM_cons]

/-- Simple items are not unpacked. -/
theorem lowerItems_simple {items : List Expr} (simple : Expr.areSimple items = true) :
    lowerItems env items = (lowerList env items).map .plain := by
  induction items with
  | nil => rfl
  | cons first rest induction =>
    simp only [Expr.areSimple, Bool.and_eq_true] at simple
    cases first with
    | starred => simp [Expr.isSimple] at simple
    | _ => simp [lowerItems, lowerList, induction simple.2]

theorem lowerItems_arguments {items : List Expr} (simple : Expr.areSimple items = true) :
    (lowerItems env items).map Item.argument =
      (items.map (operandOf runtime env)).map Operand.lowering := by
  rw [lowerItems_simple env simple, ← lowerList_eq_map]
  simp [Function.comp_def, Item.argument]

theorem lowerItems_any {items : List Expr} (simple : Expr.areSimple items = true) :
    (lowerItems env items).any Item.isUnpacked = false := by
  simp [lowerItems_simple env simple, Item.isUnpacked]

variable {runtime env}

/-! ## Formatted strings -/

variable {label : Option String} {lowering : Lowering Expr} {action : Run Value Error Value}

theorem formatting_lowers {spec : List (Operand Value Error)} (conversion : Option Conversion)
    (lowers : Lowers runtime label lowering action)
    (specLowers : ∀ operand ∈ spec, Lowers runtime operand.label operand.lowering operand.action) :
    Lowers runtime none (formatting conversion lowering (spec.map Operand.lowering)) (do
      let value ← action
      let converted ← match conversion with
        | none => pure value
        | some conversion => runtime.perform (.convert conversion) [value]
      let spec ← spec.mapM Operand.action
      runtime.perform .format (converted :: spec)) := by
  have formats : ∀ {label : Option String} {lowering : Lowering Expr}
      {action : Run Value Error Value}, Lowers runtime label lowering action →
      Lowers runtime none
        (applying (return .builtin "format") (lowering :: spec.map Operand.lowering))
        (do
          let converted ← action
          let spec ← spec.mapM Operand.action
          runtime.perform .format (converted :: spec)) := by
    intro label lowering action lowers
    have each : ∀ operand ∈ (⟨lowering, label, action⟩ : Operand Value Error) :: spec,
        Lowers runtime operand.label operand.lowering operand.action :=
      List.forall_mem_cons.mpr ⟨lowers, specLowers⟩
    have found : builtinOperation? "format" = some .format := rfl
    simpa [List.mapM_cons] using applying_builtin_lowers found each
  cases conversion with
  | none => simpa [formatting] using formats lowers
  | some conversion =>
    have each : ∀ operand ∈ [(⟨lowering, label, action⟩ : Operand Value Error)],
        Lowers runtime operand.label operand.lowering operand.action := by
      simpa using lowers
    have converted := applying_builtin_lowers (builtinOperation?_convert conversion) each
    simpa [formatting, List.mapM_cons] using formats converted

theorem field_lowers {value : Expr} {spec : Option Expr} (position : Position)
    (conversion : Option Conversion)
    (lowers : Lowers runtime value.label? (lower env value) (runtime.eval value))
    (specLowers : ∀ item ∈ spec, Lowers runtime item.label? (lower env item) (runtime.eval item)) :
    Lowers runtime none (formatting conversion (lower env value) (lowerSpec env spec))
      (runtime.eval (.field position value conversion spec)) := by
  have lowered : lowerSpec env spec =
      (spec.toList.map (operandOf runtime env)).map Operand.lowering := by
    cases spec <;> rfl
  have meaning : runtime.evalSpec spec =
      (spec.toList.map (operandOf runtime env)).mapM Operand.action := by
    cases spec <;> simp [Runtime.evalSpec, operandOf, List.mapM_cons]
  rw [Runtime.eval, lowered, meaning]
  refine formatting_lowers conversion lowers (List.forall_mem_map.mpr fun item member => ?_)
  exact specLowers item (Option.mem_toList.mp member)

theorem eval_join : (do
      let object ← runtime.eval (.ofText "")
      runtime.perform .member [object, runtime.constant (.text "join")]) =
    pure runtime.joiner := by
  simp [Runtime.eval, Expr.ofText, Runtime.perform, runtime.known_join]

/-- The parts of a formatted string are put together by the method of a text. -/
theorem joined_lowers {parts : List (Operand Value Error)}
    (each : ∀ operand ∈ parts, Lowers runtime operand.label operand.lowering operand.action) :
    Lowers runtime none
      (applying (memberOf env (.ofText "") .unknown "join" (return .ofText ""))
        [do return .tupleOf (← operands (parts.map Operand.lowering))])
      (do
        let values ← parts.mapM Operand.action
        runtime.perform (.call [none]) [runtime.joiner, runtime.tuple values]) := by
  have empty : Lowers runtime none (return .ofText "") (runtime.eval (.ofText "")) :=
    .residual .literal
  have joiner := memberOf_lowers env (.ofText "") .unknown "join" empty
  rw [eval_join] at joiner
  let callee : Operand Value Error :=
    ⟨memberOf env (.ofText "") .unknown "join" (return .ofText ""), none, pure runtime.joiner⟩
  let argument : Operand Value Error :=
    ⟨do return .tupleOf (← operands (parts.map Operand.lowering)), none,
      do return runtime.tuple (← parts.mapM Operand.action)⟩
  have both : ∀ operand ∈ [callee, argument],
      Lowers runtime operand.label operand.lowering operand.action := by
    simp only [List.forall_mem_cons]
    exact ⟨joiner, tuple_lowers .unknown .unknown each, by simp⟩
  simpa [callee, argument, List.mapM_cons] using applying_lowers both

/-- Lowering the parts of a formatted string. A text is a constant, a replacement field a
formatted value. -/
theorem lowerParts_operands {parts : List Expr} (areParts : parts.all Expr.isPart = true)
    (fields : ∀ position value conversion spec, Expr.field position value conversion spec ∈ parts →
      Lowers runtime none (formatting conversion (lower env value) (lowerSpec env spec))
        (runtime.eval (.field position value conversion spec))) :
    ∃ operands : List (Operand Value Error),
      operands.map Operand.lowering = (lowerParts env parts).map Part.action ∧
      operands.mapM Operand.action = runtime.evalAll parts ∧
      ∀ operand ∈ operands, Lowers runtime operand.label operand.lowering operand.action := by
  induction parts with
  | nil => exact ⟨[], rfl, rfl, by simp⟩
  | cons part parts induction =>
    simp only [List.all_cons, Bool.and_eq_true] at areParts
    obtain ⟨operands, lowerings, actions, each⟩ := induction areParts.2
      fun position value conversion spec member =>
        fields position value conversion spec (by simp [member])
    have extended : ∀ {lowering : Lowering Expr}, Lowers runtime none lowering (runtime.eval part) →
        ∃ operands : List (Operand Value Error),
          operands.map Operand.lowering = lowering :: (lowerParts env parts).map Part.action ∧
          operands.mapM Operand.action = runtime.evalAll (part :: parts) ∧
          ∀ operand ∈ operands, Lowers runtime operand.label operand.lowering operand.action :=
      fun {lowering} lowers => ⟨⟨lowering, none, runtime.eval part⟩ :: operands,
        by simp [lowerings], by simp [List.mapM_cons, actions, Runtime.evalAll],
        List.forall_mem_cons.mpr ⟨lowers, each⟩⟩
    have isPart := areParts.1
    unfold Expr.isPart at isPart
    split at isPart
    · rename_i position raw value
      have text : Lowers runtime none (return .ofText value) (runtime.eval (.ofText value)) :=
        .residual .literal
      have same : runtime.eval (.literal position raw (.text value)) =
          runtime.eval (.ofText value) := by
        simp [Runtime.eval, Expr.ofText]
      exact extended (same ▸ text)
    · rename_i position value conversion spec
      exact extended (fields position value conversion spec (by simp))
    · simp at isPart

theorem lowerParts_cons (env : Env) {part : Expr} (isPart : part.isPart = true)
    (rest : List Expr) :
    ∃ lowered, lowerParts env (part :: rest) = lowered :: lowerParts env rest := by
  unfold Expr.isPart at isPart
  split at isPart
  · exact ⟨_, rfl⟩
  · exact ⟨_, rfl⟩
  · simp at isPart

theorem joining_eq_applying {parts : List Expr} (areParts : parts.all Expr.isPart = true)
    (several : Expr.onlyText? parts = none) :
    joining env (lowerParts env parts) =
      applying (memberOf env (.ofText "") .unknown "join" (return .ofText ""))
        [do return .tupleOf (← operands ((lowerParts env parts).map Part.action))] := by
  cases parts with
  | nil => simp [Expr.onlyText?] at several
  | cons first rest =>
  simp only [List.all_cons, Bool.and_eq_true] at areParts
  cases rest with
  | nil =>
    have isPart := areParts.1
    unfold Expr.isPart at isPart
    split at isPart
    · simp [Expr.onlyText?] at several
    · rfl
    · simp at isPart
  | cons second rest =>
    simp only [List.all_cons, Bool.and_eq_true] at areParts
    obtain ⟨one, isOne⟩ := lowerParts_cons env areParts.1 (second :: rest)
    obtain ⟨two, isTwo⟩ := lowerParts_cons env areParts.2.1 rest
    rw [isOne, isTwo, joining]
    · simp
    · simp

theorem fstring_lowers {parts : List Expr} (position : Position) (raw : String)
    (areParts : parts.all Expr.isPart = true)
    (fields : ∀ position value conversion spec, Expr.field position value conversion spec ∈ parts →
      Lowers runtime none (formatting conversion (lower env value) (lowerSpec env spec))
        (runtime.eval (.field position value conversion spec))) :
    Lowers runtime none (joining env (lowerParts env parts))
      (runtime.eval (.fstring position raw parts)) := by
  rw [Runtime.eval]
  cases text : Expr.onlyText? parts with
  | none =>
    obtain ⟨operands, lowerings, actions, each⟩ := lowerParts_operands areParts fields
    rw [joining_eq_applying areParts text, ← lowerings, ← actions]
    exact joined_lowers each
  | some value =>
    have only : joining env (lowerParts env parts) = return .ofText value := by
      unfold Expr.onlyText? at text
      split at text
      · simp_all [lowerParts, joining]
      · simp_all [lowerParts, joining]
      · simp at text
    rw [only]
    exact .residual .literal

/-! ## Operators -/

theorem negated?_eq_some {position : Position} {op : UnaryOp} {operand number : Expr}
    (negated : Expr.negated? position op operand = some number) : op = .minus ∧
    ∃ inner raw value opposite, operand = .literal inner raw value ∧
      value.negated? = some opposite ∧ number = .literal position ("-" ++ raw) opposite := by
  unfold Expr.negated? at negated
  split at negated
  · rename_i inner raw value
    by_cases empty : raw.isEmpty
    · simp [empty] at negated
    · simp only [empty, Bool.false_eq_true, if_false, Option.map_eq_some_iff] at negated
      obtain ⟨opposite, found, rfl⟩ := negated
      exact ⟨rfl, inner, raw, value, opposite, rfl, found, rfl⟩
  · simp at negated

theorem unary_lowers {operand : Expr} (position : Position) (op : UnaryOp)
    (lowers : Lowers runtime operand.label? (lower env operand) (runtime.eval operand)) :
    Lowers runtime none
      (match Expr.negated? position op operand with
      | some number => return number
      | none => supporting op.function [lower env operand])
      (runtime.eval (.unary position op operand)) := by
  rw [Runtime.eval]
  cases negated : Expr.negated? position op operand with
  | none =>
    have each : ∀ item ∈ [operandOf runtime env operand],
        Lowers runtime item.label item.lowering item.action := by
      simpa [operandOf] using lowers
    simpa [operandOf, List.mapM_cons] using supporting_lowers (supportOperation?_unary op) each
  | some number =>
    obtain ⟨rfl, inner, raw, value, opposite, rfl, found, rfl⟩ := negated?_eq_some negated
    have known : (do
          let operand ← runtime.eval (.literal inner raw value)
          runtime.perform (.unary .minus) [operand]) =
        runtime.eval (.literal position ("-" ++ raw) opposite) := by
      simp [Runtime.eval, Runtime.perform, runtime.known_minus found]
    rw [known]
    exact .residual .literal

theorem slice_lowers {first last step : Option Expr} (position : Position)
    (firstLowers : ∃ label,
      Lowers runtime label (lowerOrAbsent env first) (runtime.evalOrAbsent first))
    (lastLowers : ∃ label,
      Lowers runtime label (lowerOrAbsent env last) (runtime.evalOrAbsent last))
    (stepLowers : ∃ label,
      Lowers runtime label (lowerOrAbsent env step) (runtime.evalOrAbsent step)) :
    Lowers runtime none
      (supporting "slice"
        [lowerOrAbsent env first, lowerOrAbsent env last, lowerOrAbsent env step])
      (runtime.eval (.slice position first last step)) := by
  obtain ⟨firstLabel, firstLowers⟩ := firstLowers
  obtain ⟨lastLabel, lastLowers⟩ := lastLowers
  obtain ⟨stepLabel, stepLowers⟩ := stepLowers
  have each : ∀ operand ∈ [(⟨_, firstLabel, _⟩ : Operand Value Error), ⟨_, lastLabel, _⟩,
      ⟨_, stepLabel, _⟩], Lowers runtime operand.label operand.lowering operand.action :=
    List.forall_mem_cons.mpr ⟨firstLowers, List.forall_mem_cons.mpr ⟨lastLowers,
      List.forall_mem_singleton.mpr stepLowers⟩⟩
  have found : supportOperation? "slice" = some .slice := rfl
  rw [Runtime.eval]
  simpa [List.mapM_cons] using supporting_lowers found each

theorem logical_lowers {left right : Expr} (position : Position) (op : LogicalOp)
    (leftLowers : Lowers runtime left.label? (lower env left) (runtime.eval left))
    (rightLowers : Lowers runtime right.label? (lower env right) (runtime.eval right)) :
    Lowers runtime none (shortCircuit op position (lower env left) (lower env right))
      (runtime.eval (.logical left position op right)) := by
  have meaning : runtime.eval (.logical left position op right) = (do
      let value ← runtime.eval left
      let holds ← runtime.test value
      if holds == goesOnWith op then runtime.eval right else return value) := by
    rw [Runtime.eval]
    refine bind_congr fun value => bind_congr fun holds => ?_
    cases op <;> cases holds <;> rfl
  rw [meaning]
  exact shortCircuit_lowers op position leftLowers rightLowers

theorem zip_lowerList (rights : List Expr) :
    rights.zip (lowerList env rights) = rights.map fun right => (right, lower env right) := by
  induction rights with
  | nil => rfl
  | cons right rights induction => simp [lowerList, induction]

theorem actions_zip (ops : List CompareOp) (rights : List Expr) :
    Comparands.actions runtime (ops.zip (rights.map fun right => (right, lower env right))) =
      List.zipWith (compared runtime) ops rights := by
  simp [Comparands.actions, List.zip, List.map_zipWith, List.zipWith_map_right]

theorem compare_lowers {left : Expr} {ops : List CompareOp} {rights : List Expr}
    (simple : (Expr.compare left ops rights).isSimple = true)
    (leftLowers : Lowers runtime left.label? (lower env left) (runtime.eval left))
    (each : ∀ right ∈ rights, Lowers runtime right.label? (lower env right) (runtime.eval right)) :
    Lowers runtime none
      (chained (lower env left) (ops.zip (rights.zip (lowerList env rights))))
      (runtime.eval (.compare left ops rights)) := by
  simp only [Expr.isSimple, Bool.and_eq_true, List.all_eq_true, bne_iff_ne, beq_iff_eq,
    Expr.areSimple_iff] at simple
  obtain ⟨⟨⟨⟨-, notIn⟩, nonempty⟩, sameLength⟩, rightsSimple⟩ := simple
  have comparand : ∀ op ∈ ops, ∀ right ∈ rights,
      IsComparand runtime op right (lower env right) := by
    intro op isOp right isRight
    refine ⟨notIn op isOp, ⟨_, each right isRight⟩, fun reusable => ?_⟩
    obtain ⟨position, raw, value, rfl⟩ :=
      Expr.literal_of_isReusable (rightsSimple right isRight) reusable
    exact ⟨position, raw, value, rfl, rfl⟩
  rw [zip_lowerList]
  cases ops with
  | nil => simp at nonempty
  | cons op ops => cases rights with
  | nil => simp at sameLength
  | cons right rights =>
    have later : ∀ item ∈ ops.zip (rights.map fun right => (right, lower env right)),
        IsComparand runtime item.1 item.2.1 item.2.2 := by
      intro item member
      obtain ⟨isOp, isRight⟩ := List.of_mem_zip member
      obtain ⟨other, isOther, same⟩ := List.mem_map.mp isRight
      rw [← same]
      exact comparand _ (by simp [isOp]) other (by simp [isOther])
    have meaning : runtime.eval (.compare left (op :: ops) (right :: rights)) = (do
        let left ← runtime.eval left
        return Prod.fst (← (List.zipWith (compared runtime) ops rights).foldl (link runtime)
          (compared runtime op right left))) := by
      rw [Runtime.eval]
      refine bind_congr fun left => ?_
      rw [evalChain_eq_foldl left (by simpa using sameLength), map_eq_pure_bind]
    rw [meaning, ← actions_zip]
    exact chained_lowers leftLowers (comparand op (by simp) right (by simp)) later

/-! ## Expressions -/

variable {items : List Expr}

theorem operandOf_lowers
    (each : ∀ item ∈ items, Lowers runtime item.label? (lower env item) (runtime.eval item)) :
    ∀ operand ∈ items.map (operandOf runtime env),
      Lowers runtime operand.label operand.lowering operand.action :=
  List.forall_mem_map.mpr each

theorem user_call_lowers {callee : Expr} (closing : Position)
    (simple : callee.isSimple = true) (argumentsSimple : Expr.areSimple items = true)
    (calleeLowers : Lowers runtime callee.label? (lower env callee) (runtime.eval callee))
    (each : ∀ item ∈ items, Lowers runtime item.label? (lower env item) (runtime.eval item)) :
    Lowers runtime none
      (do match ← operands (lower env callee :: (lowerItems env items).map Item.argument) with
        | callee :: arguments => return .call callee arguments closing
        | [] => return .absent)
      (runtime.eval (.call callee items closing)) := by
  have all : ∀ operand ∈ operandOf runtime env callee :: items.map (operandOf runtime env),
      Lowers runtime operand.label operand.lowering operand.action :=
    List.forall_mem_cons.mpr ⟨calleeLowers, operandOf_lowers each⟩
  have labels : (items.map (operandOf runtime env)).map Operand.label = items.map Expr.label? := by
    simp [operandOf]
  have meaning : runtime.eval (.call callee items closing) = (do
      let values ← (callee :: items).map (operandOf runtime env) |>.mapM Operand.action
      runtime.perform (.call (items.map Expr.label?)) values) := by
    rw [Runtime.eval, Expr.operation?_of_isSimple simple, evalAll_eq_mapM runtime env]
    simp [operandOf, List.mapM_cons]
  rw [meaning, lowerItems_arguments runtime env argumentsSimple, ← labels]
  -- the operands are known from `all`, and could not be read off the goal
  have called := call_lowers closing all
  exact called

/-- A display of simple items has nothing to unpack. -/
theorem plain_lowers {build : List Expr → Expr} {unpacked : Lowering Expr}
    {action : Run Value Error Value} (simple : Expr.areSimple items = true)
    (lowers : Lowers runtime none
      (do return build (← operands ((items.map (operandOf runtime env)).map Operand.lowering)))
      action) :
    Lowers runtime none
      (if (lowerItems env items).any Item.isUnpacked then unpacked
        else do return build (← operands ((lowerItems env items).map Item.argument)))
      action := by
  rw [lowerItems_any env simple, lowerItems_arguments runtime env simple]
  exact lowers

mutual

/-- Lowered, a simple expression means what it meant. Its operands are simple too, so
each case rests on those of its parts. -/
theorem lower_lowers (runtime : Runtime Value Error) (env : Env) :
    ∀ expr : Expr, expr.isSimple = true →
      Lowers runtime expr.label? (lower env expr) (runtime.eval expr)
  | .name _ id, simple => .residual (.user (by simpa [Expr.isSimple] using simple))
  | .literal .., _ => .residual .literal
  | .fstring position raw parts, simple => by
    simp only [Expr.isSimple, Bool.and_eq_true] at simple
    exact (fstring_lowers position raw simple.1 (fields_lower runtime env parts simple.2)).touch
  | .field position value conversion spec, simple => by
    simp only [Expr.isSimple, Bool.and_eq_true] at simple
    exact (field_lowers position conversion (lower_lowers runtime env value simple.1)
      (lowerSpec_lowers runtime env spec simple.2)).touch
  | .call callee arguments closing, simple => by
    simp only [Expr.isSimple, Bool.and_eq_true] at simple
    exact user_call_lowers closing simple.1 simple.2 (lower_lowers runtime env callee simple.1)
      (lowerList_lowers runtime env arguments simple.2)
  | .keyword position id value, simple => by
    rw [Runtime.eval]
    exact keyword_lowers position id (lower_lowers runtime env value simple)
  | .member object position id, simple => by
    rw [Runtime.eval]
    exact memberOf_lowers env object position id (lower_lowers runtime env object simple)
  | .subscript object key _, simple => by
    simp only [Expr.isSimple, Bool.and_eq_true] at simple
    rw [Runtime.eval]
    exact (supporting_pair_lowers rfl (lower_lowers runtime env object simple.1)
      (lower_lowers runtime env key simple.2)).touch
  | .slice position first last step, simple => by
    simp only [Expr.isSimple, Bool.and_eq_true] at simple
    exact (slice_lowers position (lowerOrAbsent_lowers runtime env first simple.1.1)
      (lowerOrAbsent_lowers runtime env last simple.1.2)
      (lowerOrAbsent_lowers runtime env step simple.2)).touch
  | .binary left _ op right, simple => by
    simp only [Expr.isSimple, Bool.and_eq_true] at simple
    rw [Runtime.eval]
    exact (supporting_pair_lowers (supportOperation?_binary op)
      (lower_lowers runtime env left simple.1) (lower_lowers runtime env right simple.2)).touch
  | .logical left position op right, simple => by
    simp only [Expr.isSimple, Bool.and_eq_true] at simple
    exact logical_lowers position op (lower_lowers runtime env left simple.1)
      (lower_lowers runtime env right simple.2)
  | .compare left ops rights, simple => by
    have parts := simple
    simp only [Expr.isSimple, Bool.and_eq_true] at parts
    exact compare_lowers simple (lower_lowers runtime env left parts.1.1.1.1)
      (lowerList_lowers runtime env rights parts.2)
  | .unary position op operand, simple =>
    (unary_lowers position op (lower_lowers runtime env operand simple)).touch
  | .conditional test whenTrue whenFalse, simple => by
    simp only [Expr.isSimple, Bool.and_eq_true] at simple
    rw [Runtime.eval]
    exact choosing_lowers (lower_lowers runtime env test simple.1.1)
      (lower_lowers runtime env whenTrue simple.1.2) (lower_lowers runtime env whenFalse simple.2)
  | .list opening items closing, simple => by
    have each := operandOf_lowers (lowerList_lowers runtime env items simple)
    rw [Runtime.eval, evalAll_eq_mapM runtime env]
    exact plain_lowers simple (display_lowers (.list opening · closing)
      (fun residuals => ⟨.list residuals, rfl, by rw [Runtime.eval]⟩) each)
  | .tuple opening items closing, simple => by
    have each := operandOf_lowers (lowerList_lowers runtime env items simple)
    rw [Runtime.eval, evalAll_eq_mapM runtime env]
    exact plain_lowers simple (tuple_lowers opening closing each)
  | .set opening items closing, simple => by
    have each := operandOf_lowers (lowerList_lowers runtime env items simple)
    rw [Runtime.eval, evalAll_eq_mapM runtime env]
    exact plain_lowers simple (display_lowers (.set opening · closing)
      (fun residuals => ⟨.set residuals, rfl, by rw [Runtime.eval]⟩) each)
  | .dict opening items closing, simple => by
    have each := operandOf_lowers (lowerList_lowers runtime env items simple)
    rw [Runtime.eval, evalAll_eq_mapM runtime env]
    exact plain_lowers simple (display_lowers (.dict opening · closing)
      (fun residuals => ⟨.dict residuals, rfl, by rw [Runtime.eval]⟩) each)
  | .entry key value, simple => by
    simp only [Expr.isSimple, Bool.and_eq_true] at simple
    have each : ∀ operand ∈ [operandOf runtime env key, operandOf runtime env value],
        Lowers runtime operand.label operand.lowering operand.action :=
      List.forall_mem_cons.mpr ⟨lower_lowers runtime env key simple.1,
        List.forall_mem_singleton.mpr (lower_lowers runtime env value simple.2)⟩
    have paired := entry_lowers each
    rw [Runtime.eval]
    exact paired
  | .named target value, simple => by
    simp only [Expr.isSimple, Bool.and_eq_true, Bool.not_eq_true'] at simple
    rw [Runtime.eval]
    exact assigning_lowers (lower_lowers runtime env value simple.2) simple.1

theorem lowerList_lowers (runtime : Runtime Value Error) (env : Env) :
    ∀ items : List Expr, Expr.areSimple items = true →
      ∀ item ∈ items, Lowers runtime item.label? (lower env item) (runtime.eval item)
  | [], _ => by simp
  | first :: rest, simple => by
    simp only [Expr.areSimple, Bool.and_eq_true] at simple
    exact List.forall_mem_cons.mpr
      ⟨lower_lowers runtime env first simple.1, lowerList_lowers runtime env rest simple.2⟩

theorem lowerOrAbsent_lowers (runtime : Runtime Value Error) (env : Env) :
    ∀ value : Option Expr, Expr.isSimpleOption value = true →
      ∃ label, Lowers runtime label (lowerOrAbsent env value) (runtime.evalOrAbsent value)
  | none, _ => ⟨none, .residual .literal⟩
  | some value, simple => ⟨value.label?, lower_lowers runtime env value simple⟩

theorem lowerSpec_lowers (runtime : Runtime Value Error) (env : Env) :
    ∀ spec : Option Expr, Expr.isSimpleOption spec = true →
      ∀ item ∈ spec, Lowers runtime item.label? (lower env item) (runtime.eval item)
  | none, _ => by simp
  | some spec, simple => by simpa using lower_lowers runtime env spec simple

theorem fields_lower (runtime : Runtime Value Error) (env : Env) :
    ∀ parts : List Expr, Expr.areSimple parts = true →
      ∀ position value conversion spec, .field position value conversion spec ∈ parts →
        Lowers runtime none (formatting conversion (lower env value) (lowerSpec env spec))
          (runtime.eval (.field position value conversion spec))
  | [], _ => by simp
  | first :: rest, simple => by
    simp only [Expr.areSimple, Bool.and_eq_true] at simple
    have later := fields_lower runtime env rest simple.2
    cases first with
    | field here inner made format =>
      simp only [Expr.isSimple, Bool.and_eq_true] at simple
      have first := field_lowers here made (lower_lowers runtime env inner simple.1.1)
        (lowerSpec_lowers runtime env format simple.1.2)
      intro position value conversion spec member
      rcases List.mem_cons.mp member with same | member
      · cases same
        exact first
      · exact later position value conversion spec member
    | _ =>
      intro position value conversion spec member
      exact later position value conversion spec (by simpa using member)

end

/-! ## Meaning -/

/-- No rule applies to the explicit form of an expression any more. -/
theorem explicit_gives (env : Env) (expr : Expr) :
    Desugar.Gives Failure.IsRefusal
      (fun (statements, value) => Stmt.areLowered ⟨env.options, false⟩ statements = true ∧
        value.isLowered ⟨env.options, false⟩ = true)
      (explicit (lower env expr)) :=
  (lower_makes env rfl expr [] (by simp)).bind fun (_, _) ⟨made, settled⟩ =>
    (Deferred.runAll_gives settled).bind fun _ each =>
      .pure ⟨Stmt.areLowered_iff.mpr each, made.1⟩

/-- Lowering a simple expression always succeeds, and no rule applies to what it gives.
From any state, the statements that it sets aside, and then the residual, end like the
expression itself, with the same value or for the same reason, and in the same world: the
same operations were asked for and the same values tested, with the same operands and in the
same order, and user names are bound alike. -/
theorem lower_preserves_meaning (runtime : Runtime Value Error) (env : Env) (expr : Expr)
    (simple : expr.isSimple = true) (context : Context) (steps : List Step) :
    ∃ statements value after later,
      explicit (lower env expr) context steps = (.ok ((statements, value), after), later) ∧
      Stmt.areLowered ⟨env.options, false⟩ statements = true ∧
      value.isLowered ⟨env.options, false⟩ = true ∧
      ∀ state : State Value,
        let explicitly := (do runtime.execAll statements; runtime.eval value) state
        let directly := runtime.eval expr state
        explicitly.1 = directly.1 ∧ explicitly.2.world = directly.2.world ∧
          directly.1 ≠ .error .meaningless := by
  have means : Means runtime [] (lower env expr) (fun (_ : Unit) _ => True) Same
      fun _ => runtime.eval expr :=
    (lower_lowers runtime env expr simple).means _ _ fun _ _ => rfl
  obtain ⟨⟨statements, value⟩, after, later, ran, -, -, -, refines⟩ :=
    means context (by simp) steps
  obtain ⟨statementsLowered, valueLowered⟩ := (explicit_gives env expr).holds_of_run ran
  refine ⟨statements, value, after, later, ran, statementsLowered, valueLowered,
    fun state => ?_⟩
  obtain ⟨sameEnd, sameWorld⟩ := (refines () state state rfl trivial).same
  exact ⟨sameEnd, sameWorld, runtime.eval_meaningful simple state⟩

/-- Answers every operation with how many there were before it, and binds `x` to that. Of all
tests, those of `None` are seen, and bind `x` too. -/
def countingRuntime : Runtime Constant Unit where
  constant := id
  tuple _ := .ellipsis
  joiner := .text "join"
  known?
    | .unary .minus, [number] => number.negated?
    | .member, [.text "", .text "join"] => some (.text "join")
    | _, _ => none
  respond world _ _ :=
    let count := Constant.integer world.history.length
    (.ok count, Function.update world.names "x" (some count))
  truth world value :=
    let names := Function.update world.names "x" (some (.integer world.history.length))
    match value with
    | .boolean value => (.ok value, names)
    | _ => (.ok true, names)
  isQuiet value := value != .none
  known_join := rfl
  known_minus found := found
  truth_boolean _ _ := rfl
  isQuiet_boolean _ := rfl
  isQuiet_known found := by cases found
  isQuiet_respond found := by
    cases found
    rfl

/-- Adds to `x` what a call gives, if `y` counts as true. -/
def sumWithCall : Expr :=
  .binary (.ofName "x") .unknown .add
    (.conditional (.ofName "y") (.call (.ofName "f") [] .unknown) (.ofNat 0))

/-- What `x` was before the test and the call is added, though both bind `x` anew. -/
theorem sumWithCall_preserved :
    ∃ statements value after later,
      explicit (lower ⟨{}, .moduleFrame⟩ sumWithCall) {} [] =
        (.ok ((statements, value), after), later) ∧
      ∀ temporaries,
        let names := fun name => if name = "x" then some (Constant.integer 7) else some .none
        let ended := (do countingRuntime.execAll statements; countingRuntime.eval value)
          ⟨⟨[], names⟩, temporaries⟩
        ended.1 = .ok (.integer 2) ∧ ended.2.world.history =
          [⟨.truth, [.none]⟩, ⟨.call [], [.none]⟩,
            ⟨.binary .add, [.integer 7, .integer 1]⟩] := by
  obtain ⟨statements, value, after, later, ran, -, -, same⟩ :=
    lower_preserves_meaning countingRuntime ⟨{}, .moduleFrame⟩ sumWithCall (by decide) {} []
  refine ⟨statements, value, after, later, ran, fun temporaries => ?_⟩
  obtain ⟨result, world, -⟩ := same ⟨⟨[], fun name =>
    if name = "x" then some (Constant.integer 7) else some .none⟩, temporaries⟩
  exact ⟨result.trans rfl, (congrArg World.history world).trans rfl⟩

end Lowering
end Unsugar
