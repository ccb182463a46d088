import Unsugar.Proofs.Grammar.Statement
import Unsugar.Proofs.Judgement
import Unsugar.Proofs.Lowering.Parts
import Unsugar.Proofs.Lowering.Settled

/-! When lowering sets statements aside. Whether it does can be read off an expression
before it is lowered: the expression asks for statements if one of its nodes does, and
lowering an expression that the grammar can give sets statements aside exactly then. -/

namespace Unsugar

open Judgement

/-! ## Nodes that ask for statements -/

namespace Expr

/-- Whether a node that a walk has come to asks for statements. -/
def asks (visits : List Visit) : Bool :=
  visits.any (nodeNeedsStatements ·.node)

@[simp] theorem asks_nil : asks [] = false := rfl

@[simp] theorem asks_append (first second : List Visit) :
    asks (first ++ second) = (asks first || asks second) :=
  List.any_append

@[simp] theorem asks_visit (depth : Nat) (node : Node) (below : List Visit) :
    asks (node.visit (fun _ => true) depth below) = (nodeNeedsStatements node || asks below) := by
  simp [asks, Node.visit]

theorem needsStatements_eq_asks (expr : Expr) :
    expr.needsStatements = asks (expr.walk (fun _ => true) 0) :=
  expr.needsStatements_eq

end Expr

/-- An expression that is read is well-formed. -/
theorem parseExpression_wellFormed {file : String} {text : List Char} {expr : Expr}
    (read : parseExpression file text = .ok expr) : expr.isWellFormed = true := by
  have whole : Parser.GivesGrammatical wholeExpression := by
    refine (Grammar.withExpressions_yields fun _ => Grammar.expressionList_grammatical).bind
      fun expr valid => ?_
    have ended : Parser.GivesGrammatical (do
        if !(← Parser.sees .endOfFile) then Parser.unexpected .endOfExpression
        return expr) :=
      .after fun _ => .ite (.after fun _ => .pure valid) (.pure valid)
    exact .after fun _ => .ite (.after fun _ => ended) ended
  exact expr.isWellFormed_of_isGrammatical (whole.of_run read)

namespace Lowering

variable {α β : Type}

/-! ## Setting statements aside -/

/-- What lowering adds to the statements set aside: something or nothing, and each
addition gives statements when it is run. -/
def IsAddition (needs : Bool) (more : List Deferred) : Prop :=
  more.isEmpty = !needs ∧ ∀ deferred ∈ more, ofDesugar.Gives (· ≠ []) deferred

/-- Lowering that, whenever it succeeds, sets statements aside if `needs` says so, and
otherwise sets nothing aside. -/
def Emits (needs : Bool) (action : Lowering α) : Prop :=
  ∀ ahead, ofDesugar.Gives (fun (_, after) => ∃ more, after = ahead ++ more ∧ IsAddition needs more)
    (action.run ahead)

theorem IsAddition.append {first second : Bool} {front back : List Deferred}
    (here : IsAddition first front) (later : IsAddition second back) :
    IsAddition (first || second) (front ++ back) := by
  have together : (front ++ back).isEmpty = (front.isEmpty && back.isEmpty) := by
    cases front <;> rfl
  refine ⟨by rw [together, here.1, later.1, Bool.not_or], fun deferred member => ?_⟩
  rcases List.mem_append.mp member with member | member
  · exact here.2 deferred member
  · exact later.2 deferred member

/-- Two things that hold of the values of a transformation hold of them together. -/
theorem ofDesugar_both {holds more : α → Prop} {action : Desugar α}
    (first : ofDesugar.Gives holds action) (second : ofDesugar.Gives more action) :
    ofDesugar.Gives (fun value => holds value ∧ more value) action := by
  intro context steps
  have here := first context steps
  have there := second context steps
  revert here there
  rcases (action.run context steps).1 with failure | result <;> intro here there
  · trivial
  · exact ⟨here, there⟩

namespace Emits

variable {needs other : Bool}

theorem pure (value : α) : Emits false (Pure.pure value : Lowering α) :=
  fun _ => ofDesugar.pure ⟨[], by simp, rfl, by simp⟩

theorem bind {action : Lowering α} {next : α → Lowering β} (first : Emits needs action)
    (rest : ∀ value, Emits other (next value)) : Emits (needs || other) (action >>= next) := by
  intro ahead
  rw [StateT.run_bind]
  refine ofDesugar.bind (first ahead) fun (value, middle) ⟨front, extended, added⟩ => ?_
  refine ofDesugar_lenient.imp (rest value middle) fun (_, after) ⟨back, further, more⟩ => ?_
  exact ⟨front ++ back, by rw [further, extended, List.append_assoc], added.append more⟩

/-- A step of the transformation, of which something is known, sets nothing aside. -/
theorem lifted {holds : α → Prop} {action : Desugar α} {next : α → Lowering β}
    (given : ofDesugar.Gives holds action)
    (rest : ∀ value, holds value → Emits needs (next value)) :
    Emits needs ((liftM action : Lowering α) >>= next) := by
  intro ahead
  have ran : ofDesugar.Gives (fun result => holds result.1 ∧ result.2 = ahead)
      ((liftM action : Lowering α).run ahead) := by
    change ofDesugar.Gives _ (action >>= fun value => Pure.pure (value, ahead))
    exact ofDesugar.bind given fun _ valid => ofDesugar.pure ⟨valid, rfl⟩
  rw [StateT.run_bind]
  refine ofDesugar.bind ran fun (value, _) ⟨valid, same⟩ => ?_
  rw [same]
  exact rest value valid ahead

theorem lift (action : Desugar α) : Emits false (liftM action : Lowering α) := by
  have always : ofDesugar.Gives (fun _ => True) action :=
    ofDesugar_lenient.always _ fun _ => trivial
  have bound : Emits false ((liftM action : Lowering α) >>= Pure.pure) :=
    lifted always fun value _ => pure value
  simpa using bound

theorem touch : Emits false Lowering.touch := .lift _

theorem fresh (base : String) : Emits false (Lowering.fresh base) := .lift _

theorem emit {statements : Deferred} (given : ofDesugar.Gives (· ≠ []) statements) :
    Emits true (Lowering.emit statements) :=
  fun _ => ofDesugar.pure ⟨[statements], rfl, rfl, by simpa using given⟩

/-- What comes after a computation that sets nothing aside decides. -/
theorem after {action : Lowering α} {next : α → Lowering β} (first : Emits false action)
    (rest : ∀ value, Emits other (next value)) : Emits other (action >>= next) := by
  simpa using first.bind rest

/-- What comes after may depend on what is known of the value. -/
theorem known {holds : α → Prop} {action : Lowering α} {next : α → Lowering β}
    (first : Emits false action) (given : ofLowering.Gives holds action)
    (rest : ∀ value, holds value → Emits needs (next value)) : Emits needs (action >>= next) := by
  intro ahead
  have both : ofDesugar.Gives (fun result => holds result.1 ∧ result.2 = ahead)
      (action.run ahead) := by
    refine ofDesugar_both (given ahead) (ofDesugar_lenient.imp (first ahead) ?_)
    rintro ⟨_, after⟩ ⟨more, extended, empty, _⟩
    obtain rfl : more = [] := by simpa using empty
    simpa using extended
  rw [StateT.run_bind]
  refine ofDesugar.bind both fun (value, _) ⟨valid, same⟩ => ?_
  rw [same]
  exact rest value valid ahead

/-- Nothing is set aside while the value is put to use. -/
theorem finish {action : Lowering α} {build : α → β} (first : Emits needs action) :
    Emits needs (do return build (← action)) := by
  simpa using first.bind fun value => .pure (build value)

/-- Whatever comes later, there are statements set aside. -/
theorem already {action : Lowering α} {next : α → Lowering β} (first : Emits true action)
    (rest : ∀ value, Emits other (next value)) : Emits true (action >>= next) := by
  simpa using first.bind rest

end Emits

/-! ## Statements -/

/-- A statement that is finished is there. -/
theorem flush_ne_nil (build : Lowering Stmt) : ofDesugar.Gives (· ≠ []) (flush build) :=
  ofDesugar_lenient.skip _ fun _ => ofDesugar_lenient.skip _ fun _ => ofDesugar.pure (by simp)

theorem storing_ne_nil (name : String) (value : Lowering Expr) :
    ofDesugar.Gives (· ≠ []) (storing name value) :=
  flush_ne_nil _

/-! ## Operands -/

theorem save_emits (value : Expr) : Emits true (save value) :=
  (Emits.fresh "tmp").after fun _ =>
    (Emits.emit (ofDesugar.pure (by simp))).already fun _ => .pure _

/-- What is set aside to save a value is known when the value is. -/
theorem hoist_emits (value : Expr) : ∃ needs, Emits needs (hoist value) := by
  fun_induction hoist value with
  | case1 _ _ _ induction => exact induction.imp fun _ inner => inner.finish
  | case2 _ _ _ induction => exact induction.imp fun _ inner => inner.finish
  | case3 _ _ keyInduction valueInduction =>
    obtain ⟨first, key⟩ := keyInduction
    obtain ⟨second, value⟩ := valueInduction
    exact ⟨first || second, key.bind fun _ => value.finish⟩
  | case4 => exact ⟨false, .pure _⟩
  | case5 => exact ⟨true, save_emits _⟩
  | case6 => exact ⟨false, .pure _⟩
  | case7 => exact ⟨true, save_emits _⟩

theorem hoistAll_emits (values : List Expr) : ∃ needs, Emits needs (values.mapM hoist) := by
  induction values with
  | nil =>
    rw [List.mapM_nil]
    exact ⟨false, .pure _⟩
  | cons first rest induction =>
    obtain ⟨here, firstEmits⟩ := hoist_emits first
    obtain ⟨later, restEmits⟩ := induction
    rw [List.mapM_cons]
    exact ⟨here || later, firstEmits.bind fun _ => restEmits.finish⟩

/-- Computations of which at least one sets statements aside, or none. -/
inductive EmitsAny : Bool → List (Lowering Expr) → Prop
  | nil : EmitsAny false []
  | cons {here later : Bool} {first : Lowering Expr} {rest : List (Lowering Expr)} :
      Emits here first → EmitsAny later rest → EmitsAny (here || later) (first :: rest)

namespace EmitsAny

theorem append {first second : Bool} {front back : List (Lowering Expr)}
    (here : EmitsAny first front) (later : EmitsAny second back) :
    EmitsAny (first || second) (front ++ back) := by
  induction here with
  | nil => simpa using later
  | cons emits _ induction =>
    rw [Bool.or_assoc]
    exact .cons emits induction

theorem singleton {needs : Bool} {action : Lowering Expr} (emits : Emits needs action) :
    EmitsAny needs [action] := by
  simpa using cons emits nil

theorem pair {first second : Bool} {before after : Lowering Expr} (here : Emits first before)
    (later : Emits second after) : EmitsAny (first || second) [before, after] :=
  .cons here (singleton later)

end EmitsAny

/-- What was set aside elsewhere joins the statements that wait. -/
theorem append_emits {needs : Bool} {more : List Deferred} (added : IsAddition needs more) :
    Emits needs (modify (· ++ more) : Lowering Unit) :=
  fun _ => ofDesugar.pure ⟨more, rfl, added⟩

theorem operandsAfter_emits {needs : Bool} {items : List (Lowering Expr)}
    (each : EmitsAny needs items) : ∀ done : List Expr, Emits needs (operandsAfter done items) := by
  induction each with
  | nil => exact fun done => .pure done
  | @cons here later first rest emits _ induction =>
    intro done
    refine Emits.lifted (emits []) fun (value, ahead) ⟨more, same, added⟩ => ?_
    obtain rfl : ahead = more := same
    have joined : ∀ done : List Expr,
        Emits (here || later) (do modify (· ++ ahead); operandsAfter (done ++ [value]) rest) :=
      fun done => (append_emits added).bind fun _ => induction _
    cases here with
    | false =>
      simp only [added.1, Bool.not_false, if_true]
      exact (Emits.pure done).after joined
    | true =>
      obtain ⟨saves, hoists⟩ := hoistAll_emits done
      simp only [added.1, Bool.not_true]
      simpa using hoists.bind joined

theorem operands_emits {needs : Bool} {items : List (Lowering Expr)} (each : EmitsAny needs items) :
    Emits needs (operands items) :=
  operandsAfter_emits each []

/-! ## Calls and operators -/

theorem applying_emits {first later : Bool} {callee : Lowering Expr}
    {arguments : List (Lowering Expr)} (calleeEmits : Emits first callee)
    (each : EmitsAny later arguments) : Emits (first || later) (applying callee arguments) := by
  rw [← Bool.or_false (first || later)]
  refine (operands_emits (.cons calleeEmits each)).bind fun values => ?_
  cases values <;> exact .pure _

theorem supporting_emits {needs : Bool} {id : String} {arguments : List (Lowering Expr)}
    (each : EmitsAny needs arguments) : Emits needs (supporting id arguments) :=
  (operands_emits each).finish

theorem assigning_emits (name : String) (value : Lowering Expr) :
    Emits true (assigning name value) :=
  Emits.touch.after fun _ => (Emits.emit (storing_ne_nil name value)).finish

theorem shortCircuit_emits (op : LogicalOp) (position : Position) (left right : Lowering Expr) :
    Emits true (shortCircuit op position left right) := by
  refine Emits.touch.after fun _ => (Emits.fresh "tmp").after fun result => ?_
  refine @Emits.already Unit Expr true _ _ (Emits.emit (storing_ne_nil result left)) fun _ => ?_
  refine (Emits.emit ?_).finish
  exact ofDesugar_lenient.skip _ fun _ => ofDesugar.pure (by simp)

theorem choosing_emits (test whenTrue whenFalse : Lowering Expr) :
    Emits true (choosing test whenTrue whenFalse) :=
  Emits.touch.after fun _ => (Emits.fresh "tmp").after fun _ =>
    (Emits.emit (flush_ne_nil _)).finish

theorem memberOf_emits {needs : Bool} {env : Env} {object : Expr} {position : Position}
    {id : String} {lowered : Lowering Expr} (emits : Emits needs lowered) :
    Emits needs (memberOf env object position id lowered) := by
  unfold memberOf
  split
  · refine Emits.touch.after fun _ => ?_
    simpa using supporting_emits (EmitsAny.pair emits (.pure (Expr.ofText id)))
  · exact emits.finish

/-! ## Displays with unpacked items -/

theorem Item.arguments_emit : ∀ {needs : Bool} {items : List (Item (Lowering Expr))},
    EmitsAny needs (items.map Item.value) → EmitsAny needs (items.map Item.argument)
  | _, [], .nil => .nil
  | _, .plain _ :: _, .cons emits rest => .cons emits (arguments_emit rest)
  | _, .unpacked .. :: _, .cons emits rest => .cons emits.finish (arguments_emit rest)

/-- The segments of a display set aside together what its items do. -/
theorem Item.segments_emit {gather : List (Lowering Expr) → Lowering Expr}
    {convert : Lowering Expr → Lowering Expr}
    (gathers : ∀ {needs values}, EmitsAny needs values → Emits needs (gather values))
    (converts : ∀ {needs value}, Emits needs value → Emits needs (convert value)) :
    ∀ {before later : Bool} {gathered : List (Lowering Expr)}
      {items : List (Item (Lowering Expr))}, EmitsAny before gathered →
      EmitsAny later (items.map Item.value) →
      EmitsAny (before || later) (segments gather convert gathered items) := by
  have run : ∀ {before : Bool} {gathered : List (Lowering Expr)}, EmitsAny before gathered →
      EmitsAny before (if gathered.isEmpty then [] else [gather gathered]) := by
    intro before gathered each
    cases each with
    | nil => exact .nil
    | cons emits rest => exact .singleton (gathers (.cons emits rest))
  intro before later gathered items each rest
  induction items generalizing before later gathered with
  | nil =>
    cases rest
    simpa [segments] using run each
  | cons item items induction =>
    cases item with
    | plain value =>
      obtain ⟨emits, rest⟩ := rest
      rw [← Bool.or_assoc]
      exact induction (each.append (.singleton ‹_›)) ‹_›
    | unpacked position op value =>
      cases rest with
      | cons emits rest =>
        refine (run each).append (.cons (converts emits) ?_)
        simpa using induction .nil rest

theorem Item.joined_emits {join : Lowering Expr → Lowering Expr → Lowering Expr}
    {empty : Lowering Expr} (none : Emits false empty)
    (joins : ∀ {first second before after}, Emits first before → Emits second after →
      Emits (first || second) (join before after)) :
    ∀ {needs : Bool} {segments : List (Lowering Expr)}, EmitsAny needs segments →
      Emits needs (joined join empty segments) := by
  intro needs segments each
  cases each with
  | nil => exact none
  | @cons here later first rest emits each =>
    change Emits (here || later) (rest.foldl join first)
    clear none
    induction each generalizing here first with
    | nil => simpa using emits
    | cons next _ induction =>
      rw [← Bool.or_assoc]
      exact induction (joins emits next)

theorem splat_emits {needs : Bool} {items : List (Item (Lowering Expr))}
    (each : EmitsAny needs (items.map Item.value)) : Emits needs (splat items) := by
  refine Item.joined_emits (.pure _) (fun before after => supporting_emits (.pair before after)) ?_
  simpa using Item.segments_emit (fun each => (operands_emits each).finish)
    (fun emits => supporting_emits (.singleton emits)) .nil each

theorem merge_emits {needs : Bool} {items : List (Item (Lowering Expr))}
    (each : EmitsAny needs (items.map Item.value)) : Emits needs (merge items) := by
  refine Item.joined_emits (.pure _) (fun before after => supporting_emits (.pair before after)) ?_
  simpa using Item.segments_emit (fun each => (operands_emits each).finish)
    (fun emits => supporting_emits (.singleton emits)) .nil each

/-- A display sets aside what its items do, whether or not some are unpacked. -/
theorem display_emits {needs : Bool} {items : List (Item (Lowering Expr))}
    {build : List Expr → Expr} {other : Lowering Expr}
    (each : EmitsAny needs (items.map Item.value)) (otherEmits : Emits needs other) :
    Emits needs (if items.any Item.isUnpacked then other
      else do return build (← operands (items.map Item.argument))) := by
  split
  · exact otherEmits
  · exact (operands_emits (Item.arguments_emit each)).finish

/-! ## Formatted strings and comparisons -/

theorem formatting_emits {first second : Bool} {conversion : Option Conversion}
    {value : Lowering Expr} {spec : List (Lowering Expr)} (valueEmits : Emits first value)
    (each : EmitsAny second spec) : Emits (first || second) (formatting conversion value spec) := by
  unfold formatting
  extract_lets converted
  have convertedEmits : Emits first converted := by
    cases conversion with
    | none => exact valueEmits
    | some conversion => simpa using applying_emits (.pure _) (.singleton valueEmits)
  rw [← Bool.false_or (first || second)]
  exact applying_emits (.pure (Expr.builtin "format")) (.cons convertedEmits each)

theorem joining_emits {needs : Bool} {env : Env} {parts : List Part}
    (each : EmitsAny needs (parts.map Part.action)) : Emits needs (joining env parts) := by
  have text : ∀ value, Emits false (pure (.ofText value) : Lowering Expr) := fun _ => .pure _
  unfold joining
  split
  · cases each
    exact .pure _
  · cases each with
    | cons emits rest =>
      cases rest
      exact (Bool.or_false _).symm ▸ emits
  · rw [← Bool.false_or needs]
    exact applying_emits (memberOf_emits (text "")) (.singleton (operands_emits each).finish)

theorem comparing_emits {first second : Bool} {op : CompareOp} {left right : Lowering Expr}
    (leftEmits : Emits first left) (rightEmits : Emits second right) :
    Emits (first || second) (comparing op left right) := by
  have forwards : ∀ id, Emits (first || second) (supporting id [left, right]) := fun _ =>
    supporting_emits (.pair leftEmits rightEmits)
  have backwards : ∀ id, Emits (first || second) (supporting id [right, left]) := fun _ => by
    rw [Bool.or_comm]
    exact supporting_emits (.pair rightEmits leftEmits)
  refine Emits.touch.after fun _ => ?_
  cases op with
  | isIn => exact backwards _
  | notIn => exact supporting_emits (.singleton (backwards _))
  | _ => exact forwards _

/-- A chain sets nothing aside by itself, and has as many comparisons as operands. -/
theorem chain_emits : ∀ (left : Lowering Expr)
    (rights : List (CompareOp × Expr × Lowering Expr)), Emits false (chain left rights)
  | _, [] => .pure _
  | _, [_] => .pure _
  | left, (op, operand, right) :: second :: rest => by
    unfold chain
    split
    · exact (chain_emits _ _).finish
    · exact (Emits.fresh "tmp").after fun _ => (chain_emits _ _).finish

theorem chain_length : ∀ (left : Lowering Expr)
    (rights : List (CompareOp × Expr × Lowering Expr)),
    ofLowering.Gives (·.length = rights.length) (chain left rights)
  | _, [] => ofLowering.pure rfl
  | _, [_] => ofLowering.pure rfl
  | left, (op, operand, right) :: second :: rest => by
    have longer : ∀ left here, ofLowering.Gives (·.length = (second :: rest).length + 1)
        (do return here :: (← chain left (second :: rest))) := fun left here =>
      ofLowering.bind (chain_length left (second :: rest)) fun _ same =>
        ofLowering.pure (congrArg (· + 1) same)
    unfold chain
    split
    · exact longer _ _
    · exact ofLowering_lenient.skip _ fun _ => longer _ _

theorem shortCircuits_emit (op : LogicalOp) (position : Position) :
    ∀ (later : List (Lowering Expr)) (first next : Lowering Expr),
      Emits true ((next :: later).foldl (shortCircuit op position) first)
  | [], first, next => shortCircuit_emits op position first next
  | second :: rest, first, next => by
    rw [List.foldl_cons]
    exact shortCircuits_emit op position rest _ second

/-- The comparisons of a chain of two or more are joined by short circuits. -/
theorem chained_emits {left : Lowering Expr} {rights : List (CompareOp × Expr × Lowering Expr)}
    (several : 1 < rights.length) : Emits true (chained left rights) := by
  unfold chained
  refine (chain_emits left rights).known (chain_length left rights) fun comparisons same => ?_
  have many : 1 < comparisons.length := lt_of_lt_of_eq several same.symm
  match comparisons, many with
  | first :: second :: rest, _ => exact shortCircuits_emit .and .unknown rest first second

/-! ## Expressions -/

theorem declaring_emits {env : Env} {helper : String} {position : Position}
    {targets : List String} : Emits false (declaring env helper position targets) := by
  have frame : Emits false (declarationIn env.frame position) := by
    cases env.frame with
    | moduleFrame => exact .pure _
    | classFrame => exact .lift _
    | functionFrame name => exact (Emits.lift get).finish
  unfold declaring
  split
  · exact .pure _
  · exact frame.after fun _ => (Emits.lift (modify _)).finish

theorem length_lowerList (env : Env) (items : List Expr) :
    (lowerList env items).length = items.length := by
  induction items with
  | nil => rfl
  | cons first rest induction => exact congrArg (· + 1) induction

/-- A number that a sign is put into asks for nothing. -/
theorem asks_of_negated? {position : Position} {op : UnaryOp} {operand number : Expr}
    (found : Expr.negated? position op operand = some number) (depth : Nat) :
    Expr.asks (operand.walk (fun _ => true) depth) = false := by
  unfold Expr.negated? at found
  split at found
  · rfl
  · cases found

open Unsugar.Expr in
mutual

theorem lower_emits (env : Env) : ∀ (expr : Expr) (depth : Nat), expr.isWellFormed = true →
    Emits (asks (expr.walk (fun _ => true) depth)) (lower env expr)
  | .name .., _, _ => .pure _
  | .literal .., _, _ => .pure _
  | .fstring _ _ parts, depth, formed => by
    simp only [isWellFormed, Bool.and_eq_true] at formed
    simp only [walk, asks_visit]
    exact Emits.touch.after fun _ =>
      joining_emits (lowerParts_emit env parts (depth + 1) formed.1 formed.2)
  | .field _ value _ spec, depth, formed => by
    simp only [isWellFormed, Bool.and_eq_true] at formed
    simp only [walk, asks_visit, asks_append, nodeNeedsStatements, Bool.false_or]
    exact Emits.touch.after fun _ => formatting_emits (lower_emits env value _ formed.1)
      (lowerSpec_emit env spec _ formed.2)
  | .call callee arguments _, depth, formed => by
    simp only [isWellFormed, Bool.and_eq_true] at formed
    simp only [walk, asks_visit, asks_append, nodeNeedsStatements, Bool.false_or]
    rw [← Bool.or_false (_ || _)]
    refine (operands_emits (.cons (lower_emits env callee _ formed.1)
      (Item.arguments_emit (lowerItems_emit env arguments _ formed.2)))).bind fun values => ?_
    cases values <;> exact .pure _
  | .keyword _ _ value, depth, formed => by
    simp only [walk, asks_visit, nodeNeedsStatements, Bool.false_or]
    exact (lower_emits env value _ formed).finish
  | .starred _ _ value, depth, formed => by
    simp only [walk, asks_visit, nodeNeedsStatements, Bool.false_or]
    exact (lower_emits env value _ formed).finish
  | .member object _ _, depth, formed => by
    simp only [walk, asks_visit, nodeNeedsStatements, Bool.false_or]
    exact memberOf_emits (lower_emits env object _ formed)
  | .subscript object key _, depth, formed => by
    simp only [isWellFormed, Bool.and_eq_true] at formed
    simp only [walk, asks_visit, asks_append, nodeNeedsStatements, Bool.false_or]
    exact Emits.touch.after fun _ => supporting_emits
      (.pair (lower_emits env object _ formed.1) (lower_emits env key _ formed.2))
  | .slice _ first last step, depth, formed => by
    simp only [isWellFormed, Bool.and_eq_true] at formed
    simp only [walk, asks_visit, asks_append, nodeNeedsStatements, Bool.false_or, Bool.or_assoc]
    exact Emits.touch.after fun _ => supporting_emits
      (.cons (lowerOrAbsent_emits env first _ formed.1.1)
        (.pair (lowerOrAbsent_emits env last _ formed.1.2)
          (lowerOrAbsent_emits env step _ formed.2)))
  | .binary left _ _ right, depth, formed => by
    simp only [isWellFormed, Bool.and_eq_true] at formed
    simp only [walk, asks_visit, asks_append, nodeNeedsStatements, Bool.false_or]
    exact Emits.touch.after fun _ => supporting_emits
      (.pair (lower_emits env left _ formed.1) (lower_emits env right _ formed.2))
  | .logical left position op right, depth, _ => by
    simp only [walk, asks_visit, nodeNeedsStatements, Bool.true_or]
    exact shortCircuit_emits _ _ _ _
  | .compare left ops rights, depth, formed => by
    simp only [isWellFormed, Bool.and_eq_true, beq_iff_eq] at formed
    obtain ⟨⟨⟨same, present⟩, leftFormed⟩, rightsFormed⟩ := formed
    simp only [walk, asks_visit, asks_append, nodeNeedsStatements]
    match ops, rights, same, rightsFormed with
    | [op], [right], _, rightsFormed =>
      simp only [areWellFormed, Bool.and_true] at rightsFormed
      have short : decide (1 < [op].length) = false := rfl
      rw [short, Bool.false_or]
      simp only [walkList, List.append_nil]
      exact comparing_emits (lower_emits env left _ leftFormed)
        (lower_emits env right _ rightsFormed)
    | first :: second :: ops, rights, same, _ =>
      have several : 1 < ((first :: second :: ops).zip
          (rights.zip (lowerList env rights))).length := by
        simp only [List.length_zip, length_lowerList]
        simp only [List.length_cons] at same ⊢
        omega
      have long : decide (1 < (first :: second :: ops).length) = true := by simp
      rw [long, Bool.true_or]
      exact chained_emits several
    | [], [], _, _ => cases present
  | .unary position op operand, depth, formed => by
    simp only [walk, asks_visit, nodeNeedsStatements, Bool.false_or]
    refine Emits.touch.after fun _ => ?_
    split
    · rename_i number found
      rw [asks_of_negated? found]
      exact .pure _
    · exact supporting_emits (.singleton (lower_emits env operand _ formed))
  | .conditional test whenTrue whenFalse, depth, _ => by
    simp only [walk, asks_visit, nodeNeedsStatements, Bool.true_or]
    exact choosing_emits _ _ _
  | .lambda position params body, depth, _ => by
    simp only [walk, asks_visit, nodeNeedsStatements, Bool.true_or]
    exact Emits.touch.after fun _ => (Emits.fresh "lambda").after fun _ =>
      (Emits.emit (flush_ne_nil _)).finish
  | .list _ items _, depth, formed => by
    have each := lowerItems_emit env items (depth + 1) formed
    simp only [walk, asks_visit, nodeNeedsStatements, Bool.false_or]
    exact display_emits each <| Emits.touch.after fun _ =>
      supporting_emits (.singleton (splat_emits each))
  | .tuple _ items _, depth, formed => by
    have each := lowerItems_emit env items (depth + 1) formed
    simp only [walk, asks_visit, nodeNeedsStatements, Bool.false_or]
    exact display_emits each <| Emits.touch.after fun _ => splat_emits each
  | .set _ items _, depth, formed => by
    have each := lowerItems_emit env items (depth + 1) formed
    simp only [walk, asks_visit, nodeNeedsStatements, Bool.false_or]
    exact display_emits each <| Emits.touch.after fun _ =>
      supporting_emits (.singleton (splat_emits each))
  | .dict _ items _, depth, formed => by
    have each := lowerItems_emit env items (depth + 1) formed
    simp only [walk, asks_visit, nodeNeedsStatements, Bool.false_or]
    exact display_emits each <| Emits.touch.after fun _ => merge_emits each
  | .entry key value, depth, formed => by
    simp only [isWellFormed, Bool.and_eq_true] at formed
    simp only [walk, asks_visit, asks_append, nodeNeedsStatements, Bool.false_or]
    rw [← Bool.or_false (_ || _)]
    refine (operands_emits (.pair (lower_emits env key _ formed.1)
      (lower_emits env value _ formed.2))).bind fun values => ?_
    split <;> exact .pure _
  | .comprehension kind opening body clauses closing, depth, formed => by
    simp only [isWellFormed, Bool.and_eq_true] at formed
    obtain ⟨_, iterable⟩ := firstIterable_emits env clauses formed.2
    have called := fun name : String => applying_emits (.pure (Expr.ofName name))
      (.singleton (@supporting_emits _ "iter" _ iterable))
    simp only [walk, asks_visit, nodeNeedsStatements, Bool.true_or]
    refine Emits.touch.after fun _ => (Emits.fresh kind.text).after fun name => ?_
    refine (Emits.fresh "iter").after fun iterator => declaring_emits.after fun declares => ?_
    have defined : ∀ (loops : Desugar (List Stmt)) (build : List Stmt → Stmt),
        ofDesugar.Gives (· ≠ []) (do return [build (← loops)]) := fun _ _ =>
      ofDesugar_lenient.skip _ fun _ => ofDesugar.pure (List.cons_ne_nil _ _)
    cases kind with
    | generator => exact (Emits.emit (defined _ _)).already fun _ => called name
    | _ => exact (Emits.fresh "result").after fun _ =>
        (Emits.emit (defined _ _)).already fun _ => called name
  | .named target value, depth, _ => by
    simp only [walk, asks_visit, nodeNeedsStatements, Bool.true_or]
    exact assigning_emits _ _
  | .yield _ _ value, depth, formed => by
    simp only [walk, asks_visit, nodeNeedsStatements, Bool.false_or]
    exact (lowerOption_emits env value _ formed).finish

theorem lowerOption_emits (env : Env) : ∀ (value : Option Expr) (depth : Nat),
    isWellFormedOption value = true →
    Emits (asks (walkOption (fun _ => true) depth value)) (lowerOption env value)
  | none, _, _ => .pure _
  | some value, _, formed => (lower_emits env value _ formed).finish

theorem lowerOrAbsent_emits (env : Env) : ∀ (value : Option Expr) (depth : Nat),
    isWellFormedOption value = true →
    Emits (asks (walkOption (fun _ => true) depth value)) (lowerOrAbsent env value)
  | none, _, _ => .pure _
  | some value, _, formed => lower_emits env value _ formed

theorem lowerItems_emit (env : Env) : ∀ (items : List Expr) (depth : Nat),
    areWellFormed items = true →
    EmitsAny (asks (walkList (fun _ => true) depth items)) ((lowerItems env items).map Item.value)
  | [], _, _ => .nil
  | first :: rest, depth, formed => by
    simp only [areWellFormed, Bool.and_eq_true] at formed
    have here := lower_emits env first depth formed.1
    have later := lowerItems_emit env rest depth formed.2
    simp only [walkList, asks_append]
    cases first with
    | starred position op value =>
      have inner := lower_emits env value (depth + 1) formed.1
      simp only [walk, asks_visit, nodeNeedsStatements, Bool.false_or]
      exact .cons inner later
    | _ => exact .cons here later

theorem lowerParts_emit (env : Env) : ∀ (parts : List Expr) (depth : Nat),
    parts.all isPart = true → areWellFormed parts = true →
    EmitsAny (asks (walkList (fun _ => true) depth parts)) ((lowerParts env parts).map Part.action)
  | [], _, _, _ => .nil
  | first :: rest, depth, kinds, formed => by
    simp only [areWellFormed, Bool.and_eq_true] at formed
    simp only [List.all_cons, Bool.and_eq_true] at kinds
    have later := lowerParts_emit env rest depth kinds.2 formed.2
    simp only [walkList, asks_append]
    match first, kinds.1, formed.1 with
    | .literal _ _ (.text value), _, _ => exact .cons (.pure _) later
    | .field _ value _ spec, _, formed =>
      simp only [isWellFormed, Bool.and_eq_true] at formed
      simp only [walk, asks_visit, asks_append, nodeNeedsStatements, Bool.false_or]
      exact .cons (formatting_emits (lower_emits env value _ formed.1)
        (lowerSpec_emit env spec _ formed.2)) later

theorem lowerSpec_emit (env : Env) : ∀ (spec : Option Expr) (depth : Nat),
    isWellFormedOption spec = true →
    EmitsAny (asks (walkOption (fun _ => true) depth spec)) (lowerSpec env spec)
  | none, _, _ => .nil
  | some spec, _, formed => .singleton (lower_emits env spec _ formed)

theorem firstIterable_emits (env : Env) : ∀ clauses : List Clause,
    areClausesWellFormed clauses = true → ∃ needs, EmitsAny needs (firstIterable env clauses)
  | .loop _ _ iterable :: _, formed => by
    simp only [areClausesWellFormed, Bool.and_eq_true] at formed
    exact ⟨_, .singleton (lower_emits env iterable 0 formed.1.2)⟩
  | .filter .. :: _, _ => ⟨_, .nil⟩
  | [], _ => ⟨_, .nil⟩

end

/-! ## The prediction -/

/-- Running what was set aside gives statements exactly if something was. -/
theorem runAll_gives_addition {needs : Bool} {more : List Deferred}
    (added : IsAddition needs more) :
    ofDesugar.Gives (fun statements => statements ≠ [] ↔ needs = true) (Deferred.runAll more) := by
  obtain ⟨empty, each⟩ := added
  cases more with
  | nil =>
    obtain rfl : needs = false := by simpa using empty
    exact ofDesugar.pure (by simp)
  | cons first rest =>
    obtain rfl : needs = true := by simpa using empty
    refine ofDesugar.bind (each first (by simp)) fun here present => ?_
    exact ofDesugar_lenient.skip _ fun _ => ofDesugar.pure (by simp [present])

/-- A statement with nothing set aside for it is alone. -/
theorem flush_alone {holds : Stmt → Prop} {build : Lowering Stmt} (silent : Emits false build)
    (given : ofLowering.Gives holds build) :
    ofDesugar.Gives (fun result => ∃ stmt, result = [stmt] ∧ holds stmt) (flush build) := by
  refine ofDesugar.bind (ofDesugar_both (given []) (silent [])) ?_
  rintro ⟨stmt, ahead⟩ ⟨valid, more, same, empty, _⟩
  obtain rfl : more = [] := by simpa using empty
  obtain rfl : ahead = [] := same
  exact ofDesugar.pure ⟨stmt, rfl, valid⟩

/-- A loop whose test asks for no statements stays one statement: nothing comes ahead of
it. -/
theorem whileLoop_alone {env : Env} {position : Position} {test : Expr} {body orelse : List Stmt}
    (formed : test.isWellFormed = true) (unasked : test.needsStatements = false) :
    ofDesugar.Gives (fun result => ∃ test body orelse,
        result = [.whileLoop position test body orelse])
      (lowerStmt env (.whileLoop position test body orelse)) := by
  have testSilent : Emits false (lower env test) := by
    simpa [← Expr.needsStatements_eq_asks, unasked] using lower_emits env test 0 formed
  have silent : Emits false (do
      let test ← lower env test
      let body ← lowerBody env body
      return Stmt.whileLoop position test body (← lowerBody env orelse)) :=
    testSilent.after fun _ => (Emits.lift _).after fun _ => (Emits.lift _).finish
  have isLoop : ofLowering.Gives (fun stmt => ∃ test body orelse,
      stmt = Stmt.whileLoop position test body orelse) (do
      let test ← lower env test
      let body ← lowerBody env body
      return Stmt.whileLoop position test body (← lowerBody env orelse)) :=
    ofLowering_lenient.skip _ fun test => ofLowering_lenient.skip _ fun body =>
      ofLowering_lenient.skip _ fun orelse => ofLowering.pure ⟨test, body, orelse, rfl⟩
  rw [lowerStmt, unasked]
  refine ofDesugar_lenient.imp (flush_alone silent isLoop) ?_
  rintro _ ⟨_, rfl, test, body, orelse, rfl⟩
  exact ⟨test, body, orelse, rfl⟩

/-- Every text that is read as an expression or as a module has only well-formed
expressions. Lowering such an expression from an empty buffer, whatever the options and
the place, leaves something in the buffer exactly if the expression was predicted to need
statements, and what is left gives statements when it is run. So a loop whose test is
predicted to need none is left as one statement, with nothing ahead of it. -/
theorem needsStatements_predicts_lowering :
    (∀ file text expr, parseExpression file text = .ok expr → expr.isWellFormed = true) ∧
    (∀ file text body, parseModule file text = .ok body → Stmt.areWellFormed body = true) ∧
    ∀ (env : Env) (expr : Expr), expr.isWellFormed = true → ∀ context steps,
      (∀ value ahead after later,
        (lower env expr).run [] context steps = (.ok ((value, ahead), after), later) →
        (ahead ≠ [] ↔ expr.needsStatements = true) ∧
        ∀ statements final last,
          Deferred.runAll ahead after later = (.ok (statements, final), last) →
          (statements ≠ [] ↔ expr.needsStatements = true)) ∧
      ∀ position body orelse result after later, expr.needsStatements = false →
        lowerStmt env (.whileLoop position expr body orelse) context steps =
          (.ok (result, after), later) →
        ∃ test body orelse, result = [.whileLoop position test body orelse] := by
  refine ⟨fun _ _ _ => parseExpression_wellFormed, fun _ _ _ => parseModule_wellFormed,
    fun env expr formed context steps => ⟨fun value ahead after later run => ?_,
      fun position body orelse result after later unasked run => ?_⟩⟩
  · have emits : Emits expr.needsStatements (lower env expr) :=
      expr.needsStatements_eq_asks ▸ lower_emits env expr 0 formed
    obtain ⟨more, same, added⟩ := holds_of_run (emits []) run
    obtain rfl : ahead = more := same
    refine ⟨?_, fun statements final last ran => ?_⟩
    · rw [← List.isEmpty_eq_false_iff, added.1, Bool.not_eq_false']
    · have given := holds_of_run (runAll_gives_addition added) ran
      exact given
  · have given := holds_of_run (whileLoop_alone formed unasked) run
    exact given

/-- A formatted string with a chain of comparisons in a field: `f"\x7ba < b < c\x7d"`. -/
def formattedChain : Expr :=
  .fstring .unknown "" [.field .unknown
    (.compare (.ofName "a") [.less, .less] [.ofName "b", .ofName "c"]) none none]

/-- The chain in the field leaves statements in the buffer. -/
theorem formattedChain_emits : ∃ value ahead after later,
    (lower ⟨{}, .moduleFrame⟩ formattedChain).run [] {} [] =
      (.ok ((value, ahead), after), later) ∧ ahead ≠ [] :=
  have predicted := needsStatements_predicts_lowering.2.2 ⟨{}, .moduleFrame⟩ formattedChain
    (by decide) {} []
  ⟨_, _, _, _, rfl, (predicted.1 _ _ _ _ rfl).1.mpr (by decide)⟩

end Lowering
end Unsugar
