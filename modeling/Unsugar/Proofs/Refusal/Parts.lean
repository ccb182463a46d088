import Unsugar.Proofs.Lowering.Parts
import Unsugar.Proofs.Refusal.Outcome
import Unsugar.Proofs.Scope.Owner

/-! The ways in which lowering builds expressions and statements. Each has the findings of
its parts, and evaluates every part. -/

namespace Unsugar

/-! ## Expressions without findings -/

namespace Expr

theorem findings_of_isSupportPath (kind : ScopeKind) :
    ∀ object : Expr, object.isSupportPath = true → object.findings kind = []
  | .name .., _ => rfl
  | .member object _ _, path => findings_of_isSupportPath kind object path

theorem findings_of_isPure (kind : ScopeKind) {value : Expr} (isPure : value.isPure = true) :
    value.findings kind = [] := by
  unfold Expr.isPure at isPure
  split at isPure
  · rfl
  · rfl
  · exact findings_of_isSupportPath kind _ isPure
  · cases isPure

theorem findings_of_isCopyable (kind : ScopeKind) :
    ∀ value : Expr, value.isCopyable = true → value.findings kind = []
  | .name .., _ => rfl
  | .literal .., _ => rfl
  | .member object _ _, copyable => findings_of_isCopyable kind object copyable

theorem findings_of_isReusable (kind : ScopeKind) {value : Expr}
    (reusable : value.isReusable = true) : value.findings kind = [] := by
  unfold Expr.isReusable at reusable
  split at reusable
  · rfl
  · rfl
  · cases reusable

end Expr

/-- The kind of a body inside a definition. -/
def Frame.kind : Frame → ScopeKind
  | moduleFrame => .moduleScope
  | functionFrame _ => .functionScope
  | classFrame => .classScope

namespace Lowering

variable {found first second later : List Finding}

/-! ## Operands -/

/-- Computations with the findings of all of them. -/
inductive EachRefuses : List Finding → List (Lowering Expr) → Prop
  | nil : EachRefuses [] []
  | cons {found later : List Finding} {build : Lowering Expr} {rest : List (Lowering Expr)}
      (here : Refuses found build) (others : EachRefuses later rest) :
      EachRefuses (found ++ later) (build :: rest)

namespace EachRefuses

theorem single {build : Lowering Expr} (given : Refuses found build) :
    EachRefuses found [build] := by
  simpa using EachRefuses.cons given .nil

theorem pair {left right : Lowering Expr} (leftRefuses : Refuses first left)
    (rightRefuses : Refuses second right) : EachRefuses (first ++ second) [left, right] :=
  .cons leftRefuses (.single rightRefuses)

theorem append {front back : List (Lowering Expr)} (frontRefuses : EachRefuses first front)
    (backRefuses : EachRefuses second back) : EachRefuses (first ++ second) (front ++ back) := by
  induction frontRefuses with
  | nil => exact backRefuses
  | cons here others induction =>
    rw [List.append_assoc]
    exact .cons here induction

/-- What is built from the left has the findings of all that it is built of. -/
theorem foldl {join : Lowering Expr → Lowering Expr → Lowering Expr}
    (joins : ∀ {first second : List Finding} {before build : Lowering Expr},
      Refuses first before → Refuses second build → Refuses (first ++ second) (join before build))
    {builds : List (Lowering Expr)} (each : EachRefuses later builds) :
    ∀ {found : List Finding} {start : Lowering Expr}, Refuses found start →
      Refuses (found ++ later) (builds.foldl join start) := by
  induction each with
  | nil => simp
  | cons here others induction =>
    intro found start given
    rw [← List.append_assoc]
    exact induction (joins given here)

end EachRefuses

theorem save_refuses (value : Expr) : Refuses [] (save value) :=
  .fresh fun _ => (Refuses.emit .pure).last fun _ => .pure

theorem hoist_refuses (value : Expr) : Refuses [] (hoist value) := by
  fun_induction hoist value with
  | case1 position op value induction => exact induction.last fun _ => .pure
  | case2 position id value induction => exact induction.last fun _ => .pure
  | case3 key value keyInduction valueInduction =>
    exact keyInduction.last fun _ => valueInduction.last fun _ => .pure
  | case4 => exact .pure
  | case5 => exact save_refuses _
  | case6 => exact .pure
  | case7 => exact save_refuses _

theorem mapM_hoist_refuses (done : List Expr) : Refuses [] (done.mapM hoist) := by
  induction done with
  | nil =>
    rw [List.mapM_nil]
    exact .pure
  | cons value rest induction =>
    rw [List.mapM_cons]
    exact (hoist_refuses value).last fun _ => induction.last fun _ => .pure

theorem operandsAfter_refuses {items : List (Lowering Expr)} (each : EachRefuses found items) :
    ∀ done, Refuses found (operandsAfter done items) := by
  induction each with
  | nil => exact fun _ => .pure
  | cons here others induction =>
    intro done
    -- What the operand sets aside joins the rest only after the operands before it are saved.
    refine here.detached fun value ahead aheadRefuses => ?_
    have rest : ∀ done, Refuses _
        (do modify (· ++ ahead); operandsAfter (done ++ [value]) _) :=
      fun done => (Refuses.set aheadRefuses).bind fun _ => induction (done ++ [value])
    exact .ite (.known (rest done)) ((mapM_hoist_refuses done).bind rest)

theorem operands_refuses {items : List (Lowering Expr)} (each : EachRefuses found items) :
    Refuses found (operands items) :=
  operandsAfter_refuses each []

/-! ## Calls and operators -/

theorem applying_refuses {callee : Lowering Expr} {arguments : List (Lowering Expr)}
    (calleeRefuses : Refuses first callee) (each : EachRefuses second arguments) :
    Refuses (first ++ second) (applying callee arguments) := by
  refine (operands_refuses (.cons calleeRefuses each)).last fun values => ?_
  cases values with
  | nil => exact .pure
  | cons callee arguments => exact .pure

/-- A call of a function that is given. -/
theorem calling_refuses {callee : Expr} {arguments : List (Lowering Expr)}
    (each : EachRefuses found arguments) : Refuses found (applying (return callee) arguments) :=
  applying_refuses .pure each

theorem supporting_refuses {id : String} {arguments : List (Lowering Expr)}
    (each : EachRefuses found arguments) : Refuses found (supporting id arguments) :=
  (operands_refuses each).last fun _ => .pure

theorem assigning_refuses {name : String} {value : Lowering Expr} (given : Refuses found value) :
    Refuses found (assigning name value) :=
  .touch <| (Refuses.emit given.storing).last fun _ => .pure

theorem shortCircuit_refuses {op : LogicalOp} {position : Position} {left right : Lowering Expr}
    (leftRefuses : Refuses first left) (rightRefuses : Refuses second right) :
    Refuses (first ++ second) (shortCircuit op position left right) := by
  refine .touch <| .fresh fun _ => (Refuses.emit leftRefuses.storing).bind fun _ => ?_
  exact (Refuses.emit (rightRefuses.storing.last fun _ => .pure)).last fun _ => .pure

theorem choosing_refuses {test whenTrue whenFalse : Lowering Expr} (testRefuses : Refuses found test)
    (trueRefuses : Refuses first whenTrue) (falseRefuses : Refuses second whenFalse) :
    Refuses (found ++ (first ++ second)) (choosing test whenTrue whenFalse) := by
  refine .touch <| .fresh fun _ => (Refuses.emit (Refuses.flush ?_)).last fun _ => .pure
  refine testRefuses.bind fun _ => (Refuses.lift trueRefuses.storing).bind fun _ => ?_
  exact (Refuses.lift falseRefuses.storing).last fun _ => .pure

/-! ## Displays with unpacked items -/

namespace Item

theorem argument_refuses {item : Item (Lowering Expr)} (given : Refuses found item.value) :
    Refuses found item.argument := by
  cases item with
  | plain value => exact given
  | unpacked position op value => exact given.last fun _ => .pure

theorem arguments_refuse : ∀ {found : List Finding} {items : List (Item (Lowering Expr))},
    EachRefuses found (items.map value) → EachRefuses found (items.map argument)
  | _, [], .nil => .nil
  | _, _ :: _, .cons here others => .cons (argument_refuses here) (arguments_refuse others)

theorem segments_refuse {gather : List (Lowering Expr) → Lowering Expr}
    {convert : Lowering Expr → Lowering Expr}
    (gathers : ∀ {found values}, EachRefuses found values → Refuses found (gather values))
    (converts : ∀ {found value}, Refuses found value → Refuses found (convert value)) :
    ∀ {items : List (Item (Lowering Expr))} {before found : List Finding}
      {gathered : List (Lowering Expr)}, EachRefuses before gathered →
      EachRefuses found (items.map value) →
      EachRefuses (before ++ found) (segments gather convert gathered items) := by
  have run : ∀ {before : List Finding} {gathered : List (Lowering Expr)},
      EachRefuses before gathered →
      EachRefuses before (if gathered.isEmpty then [] else [gather gathered]) := by
    intro before gathered each
    cases each with
    | nil => exact .nil
    | cons here others => exact .single (gathers (.cons here others))
  intro items
  induction items with
  | nil =>
    intro before found gathered each rest
    cases rest
    rw [List.append_nil]
    exact run each
  | cons item items induction =>
    intro before found gathered each rest
    cases item with
    | plain value =>
      obtain _ | ⟨here, others⟩ := rest
      rw [← List.append_assoc]
      exact induction (each.append (.single here)) others
    | unpacked position op value =>
      obtain _ | ⟨here, others⟩ := rest
      exact (run each).append (.cons (converts here) (induction .nil others))

theorem joined_refuses {join : Lowering Expr → Lowering Expr → Lowering Expr}
    {empty : Lowering Expr} (emptyRefuses : Refuses [] empty)
    (joins : ∀ {first second : List Finding} {before build : Lowering Expr},
      Refuses first before → Refuses second build → Refuses (first ++ second) (join before build))
    {segments : List (Lowering Expr)} (each : EachRefuses found segments) :
    Refuses found (joined join empty segments) := by
  cases each with
  | nil => exact emptyRefuses
  | cons here others => exact others.foldl joins here

end Item

theorem splat_refuses {items : List (Item (Lowering Expr))}
    (each : EachRefuses found (items.map Item.value)) : Refuses found (splat items) := by
  refine Item.joined_refuses .pure (fun before after => ?_)
    (Item.segments_refuse (fun each => ?_) (fun given => ?_) .nil each)
  · exact supporting_refuses (.pair before after)
  · exact (operands_refuses each).last fun _ => .pure
  · exact supporting_refuses (.single given)

theorem merge_refuses {items : List (Item (Lowering Expr))}
    (each : EachRefuses found (items.map Item.value)) : Refuses found (merge items) := by
  refine Item.joined_refuses .pure (fun before after => ?_)
    (Item.segments_refuse (fun each => ?_) (fun given => ?_) .nil each)
  · exact supporting_refuses (.pair before after)
  · exact (operands_refuses each).last fun _ => .pure
  · exact supporting_refuses (.single given)

/-- A display, whether items are unpacked in it or not. -/
theorem display_refuses {items : List (Item (Lowering Expr))} {build : List Expr → Expr}
    {other : Lowering Expr} (each : EachRefuses found (items.map Item.value))
    (otherRefuses : Refuses found other) :
    Refuses found (if items.any Item.isUnpacked then other
      else do return build (← operands (items.map Item.argument))) := by
  split
  · exact otherRefuses
  · exact (operands_refuses (Item.arguments_refuse each)).last fun _ => .pure

/-! ## Formatted strings and comparisons -/

theorem formatting_refuses {conversion : Option Conversion} {value : Lowering Expr}
    {spec : List (Lowering Expr)} (valueRefuses : Refuses first value)
    (each : EachRefuses second spec) :
    Refuses (first ++ second) (formatting conversion value spec) := by
  refine calling_refuses (.cons ?_ each)
  cases conversion with
  | none => exact valueRefuses
  | some conversion => exact calling_refuses (.single valueRefuses)

theorem memberOf_refuses {env : Env} {object : Expr} {position : Position} {id : String}
    {lowered : Lowering Expr} (given : Refuses found lowered) :
    Refuses found (memberOf env object position id lowered) := by
  unfold memberOf
  split
  · refine .touch (supporting_refuses ?_)
    simpa using EachRefuses.pair given .pure
  · exact given.last fun _ => .pure

theorem joining_refuses {env : Env} {parts : List Part}
    (each : EachRefuses found (parts.map Part.action)) : Refuses found (joining env parts) := by
  have called : Refuses found
      (applying (memberOf env (.ofText "") .unknown "join" (return .ofText ""))
        [do return .tupleOf (← operands (parts.map Part.action))]) :=
    applying_refuses (memberOf_refuses .pure)
      (.single ((operands_refuses each).last fun _ => .pure))
  unfold joining
  split
  · cases each
    exact .pure
  · rename_i text
    obtain _ | ⟨here, others⟩ := each
    cases others
    rw [List.append_nil]
    exact here
  · exact called

theorem Refuses.swap {build : Lowering Expr} (given : Refuses (first ++ second) build) :
    Refuses (second ++ first) build :=
  given.widen (.of_mem_iff fun _ => by simp [or_comm])

theorem comparing_refuses {op : CompareOp} {left right : Lowering Expr}
    (leftRefuses : Refuses first left) (rightRefuses : Refuses second right) :
    Refuses (first ++ second) (comparing op left right) := by
  have backwards : ∀ id, Refuses (first ++ second) (supporting id [right, left]) := fun id =>
    (supporting_refuses (.pair rightRefuses leftRefuses)).swap
  refine .touch ?_
  cases op with
  | isIn => exact backwards _
  | notIn => exact supporting_refuses (.single (backwards _))
  | _ => exact supporting_refuses (.pair leftRefuses rightRefuses)

/-- The operands of a chain: one that may be evaluated twice has no findings. -/
inductive ChainRefuses : List Finding → List (CompareOp × Expr × Lowering Expr) → Prop
  | nil : ChainRefuses [] []
  | cons {found later : List Finding} {op : CompareOp} {operand : Expr} {right : Lowering Expr}
      {rest : List (CompareOp × Expr × Lowering Expr)} (here : Refuses found right)
      (reusable : operand.isReusable = true → found = []) (others : ChainRefuses later rest) :
      ChainRefuses (found ++ later) ((op, operand, right) :: rest)

theorem chain_refuses {rights : List (CompareOp × Expr × Lowering Expr)}
    (each : ChainRefuses later rights) (some : rights ≠ []) :
    ∀ {found : List Finding} {left : Lowering Expr}, Refuses found left →
      Quiet (EachRefuses (found ++ later)) (chain left rights) := by
  induction each with
  | nil => exact (some rfl).elim
  | @cons here rest op operand right others rightRefuses reusable restRefuse induction =>
    intro found left leftRefuses
    cases others with
    | nil =>
      cases restRefuse
      rw [List.append_nil]
      exact .pure (.single (comparing_refuses leftRefuses rightRefuses))
    | cons next more =>
      unfold chain
      rw [← List.append_assoc]
      split
      · -- The operand stands in two comparisons, so it must not have findings to count twice.
        rename_i twice
        obtain rfl := reusable twice
        refine (induction (by simp) rightRefuses).bind fun comparisons refuse => .pure ?_
        exact .cons (comparing_refuses leftRefuses rightRefuses) refuse
      · refine (Quiet.fresh "tmp").bind fun stored _ => ?_
        refine (induction (by simp) Refuses.pure).bind
          fun comparisons refuse => .pure ?_
        exact .cons (comparing_refuses leftRefuses (assigning_refuses rightRefuses)) refuse

theorem chained_refuses {left : Lowering Expr} {rights : List (CompareOp × Expr × Lowering Expr)}
    (leftRefuses : Refuses found left) (each : ChainRefuses later rights) (some : rights ≠ []) :
    Refuses (found ++ later) (chained left rights) := by
  refine .after (chain_refuses each some leftRefuses) fun comparisons refuse => ?_
  generalize found ++ later = total at refuse ⊢
  cases refuse with
  | nil => exact .pure
  | cons here others => exact others.foldl shortCircuit_refuses here

/-! ## Loops -/

/-- A computation that is left out if it has no findings. -/
def OptionRefuses (found : List Finding) : Option (Desugar (List Stmt)) → Prop
  | none => found = []
  | some action => Desugar.Refuses found action

theorem looping_refuses {position : Position} {assign : Expr → Desugar (List Stmt)}
    {iterable : Lowering Expr} {body : Desugar (List Stmt)}
    {orelse : Option (Desugar (List Stmt))} {target : List Finding}
    (iterableRefuses : Refuses found iterable)
    (assigns : ∀ item, Desugar.Refuses target (assign (.ofName item)))
    (bodyRefuses : Desugar.Refuses first body) (orelseRefuses : OptionRefuses second orelse) :
    Desugar.Refuses (found ++ (target ++ (first ++ second)))
      (looping position assign iterable body orelse) := by
  refine .fresh fun _ => .fresh fun item => .fresh fun _ => .apply ?_
  refine (supporting_refuses (.single iterableRefuses)).storing.bind fun _ => ?_
  refine (assigns item).bind fun _ => bodyRefuses.bind fun _ => ?_
  cases orelse with
  | none =>
    obtain rfl := orelseRefuses
    exact .pure
  | some orelse => exact Desugar.Refuses.last orelseRefuses fun _ => .pure

/-! ## Comprehensions -/

/-- Whether a node is an assignment expression. -/
def isNamed (visit : Visit) : Bool :=
  match visit.node with
  | .expr (.named ..) => true
  | _ => false

/-- Whether a walk enters a node: lambdas are left out. -/
def outsideLambdas : Node → Bool
  | .expr (.lambda ..) => false
  | _ => true

mutual

theorem any_isNamed_walk (depth : Nat) : ∀ expr : Expr,
    (expr.walk outsideLambdas depth).any isNamed = expr.assigns
  | .name .. | .literal .. | .lambda .. | .named .. => rfl
  | .fstring _ _ items | .list _ items _ | .tuple _ items _ | .set _ items _
  | .dict _ items _ => any_isNamed_walkList (depth + 1) items
  | .keyword _ _ value | .starred _ _ value | .member value _ _ | .unary _ _ value =>
    any_isNamed_walk (depth + 1) value
  | .field _ value _ spec => by
    have parts := any_isNamed_walkOption (depth + 1) spec
    simp [Expr.walk, Node.visit, isNamed, outsideLambdas, Expr.assigns, parts,
      any_isNamed_walk (depth + 1) value]
  | .call value items _ | .compare value _ items => by
    simp [Expr.walk, Node.visit, isNamed, outsideLambdas, Expr.assigns,
      any_isNamed_walk (depth + 1) value, any_isNamed_walkList (depth + 1) items]
  | .subscript left right _ | .binary left _ _ right | .logical left _ _ right
  | .entry left right => by
    simp [Expr.walk, Node.visit, isNamed, outsideLambdas, Expr.assigns,
      any_isNamed_walk (depth + 1) left, any_isNamed_walk (depth + 1) right]
  | .slice _ lower upper step => by
    simp [Expr.walk, Node.visit, isNamed, outsideLambdas, Expr.assigns, Bool.or_assoc,
      any_isNamed_walkOption (depth + 1) lower, any_isNamed_walkOption (depth + 1) upper,
      any_isNamed_walkOption (depth + 1) step]
  | .conditional test whenTrue whenFalse => by
    simp [Expr.walk, Node.visit, isNamed, outsideLambdas, Expr.assigns, Bool.or_assoc,
      any_isNamed_walk (depth + 1) test, any_isNamed_walk (depth + 1) whenTrue,
      any_isNamed_walk (depth + 1) whenFalse]
  | .comprehension _ _ body clauses _ => by
    simp [Expr.walk, Node.visit, isNamed, outsideLambdas, Expr.assigns,
      any_isNamed_walk (depth + 1) body, any_isNamed_walkClauses (depth + 1) clauses]
  | .yield _ _ value => any_isNamed_walkOption (depth + 1) value

theorem any_isNamed_walkOption (depth : Nat) : ∀ value : Option Expr,
    (Expr.walkOption outsideLambdas depth value).any isNamed = Expr.assignsInOption value
  | none => rfl
  | some value => any_isNamed_walk depth value

theorem any_isNamed_walkList (depth : Nat) : ∀ items : List Expr,
    (Expr.walkList outsideLambdas depth items).any isNamed = Expr.assignsInList items
  | [] => rfl
  | first :: rest => by
    simp [Expr.walkList, Expr.assignsInList, any_isNamed_walk depth first,
      any_isNamed_walkList depth rest]

theorem any_isNamed_walkClauses (depth : Nat) : ∀ clauses : List Clause,
    (Expr.walkClauses outsideLambdas depth clauses).any isNamed = Expr.assignsInClauses clauses
  | [] => rfl
  | .loop _ target iterable :: rest => by
    simp [Expr.walkClauses, Expr.walkClause, Node.visit, isNamed, outsideLambdas,
      Expr.assignsInClauses, Bool.or_assoc, any_isNamed_walk (depth + 1) target,
      any_isNamed_walk (depth + 1) iterable, any_isNamed_walkClauses depth rest]
  | .filter _ test :: rest => by
    simp [Expr.walkClauses, Expr.walkClause, Node.visit, isNamed, outsideLambdas,
      Expr.assignsInClauses, any_isNamed_walk (depth + 1) test, any_isNamed_walkClauses depth rest]

end

theorem namedTargets_eq_nil {expr : Expr} : namedTargets expr = [] ↔ expr.assigns = false := by
  rw [← any_isNamed_walk 0 expr, List.any_eq_false]
  change (expr.walk outsideLambdas 0).filterMap _ = [] ↔ _
  rw [List.filterMap_eq_nil_iff]
  refine forall₂_congr fun visit _ => ?_
  split <;> simp_all [isNamed]

theorem sortNames_eq_nil {names : List String} : Scope.sortNames names = [] ↔ names = [] := by
  simp [List.eq_nil_iff_forall_not_mem, Scope.mem_sortNames]

/-- The targets of the assignment expressions of a clause that is not the first one. -/
def clauseTargets : Clause → List String
  | .loop _ _ iterable => namedTargets iterable
  | .filter _ test => namedTargets test

theorem flatMap_clauseTargets_eq_nil {clauses : List Clause} :
    clauses.flatMap clauseTargets = [] ↔ clauses.any Clause.assigns = false := by
  rw [List.flatMap_eq_nil_iff, List.any_eq_false]
  refine forall₂_congr fun clause _ => ?_
  cases clause <;> simp [clauseTargets, Clause.assigns, namedTargets_eq_nil]

theorem sortedTargets_eq_nil {body : Expr} {clauses : List Clause} :
    Scope.sortNames (clauses.flatMap clauseTargets ++ namedTargets body) = [] ↔
      (body.assigns || clauses.any Clause.assigns) = false := by
  rw [sortNames_eq_nil, List.append_eq_nil_iff, flatMap_clauseTargets_eq_nil, namedTargets_eq_nil,
    Bool.or_eq_false_iff, and_comm]

theorem comprehensionTargets_eq_nil {body : Expr} {clauses : List Clause} :
    comprehensionTargets body clauses = [] ↔ body.comprehensionAssigns clauses = false := by
  cases clauses with
  | nil => exact sortedTargets_eq_nil
  | cons first later =>
    cases first with
    | loop => exact @sortedTargets_eq_nil body later
    | filter position test =>
      have whole : comprehensionTargets body (.filter position test :: later) = Scope.sortNames
          ((Clause.filter position test :: later).flatMap clauseTargets ++ namedTargets body) := by
        simp only [comprehensionTargets, List.take_succ_cons, List.take_zero, List.drop_succ_cons,
          List.drop_zero, List.flatMap_cons, List.flatMap_nil, List.append_nil]
        rfl
      rw [whole]
      exact sortedTargets_eq_nil

theorem declarationIn_quiet {frame : Frame} (position : Position)
    (outside : frame.kind ≠ .classScope) : Quiet (fun _ => True) (declarationIn frame position) := by
  cases frame with
  | moduleFrame => exact .pure trivial
  | functionFrame name => exact fun _ _ _ => ⟨⟨trivial, rfl⟩, rfl⟩
  | classFrame => exact (outside rfl).elim

theorem declaring_refuses {env : Env} {helper : String} {position : Position} {body : Expr}
    {clauses : List Clause} :
    Refuses (Expr.namedFindings env.frame.kind body clauses)
      (declaring env helper position (comprehensionTargets body clauses)) := by
  unfold declaring
  cases assigns : body.comprehensionAssigns clauses with
  | false =>
    rw [comprehensionTargets_eq_nil.mpr assigns]
    refine Refuses.pure.widen ⟨by simp, fun finding member certain => ?_⟩
    simp_all [Expr.namedFindings]
  | true =>
    have targets : (comprehensionTargets body clauses).isEmpty = false := by
      rw [Bool.eq_false_iff, ne_eq, List.isEmpty_iff, comprehensionTargets_eq_nil]
      simp [assigns]
    simp only [targets]
    by_cases inClass : env.frame.kind = .classScope
    · have named : ⟨.namedInClass, true⟩ ∈ Expr.namedFindings env.frame.kind body clauses := by
        simp [Expr.namedFindings, inClass, assigns]
      cases frame : env.frame with
      | classFrame =>
        rw [frame] at named
        exact fun _ _ _ => ⟨position, .namedInClassComprehension, rfl, _, named, rfl⟩
      | moduleFrame | functionFrame => simp [frame, Frame.kind] at inClass
    · have none : Expr.namedFindings env.frame.kind body clauses = [] := by
        simp [Expr.namedFindings, inClass]
      rw [none]
      refine .after (declarationIn_quiet position inClass) fun declaration _ => ?_
      exact fun _ _ _ => ⟨⟨[], by simp, Desugar.Refuses.pure⟩, rfl⟩

theorem collecting_refuses {kind : ComprehensionKind} {result : String} {body : Lowering Expr}
    {entry : List (Lowering Expr)} (bodyRefuses : Refuses found body)
    (entryRefuses : kind = .dict → EachRefuses found entry) :
    Desugar.Refuses found (collecting kind result body entry) := by
  refine Refuses.flush ?_
  cases kind with
  | list => exact (calling_refuses (.single bodyRefuses)).last fun _ => .pure
  | set => exact (calling_refuses (.single bodyRefuses)).last fun _ => .pure
  | dict =>
    refine (supporting_refuses ?_).last fun _ => .pure
    exact .cons .pure (entryRefuses rfl)
  | generator => exact bodyRefuses.last fun _ => .pure

/-! ## Assignments -/

theorem saveAhead_gives_name {value : Expr} {parts : List Expr} :
    Desugar.Gives (fun _ => False) (fun _ => True) (saveAhead value parts) := by
  unfold saveAhead
  split
  · exact .pure trivial
  · exact (Desugar.Gives.fresh "tmp").bind fun _ _ => .pure trivial

theorem finishing_refuses {saved : Option String} {value : Lowering Expr}
    {finish : Lowering Expr → Lowering Stmt} (valueRefuses : Refuses first value)
    (finishes : ∀ {first : List Finding} {value : Lowering Expr}, Refuses first value →
      Refuses (first ++ second) (finish value)) :
    Desugar.Refuses (first ++ second) (finishing saved value finish) := by
  cases saved with
  | none => exact Refuses.flush (finishes valueRefuses)
  | some name =>
    refine valueRefuses.storing.bind fun _ => ?_
    exact (Refuses.flush (finishes Refuses.pure)).last fun _ => .pure

theorem settingAttribute_refuses {object : Lowering Expr} {id : String} {value : Lowering Expr}
    (valueRefuses : Refuses first value) (objectRefuses : Refuses second object) :
    Refuses (first ++ second) (settingAttribute object id value) := by
  have arguments : EachRefuses (second ++ first) [object, return .ofText id, value] :=
    .cons objectRefuses (.pair .pure valueRefuses)
  exact (supporting_refuses arguments).swap.last fun _ => .pure

theorem settingItem_refuses {object key value : Lowering Expr} {keyFound : List Finding}
    (valueRefuses : Refuses first value) (objectRefuses : Refuses second object)
    (keyRefuses : Refuses keyFound key) :
    Refuses (first ++ (second ++ keyFound)) (settingItem object key value) := by
  have arguments : EachRefuses (second ++ keyFound ++ first) [object, key, value] := by
    rw [List.append_assoc]
    exact .cons objectRefuses (.pair keyRefuses valueRefuses)
  exact (supporting_refuses arguments).swap.last fun _ => .pure

theorem unpacking_refuses {position : Position} {items : List Expr} {value : Lowering Expr}
    {assign : String → Desugar (List Stmt)} (oneStar : (items.filter isStarred).drop 1 = [])
    (valueRefuses : Refuses first value)
    (assigns : ∀ name, Desugar.Refuses second (assign name)) :
    Desugar.Refuses (first ++ second) (unpacking position items value assign) := by
  unfold unpacking
  rw [oneStar]
  refine .fresh fun unpacked => .apply ?_
  have arguments : ∀ spec : Expr, EachRefuses first [value, return spec] := fun spec => by
    simpa using EachRefuses.pair valueRefuses .pure
  refine (supporting_refuses (arguments _)).storing.bind fun _ => ?_
  exact (assigns unpacked).last fun _ => .pure

end Lowering
end Unsugar
