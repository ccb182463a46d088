import Unsugar.Proofs.Grammar.WellFormed
import Unsugar.Proofs.Refusal.Finding

/-! Changes of leaves, such as the renaming of private names, keep what is well-formed and
what is found. -/

namespace Unsugar

variable (leaves : LeafMap)

/-! ## Assignment expressions -/

namespace Expr

mutual

theorem assigns_mapLeaves : ∀ expr : Expr, (expr.mapLeaves leaves).assigns = expr.assigns
  | .name .. | .literal .. | .lambda .. | .named .. => rfl
  | .fstring _ _ items | .list _ items _ | .tuple _ items _ | .set _ items _
  | .dict _ items _ => assignsInList_mapLeaves items
  | .keyword _ _ value | .starred _ _ value | .member value _ _ | .unary _ _ value =>
    assigns_mapLeaves value
  | .field _ value _ spec => by
    rw [mapLeaves, assigns, assigns, assigns_mapLeaves value, assignsInOption_mapLeaves spec]
  | .call value items _ | .compare value _ items => by
    rw [mapLeaves, assigns, assigns, assigns_mapLeaves value, assignsInList_mapLeaves items]
  | .subscript left right _ | .binary left _ _ right | .logical left _ _ right
  | .entry left right => by
    rw [mapLeaves, assigns, assigns, assigns_mapLeaves left, assigns_mapLeaves right]
  | .slice _ lower upper step => by
    rw [mapLeaves, assigns, assigns, assignsInOption_mapLeaves lower,
      assignsInOption_mapLeaves upper, assignsInOption_mapLeaves step]
  | .conditional test whenTrue whenFalse => by
    rw [mapLeaves, assigns, assigns, assigns_mapLeaves test, assigns_mapLeaves whenTrue,
      assigns_mapLeaves whenFalse]
  | .comprehension _ _ body clauses _ => by
    rw [mapLeaves, assigns, assigns, assigns_mapLeaves body, assignsInClauses_mapLeaves clauses]
  | .yield _ _ value => assignsInOption_mapLeaves value

theorem assignsInOption_mapLeaves : ∀ value : Option Expr,
    assignsInOption (mapLeavesOption leaves value) = assignsInOption value
  | none => rfl
  | some value => assigns_mapLeaves value

theorem assignsInList_mapLeaves : ∀ items : List Expr,
    assignsInList (mapLeavesList leaves items) = assignsInList items
  | [] => rfl
  | first :: rest => by
    rw [mapLeavesList, assignsInList, assignsInList, assigns_mapLeaves first,
      assignsInList_mapLeaves rest]

theorem assignsInClauses_mapLeaves : ∀ clauses : List Clause,
    assignsInClauses (mapLeavesClauses leaves clauses) = assignsInClauses clauses
  | [] => rfl
  | .loop _ target iterable :: rest => by
    rw [mapLeavesClauses, mapLeavesClause, assignsInClauses, assignsInClauses,
      assigns_mapLeaves target, assigns_mapLeaves iterable, assignsInClauses_mapLeaves rest]
  | .filter _ test :: rest => by
    rw [mapLeavesClauses, mapLeavesClause, assignsInClauses, assignsInClauses,
      assigns_mapLeaves test, assignsInClauses_mapLeaves rest]

end

theorem mapLeavesClauses_eq_map (clauses : List Clause) :
    mapLeavesClauses leaves clauses = clauses.map (mapLeavesClause leaves) := by
  induction clauses with
  | nil => rfl
  | cons first rest induction => rw [mapLeavesClauses, induction, List.map_cons]

theorem namedFindings_mapLeaves (kind : ScopeKind) (body : Expr) (clauses : List Clause) :
    namedFindings kind (body.mapLeaves leaves) (mapLeavesClauses leaves clauses) =
      namedFindings kind body clauses := by
  have assigns : Clause.assigns ∘ mapLeavesClause leaves = Clause.assigns := by
    funext clause
    cases clause <;> exact assigns_mapLeaves leaves _
  have targets : Clause.targetAssigns ∘ mapLeavesClause leaves = Clause.targetAssigns := by
    funext clause
    cases clause with
    | loop => exact assigns_mapLeaves leaves _
    | filter => rfl
  have whole : comprehensionAssigns (body.mapLeaves leaves) (clauses.map (mapLeavesClause leaves)) =
      body.comprehensionAssigns clauses := by
    rcases clauses with _ | ⟨_ | _, later⟩ <;>
      simp [comprehensionAssigns, mapLeavesClause, assigns_mapLeaves, Clause.assigns, List.any_map,
        assigns]
  rw [namedFindings, mapLeavesClauses_eq_map, whole, List.any_map, targets, namedFindings]

/-! ## Findings -/

mutual

theorem findings_mapLeaves (kind : ScopeKind) : ∀ expr : Expr,
    (expr.mapLeaves leaves).findings kind = expr.findings kind
  | .name .. | .literal .. => rfl
  | .fstring _ _ items | .list _ items _ | .tuple _ items _ | .set _ items _
  | .dict _ items _ => findingsOfList_mapLeaves kind items
  | .keyword _ _ value | .starred _ _ value | .member value _ _ | .unary _ _ value
  | .named _ value => findings_mapLeaves kind value
  | .field _ value _ spec => by
    rw [mapLeaves, findings, findings, findings_mapLeaves kind value,
      findingsOfOption_mapLeaves kind spec]
  | .call value items _ | .compare value _ items => by
    rw [mapLeaves, findings, findings, findings_mapLeaves kind value,
      findingsOfList_mapLeaves kind items]
  | .subscript left right _ | .binary left _ _ right | .logical left _ _ right
  | .entry left right => by
    rw [mapLeaves, findings, findings, findings_mapLeaves kind left, findings_mapLeaves kind right]
  | .slice _ lower upper step => by
    rw [mapLeaves, findings, findings, findingsOfOption_mapLeaves kind lower,
      findingsOfOption_mapLeaves kind upper, findingsOfOption_mapLeaves kind step]
  | .conditional test whenTrue whenFalse => by
    rw [mapLeaves, findings, findings, findings_mapLeaves kind test,
      findings_mapLeaves kind whenTrue, findings_mapLeaves kind whenFalse]
  | .lambda _ params body => by
    rw [mapLeaves, findings, findings, findingsOfDefaults_mapLeaves kind params,
      findings_mapLeaves .functionScope body]
  | .comprehension _ _ body clauses _ => by
    rw [mapLeaves, findings, findings, namedFindings_mapLeaves,
      findingsOfClauses_mapLeaves true clauses, findings_mapLeaves .functionScope body,
      findingsOfFirst_mapLeaves kind clauses]
  | .yield _ _ value => findingsOfOption_mapLeaves kind value

theorem targetFindings_mapLeaves (kind : ScopeKind) : ∀ target : Expr,
    (target.mapLeaves leaves).targetFindings kind = target.targetFindings kind
  | .member object _ _ => findings_mapLeaves kind object
  | .subscript object key _ => by
    rw [mapLeaves, targetFindings, targetFindings, findings_mapLeaves kind object,
      findings_mapLeaves kind key]
  | .tuple _ items _ | .list _ items _ => elementFindings_mapLeaves kind items
  | .starred _ _ value => by
    rw [mapLeaves, targetFindings, targetFindings, targetFindings_mapLeaves kind value]
  | .name .. | .literal .. | .fstring .. | .field .. | .call .. | .keyword .. | .slice ..
  | .binary .. | .logical .. | .compare .. | .unary .. | .conditional .. | .lambda .. | .set ..
  | .dict .. | .entry .. | .comprehension .. | .named .. | .yield .. => rfl

theorem elementFindings_mapLeaves (kind : ScopeKind) : ∀ items : List Expr,
    elementFindings kind (mapLeavesList leaves items) = elementFindings kind items
  | [] => rfl
  | first :: rest => by
    have here := targetFindings_mapLeaves kind first
    have later := elementFindings_mapLeaves kind rest
    cases first with
    | starred _ _ value =>
      have inner := targetFindings_mapLeaves kind value
      simp only [mapLeavesList, mapLeaves, elementFindings, inner, later]
    | _ =>
      rw [mapLeavesList, elementFindings_cons_of_plain (by rfl), here, later,
        elementFindings_cons_of_plain (by rfl)]

theorem findingsOfOption_mapLeaves (kind : ScopeKind) : ∀ value : Option Expr,
    findingsOfOption kind (mapLeavesOption leaves value) = findingsOfOption kind value
  | none => rfl
  | some value => findings_mapLeaves kind value

theorem findingsOfList_mapLeaves (kind : ScopeKind) : ∀ items : List Expr,
    findingsOfList kind (mapLeavesList leaves items) = findingsOfList kind items
  | [] => rfl
  | first :: rest => by
    rw [mapLeavesList, findingsOfList, findingsOfList, findings_mapLeaves kind first,
      findingsOfList_mapLeaves kind rest]

theorem findingsOfDefaults_mapLeaves (kind : ScopeKind) : ∀ params : List Param,
    findingsOfDefaults kind (mapLeavesParams leaves params) = findingsOfDefaults kind params
  | [] => rfl
  | .mk _ _ _ _ default :: rest => by
    rw [mapLeavesParams, mapLeavesParam, findingsOfDefaults, findingsOfDefaults,
      findingsOfOption_mapLeaves kind default, findingsOfDefaults_mapLeaves kind rest]

theorem findingsOfClauses_mapLeaves (given : Bool) : ∀ clauses : List Clause,
    findingsOfClauses given (mapLeavesClauses leaves clauses) = findingsOfClauses given clauses
  | [] => rfl
  | .loop _ target iterable :: rest => by
    rw [mapLeavesClauses, mapLeavesClause, findingsOfClauses, findingsOfClauses,
      findings_mapLeaves .functionScope iterable, targetFindings_mapLeaves .functionScope target,
      findingsOfClauses_mapLeaves false rest]
  | .filter _ test :: rest => by
    rw [mapLeavesClauses, mapLeavesClause, findingsOfClauses, findingsOfClauses,
      findings_mapLeaves .functionScope test, findingsOfClauses_mapLeaves false rest]

theorem findingsOfFirst_mapLeaves (kind : ScopeKind) : ∀ clauses : List Clause,
    findingsOfFirst kind (mapLeavesClauses leaves clauses) = findingsOfFirst kind clauses
  | .loop _ _ iterable :: _ => findings_mapLeaves kind iterable
  | .filter .. :: _ => rfl
  | [] => rfl

end

/-! ## Well-formed expressions -/

theorem mapLeavesList_eq_map (items : List Expr) :
    mapLeavesList leaves items = items.map (mapLeaves leaves) := by
  induction items with
  | nil => rfl
  | cons first rest induction => rw [mapLeavesList, induction, List.map_cons]

theorem isStarred_mapLeaves (expr : Expr) :
    Lowering.isStarred (expr.mapLeaves leaves) = Lowering.isStarred expr := by
  cases expr <;> rfl

mutual

theorem targetFault_mapLeaves (deletes : Bool) : ∀ target : Expr,
    Grammar.targetFault deletes (target.mapLeaves leaves) = none ↔
      Grammar.targetFault deletes target = none
  | .tuple _ items _ | .list _ items _ => targetsFault_mapLeaves deletes false items
  | .starred _ op value => by
    rw [mapLeaves, Grammar.targetFault, Grammar.targetFault]
    split
    · exact targetFault_mapLeaves deletes value
    · simp
  | .name .. | .member .. | .subscript .. => Iff.rfl
  | .literal .. | .fstring .. | .field .. | .call .. | .keyword .. | .slice .. | .binary ..
  | .logical .. | .compare .. | .unary .. | .conditional .. | .lambda .. | .set .. | .dict ..
  | .entry .. | .comprehension .. | .named .. | .yield .. => by
    simp [mapLeaves, Grammar.targetFault]

theorem targetsFault_mapLeaves (deletes : Bool) : ∀ (starSeen : Bool) (items : List Expr),
    Grammar.targetsFault deletes starSeen (mapLeavesList leaves items) = none ↔
      Grammar.targetsFault deletes starSeen items = none
  | _, [] => Iff.rfl
  | starSeen, first :: rest => by
    rw [mapLeavesList, Grammar.targetsFault_cons_eq_none, Grammar.targetsFault_cons_eq_none,
      isStarred_mapLeaves, targetFault_mapLeaves deletes first,
      targetsFault_mapLeaves deletes _ rest]

end

theorem isNone_targetFault_mapLeaves (deletes : Bool) (target : Expr) :
    (Grammar.targetFault deletes (target.mapLeaves leaves)).isNone =
      (Grammar.targetFault deletes target).isNone := by
  rw [Bool.eq_iff_iff, Option.isNone_iff_eq_none, Option.isNone_iff_eq_none, targetFault_mapLeaves]

theorem isPart_mapLeaves (part : Expr) : (part.mapLeaves leaves).isPart = part.isPart := by
  cases part with
  | literal position raw value => cases value <;> rfl
  | _ => rfl

mutual

theorem isWellFormed_mapLeaves : ∀ expr : Expr,
    (expr.mapLeaves leaves).isWellFormed = expr.isWellFormed
  | .name .. | .literal .. => rfl
  | .list _ items _ | .tuple _ items _ | .set _ items _ | .dict _ items _ =>
    areWellFormed_mapLeaves items
  | .fstring _ _ parts => by
    have each : isPart ∘ mapLeaves leaves = isPart := funext (isPart_mapLeaves leaves)
    rw [mapLeaves, isWellFormed, isWellFormed, areWellFormed_mapLeaves parts,
      mapLeavesList_eq_map, List.all_map, each]
  | .keyword _ _ value | .starred _ _ value | .member value _ _ | .unary _ _ value
  | .named _ value => isWellFormed_mapLeaves value
  | .field _ value _ spec => by
    rw [mapLeaves, isWellFormed, isWellFormed, isWellFormed_mapLeaves value,
      isWellFormedOption_mapLeaves spec]
  | .call value items _ => by
    rw [mapLeaves, isWellFormed, isWellFormed, isWellFormed_mapLeaves value,
      areWellFormed_mapLeaves items]
  | .compare value _ items => by
    have length : (mapLeavesList leaves items).length = items.length := by
      rw [mapLeavesList_eq_map, List.length_map]
    have empty : (mapLeavesList leaves items).isEmpty = items.isEmpty := by
      cases items <;> rfl
    rw [mapLeaves, isWellFormed, isWellFormed, isWellFormed_mapLeaves value,
      areWellFormed_mapLeaves items, length, empty]
  | .subscript left right _ | .binary left _ _ right | .logical left _ _ right
  | .entry left right => by
    rw [mapLeaves, isWellFormed, isWellFormed, isWellFormed_mapLeaves left,
      isWellFormed_mapLeaves right]
  | .slice _ lower upper step => by
    rw [mapLeaves, isWellFormed, isWellFormed, isWellFormedOption_mapLeaves lower,
      isWellFormedOption_mapLeaves upper, isWellFormedOption_mapLeaves step]
  | .conditional test whenTrue whenFalse => by
    rw [mapLeaves, isWellFormed, isWellFormed, isWellFormed_mapLeaves test,
      isWellFormed_mapLeaves whenTrue, isWellFormed_mapLeaves whenFalse]
  | .lambda _ params body => by
    rw [mapLeaves, isWellFormed, isWellFormed, areDefaultsWellFormed_mapLeaves params,
      isWellFormed_mapLeaves body]
  | .comprehension kind _ body clauses _ => by
    have fits : fitsKind kind (body.mapLeaves leaves) = fitsKind kind body := by
      cases kind <;> cases body <;> rfl
    rw [mapLeaves, isWellFormed, isWellFormed, fits, isWellFormed_mapLeaves body,
      areClausesWellFormed_mapLeaves clauses]
  | .yield _ _ value => isWellFormedOption_mapLeaves value

theorem isWellFormedOption_mapLeaves : ∀ value : Option Expr,
    isWellFormedOption (mapLeavesOption leaves value) = isWellFormedOption value
  | none => rfl
  | some value => isWellFormed_mapLeaves value

theorem areWellFormed_mapLeaves : ∀ items : List Expr,
    areWellFormed (mapLeavesList leaves items) = areWellFormed items
  | [] => rfl
  | first :: rest => by
    rw [mapLeavesList, areWellFormed, areWellFormed, isWellFormed_mapLeaves first,
      areWellFormed_mapLeaves rest]

theorem areDefaultsWellFormed_mapLeaves : ∀ params : List Param,
    areDefaultsWellFormed (mapLeavesParams leaves params) = areDefaultsWellFormed params
  | [] => rfl
  | .mk _ _ _ _ default :: rest => by
    rw [mapLeavesParams, mapLeavesParam, areDefaultsWellFormed, areDefaultsWellFormed,
      isWellFormedOption_mapLeaves default, areDefaultsWellFormed_mapLeaves rest]

theorem areClausesWellFormed_mapLeaves : ∀ clauses : List Clause,
    areClausesWellFormed (mapLeavesClauses leaves clauses) = areClausesWellFormed clauses
  | [] => rfl
  | .loop _ target iterable :: rest => by
    rw [mapLeavesClauses, mapLeavesClause, areClausesWellFormed, areClausesWellFormed,
      isNone_targetFault_mapLeaves, isWellFormed_mapLeaves target, isWellFormed_mapLeaves iterable,
      areClausesWellFormed_mapLeaves rest]
  | .filter _ test :: rest => by
    rw [mapLeavesClauses, mapLeavesClause, areClausesWellFormed, areClausesWellFormed,
      isWellFormed_mapLeaves test, areClausesWellFormed_mapLeaves rest]

end

theorem isTarget_mapLeaves (deletes : Bool) (target : Expr) :
    (target.mapLeaves leaves).isTarget deletes = target.isTarget deletes := by
  rw [isTarget, isTarget, isNone_targetFault_mapLeaves, isWellFormed_mapLeaves]

end Expr

/-! ## Statements -/

namespace Stmt

theorem targetFindings_mapLeaves (kind : ScopeKind) (targets : List Expr) :
    targetFindings kind (Expr.mapLeavesList leaves targets) = targetFindings kind targets := by
  have each : Expr.targetFindings kind ∘ Expr.mapLeaves leaves = Expr.targetFindings kind :=
    funext (Expr.targetFindings_mapLeaves leaves kind)
  rw [targetFindings, Expr.mapLeavesList_eq_map, List.flatMap_map, targetFindings]
  exact congrArg (targets.flatMap ·) each

theorem hintFindings_mapLeaves (reading : Reading) (kind : ScopeKind) (hint target : Expr) :
    hintFindings reading kind (hint.mapLeaves leaves) (target.mapLeaves leaves) =
      hintFindings reading kind hint target := by
  cases target with
  | name => simp only [Expr.mapLeaves, hintFindings, Expr.findings_mapLeaves]
  | _ => rfl

theorem managerFindings_mapLeaves (kind : ScopeKind) (items : List WithItem) :
    managerFindings kind (items.map (·.mapLeaves leaves)) = managerFindings kind items := by
  rw [managerFindings, List.flatMap_map, managerFindings]
  refine congrArg (items.flatMap ·) (funext fun item => ?_)
  obtain ⟨manager, target⟩ := item
  cases target with
  | none => simp [WithItem.mapLeaves, Expr.findings_mapLeaves, Expr.mapLeavesOption]
  | some target =>
    simp [WithItem.mapLeaves, Expr.findings_mapLeaves, Expr.mapLeavesOption, targetFindings,
      Expr.targetFindings_mapLeaves]

variable (inside : String → LeafMap) (reading : Reading)

mutual

theorem findings_mapLeaves : ∀ (leaves : LeafMap) (kind : ScopeKind) (stmt : Stmt),
    (stmt.mapLeaves inside leaves).findings reading kind = stmt.findings reading kind
  | leaves, kind, .expression value => Expr.findings_mapLeaves leaves kind value
  | leaves, kind, .assign targets value => by
    rw [mapLeaves, findings, findings, Expr.findings_mapLeaves, targetFindings_mapLeaves]
  | leaves, kind, .augAssign target _ value => by
    rw [mapLeaves, findings, findings, Expr.findings_mapLeaves, Expr.targetFindings_mapLeaves]
  | leaves, kind, .annAssign target hint none => by
    rw [mapLeaves, Expr.mapLeavesOption, findings, findings, Expr.targetFindings_mapLeaves,
      hintFindings_mapLeaves]
  | leaves, kind, .annAssign target hint (some value) => by
    rw [mapLeaves, Expr.mapLeavesOption, findings, findings, Expr.findings_mapLeaves,
      Expr.targetFindings_mapLeaves, hintFindings_mapLeaves]
  | leaves, kind, .delete _ targets => targetFindings_mapLeaves leaves kind targets
  | _, _, .branch .. | _, _, .declare .. | _, _, .imports .. => rfl
  | leaves, kind, .returns _ result => Expr.findingsOfOption_mapLeaves leaves kind result
  | leaves, kind, .raises _ exception cause => by
    rw [mapLeaves, findings, findings, Expr.findingsOfOption_mapLeaves,
      Expr.findingsOfOption_mapLeaves]
  | leaves, kind, .asserts _ test message => by
    rw [mapLeaves, findings, findings, Expr.findings_mapLeaves, Expr.findingsOfOption_mapLeaves]
  | leaves, _, .importFrom _ _ _ names _ => by
    rw [mapLeaves, findings, findings, List.any_map]
    rfl
  | leaves, kind, .conditional _ test body _ orelse | leaves, kind, .whileLoop _ test body orelse => by
    rw [mapLeaves, findings, findings, Expr.findings_mapLeaves,
      findingsOfBody_mapLeaves leaves kind body, findingsOfBody_mapLeaves leaves kind orelse]
  | leaves, kind, .forLoop _ target iterable body orelse => by
    rw [mapLeaves, findings, findings, Expr.findings_mapLeaves, Expr.targetFindings_mapLeaves,
      findingsOfBody_mapLeaves leaves kind body, findingsOfBody_mapLeaves leaves kind orelse]
  | leaves, kind, .tryBlock _ body handlers orelse final => by
    rw [mapLeaves, findings, findings, findingsOfBody_mapLeaves leaves kind body,
      findingsOfHandlers_mapLeaves leaves kind handlers,
      findingsOfBody_mapLeaves leaves kind orelse, findingsOfBody_mapLeaves leaves kind final]
  | leaves, kind, .withBlock _ items body => by
    rw [mapLeaves, findings, findings, managerFindings_mapLeaves,
      findingsOfBody_mapLeaves leaves kind body]
  | leaves, kind, .function decorators _ _ params _ body => by
    rw [mapLeaves, findings, findings, Expr.findingsOfList_mapLeaves,
      Expr.findingsOfDefaults_mapLeaves, findingsOfBody_mapLeaves leaves .functionScope body]
  | leaves, kind, .classDef decorators _ ident bases body => by
    rw [mapLeaves, findings, findings, Expr.findingsOfList_mapLeaves,
      Expr.findingsOfList_mapLeaves, findingsOfBody_mapLeaves (inside ident.name) .classScope body]

theorem findingsOfBody_mapLeaves : ∀ (leaves : LeafMap) (kind : ScopeKind) (body : List Stmt),
    findingsOfBody reading kind (mapLeavesBody inside leaves body) =
      findingsOfBody reading kind body
  | _, _, [] => rfl
  | leaves, kind, first :: rest => by
    rw [mapLeavesBody, findingsOfBody, findingsOfBody, findings_mapLeaves leaves kind first,
      findingsOfBody_mapLeaves leaves kind rest]

theorem findingsOfHandlers_mapLeaves :
    ∀ (leaves : LeafMap) (kind : ScopeKind) (handlers : List Handler),
    findingsOfHandlers reading kind (mapLeavesHandlers inside leaves handlers) =
      findingsOfHandlers reading kind handlers
  | _, _, [] => rfl
  | leaves, kind, .mk _ type _ body :: rest => by
    rw [mapLeavesHandlers, findingsOfHandlers, findingsOfHandlers, Expr.findingsOfOption_mapLeaves,
      findingsOfBody_mapLeaves leaves kind body, findingsOfHandlers_mapLeaves leaves kind rest]

end

theorem types_mapLeavesHandlers (handlers : List Handler) :
    (mapLeavesHandlers inside leaves handlers).map (·.type.isNone) =
      handlers.map (·.type.isNone) := by
  induction handlers with
  | nil => rfl
  | cons first rest induction =>
    obtain ⟨position, type, ident, body⟩ := first
    rw [mapLeavesHandlers, List.map_cons, List.map_cons, induction]
    cases type <;> rfl

theorem all_isTarget_mapLeaves (deletes : Bool) (targets : List Expr) :
    (Expr.mapLeavesList leaves targets).all (Expr.isTarget deletes) =
      targets.all (Expr.isTarget deletes) := by
  have each : Expr.isTarget deletes ∘ Expr.mapLeaves leaves = Expr.isTarget deletes :=
    funext (Expr.isTarget_mapLeaves leaves deletes)
  rw [Expr.mapLeavesList_eq_map, List.all_map, each]

theorem isItemWellFormed_mapLeaves (item : WithItem) :
    isItemWellFormed (item.mapLeaves leaves) = isItemWellFormed item := by
  obtain ⟨manager, target⟩ := item
  cases target with
  | none =>
    simp [isItemWellFormed, WithItem.mapLeaves, Expr.mapLeavesOption, Expr.isWellFormed_mapLeaves]
  | some target =>
    simp [isItemWellFormed, WithItem.mapLeaves, Expr.mapLeavesOption, Expr.isWellFormed_mapLeaves,
      Expr.isTarget_mapLeaves]

theorem isSingleTarget_mapLeaves (target : Expr) :
    (target.mapLeaves leaves).isSingleTarget = target.isSingleTarget := by
  cases target <;> rfl

mutual

theorem isWellFormed_mapLeaves : ∀ (leaves : LeafMap) (stmt : Stmt),
    (stmt.mapLeaves inside leaves).isWellFormed = stmt.isWellFormed
  | leaves, .expression value => Expr.isWellFormed_mapLeaves leaves value
  | leaves, .assign targets value => by
    rw [mapLeaves, isWellFormed, isWellFormed, Expr.isWellFormed_mapLeaves, all_isTarget_mapLeaves]
  | leaves, .augAssign target _ value => by
    rw [mapLeaves, isWellFormed, isWellFormed, isSingleTarget_mapLeaves,
      Expr.isWellFormed_mapLeaves, Expr.isWellFormed_mapLeaves]
  | leaves, .annAssign target hint value => by
    rw [mapLeaves, isWellFormed, isWellFormed, isSingleTarget_mapLeaves,
      Expr.isWellFormed_mapLeaves, Expr.isWellFormed_mapLeaves, Expr.isWellFormedOption_mapLeaves]
  | leaves, .delete _ targets => all_isTarget_mapLeaves leaves true targets
  | _, .branch .. | _, .declare .. | _, .imports .. | _, .importFrom .. => rfl
  | leaves, .returns _ result => Expr.isWellFormedOption_mapLeaves leaves result
  | leaves, .raises _ exception cause => by
    have kept : ∀ value : Option Expr, (Expr.mapLeavesOption leaves value).isSome = value.isSome :=
      fun value => by cases value <;> rfl
    rw [mapLeaves, isWellFormed, isWellFormed, Expr.isWellFormedOption_mapLeaves,
      Expr.isWellFormedOption_mapLeaves, kept, ← Option.not_isSome, kept, Option.not_isSome]
  | leaves, .asserts _ test message => by
    rw [mapLeaves, isWellFormed, isWellFormed, Expr.isWellFormed_mapLeaves,
      Expr.isWellFormedOption_mapLeaves]
  | leaves, .conditional _ test body _ orelse | leaves, .whileLoop _ test body orelse => by
    rw [mapLeaves, isWellFormed, isWellFormed, Expr.isWellFormed_mapLeaves,
      areWellFormed_mapLeaves leaves body, areWellFormed_mapLeaves leaves orelse]
  | leaves, .forLoop _ target iterable body orelse => by
    rw [mapLeaves, isWellFormed, isWellFormed, Expr.isWellFormed_mapLeaves,
      Expr.isTarget_mapLeaves, areWellFormed_mapLeaves leaves body,
      areWellFormed_mapLeaves leaves orelse]
  | leaves, .tryBlock _ body handlers orelse final => by
    rw [mapLeaves, isWellFormed, isWellFormed, Lowering.isNone_earlyBareHandler?,
      Lowering.isNone_earlyBareHandler?, types_mapLeavesHandlers,
      areWellFormed_mapLeaves leaves body, areHandlersWellFormed_mapLeaves leaves handlers,
      areWellFormed_mapLeaves leaves orelse, areWellFormed_mapLeaves leaves final]
  | leaves, .withBlock _ items body => by
    have each : isItemWellFormed ∘ WithItem.mapLeaves leaves = isItemWellFormed :=
      funext (isItemWellFormed_mapLeaves leaves)
    rw [mapLeaves, isWellFormed, isWellFormed, List.all_map, each,
      areWellFormed_mapLeaves leaves body]
  | leaves, .function decorators _ _ params _ body => by
    rw [mapLeaves, isWellFormed, isWellFormed, Expr.areWellFormed_mapLeaves,
      Expr.areDefaultsWellFormed_mapLeaves, areWellFormed_mapLeaves leaves body]
  | leaves, .classDef decorators _ ident bases body => by
    rw [mapLeaves, isWellFormed, isWellFormed, Expr.areWellFormed_mapLeaves,
      Expr.areWellFormed_mapLeaves, areWellFormed_mapLeaves (inside ident.name) body]

theorem areWellFormed_mapLeaves : ∀ (leaves : LeafMap) (body : List Stmt),
    areWellFormed (mapLeavesBody inside leaves body) = areWellFormed body
  | _, [] => rfl
  | leaves, first :: rest => by
    rw [mapLeavesBody, areWellFormed, areWellFormed, isWellFormed_mapLeaves leaves first,
      areWellFormed_mapLeaves leaves rest]

theorem areHandlersWellFormed_mapLeaves : ∀ (leaves : LeafMap) (handlers : List Handler),
    areHandlersWellFormed (mapLeavesHandlers inside leaves handlers) =
      areHandlersWellFormed handlers
  | _, [] => rfl
  | leaves, .mk _ type _ body :: rest => by
    rw [mapLeavesHandlers, areHandlersWellFormed, areHandlersWellFormed,
      Expr.isWellFormedOption_mapLeaves, areWellFormed_mapLeaves leaves body,
      areHandlersWellFormed_mapLeaves leaves rest]

end

end Stmt

/-! ## Private names -/

theorem areWellFormed_manglePrivate (body : List Stmt) :
    Stmt.areWellFormed (manglePrivate body) = Stmt.areWellFormed body :=
  Stmt.areWellFormed_mapLeaves privateNames _ body

theorem findingsOfBody_manglePrivate (reading : Reading) (kind : ScopeKind) (body : List Stmt) :
    Stmt.findingsOfBody reading kind (manglePrivate body) =
      Stmt.findingsOfBody reading kind body :=
  Stmt.findingsOfBody_mapLeaves privateNames reading _ kind body

end Unsugar
