import Unsugar.Proofs.Hints
import Unsugar.Proofs.Refusal.Statement

/-! Taking hints out of a module keeps it well-formed, and keeps its findings up to those
that are left open. Hints that are evaluated become values of assignments; the others are
gone. -/

namespace Unsugar

/-! ## Findings of bodies -/

namespace Finding.Within

theorem refl (found : List Finding) : Within found found :=
  .of_mem_iff fun _ => Iff.rfl

theorem append {fewer found fewer' found' : List Finding} (first : Within fewer found)
    (second : Within fewer' found') : Within (fewer ++ fewer') (found ++ found') := by
  refine ⟨List.append_subset.mpr ⟨?_, ?_⟩, fun finding member certain => ?_⟩
  · exact List.subset_append_of_subset_left _ first.kept
  · exact List.subset_append_of_subset_right _ second.kept
  · rcases List.mem_append.mp member with member | member
    · exact List.mem_append_left _ (first.certain finding member certain)
    · exact List.mem_append_right _ (second.certain finding member certain)

/-- Open findings may be left out. -/
theorem doubtful (found : List Finding) : Within [] (found.map Finding.doubtful) := by
  refine ⟨by simp, fun finding member certain => ?_⟩
  obtain ⟨original, _, rfl⟩ := List.mem_map.mp member
  cases certain

end Finding.Within

namespace Stmt

variable {reading : Reading} {kind : ScopeKind}

theorem findingsOfBody_append (first second : List Stmt) :
    findingsOfBody reading kind (first ++ second) =
      findingsOfBody reading kind first ++ findingsOfBody reading kind second := by
  induction first with
  | nil => rfl
  | cons stmt rest induction =>
    rw [List.cons_append, findingsOfBody, induction, findingsOfBody, List.append_assoc]

@[simp] theorem findingsOfBody_singleton (stmt : Stmt) :
    findingsOfBody reading kind [stmt] = stmt.findings reading kind := by
  rw [findingsOfBody, findingsOfBody, List.append_nil]

@[simp] theorem areWellFormed_singleton (stmt : Stmt) :
    areWellFormed [stmt] = stmt.isWellFormed := by
  rw [areWellFormed, areWellFormed, Bool.and_true]

end Stmt

namespace Hints

open Finding (Within)

/-! ## Requests -/

theorem takeRequest_asks (body : List Stmt) : (takeRequest body).1 = body.any Stmt.asksForText := by
  induction body with
  | nil => rfl
  | cons first rest induction =>
    rw [List.any_cons, ← induction]
    cases first with
    | importFrom position source level names closing =>
      have asks : Stmt.asksForText (.importFrom position source level names closing) =
          (Stmt.isFutureImport (.importFrom position source level names closing) &&
            names.any (·.path == "annotations")) := rfl
      rw [asks]
      simp only [takeRequest]
      by_cases future :
          Stmt.isFutureImport (.importFrom position source level names closing) = true
      · rw [if_pos future, future, Bool.true_and, Bool.or_comm]
        split <;> rfl
      · rw [if_neg future, Bool.eq_false_iff.mpr future, Bool.false_and, Bool.false_or]
    | _ => rfl

theorem takeRequest_wellFormed {body : List Stmt} (valid : Stmt.areWellFormed body = true) :
    Stmt.areWellFormed (takeRequest body).2 = true := by
  induction body with
  | nil => rfl
  | cons first rest induction =>
    obtain ⟨firstValid, restValid⟩ := Bool.and_eq_true_iff.mp valid
    have later := induction restValid
    cases first with
    | importFrom position source level names closing =>
      simp only [takeRequest]
      split
      · split
        · exact later
        · exact later
      · exact later
    | _ => exact Bool.and_eq_true_iff.mpr ⟨firstValid, later⟩

/-- A request is no import of all members. -/
theorem takeRequest_findings (reading : Reading) (kind : ScopeKind) (body : List Stmt) :
    Stmt.findingsOfBody reading kind (takeRequest body).2 =
      Stmt.findingsOfBody reading kind body := by
  induction body with
  | nil => rfl
  | cons first rest induction =>
    cases first with
    | importFrom position source level names closing =>
      have star : (names.filter (·.path != "annotations")).any (·.path == "*") =
          names.any (·.path == "*") := by
        rw [List.any_filter]
        refine congrArg names.any (funext fun item => ?_)
        by_cases isStar : item.path = "*" <;> simp [isStar]
      simp only [takeRequest]
      split
      · split
        · rename_i dropped
          rw [List.isEmpty_iff.mp dropped] at star
          rw [induction, Stmt.findingsOfBody, Stmt.findings, ← star]
          simp
        · rw [Stmt.findingsOfBody, Stmt.findingsOfBody, Stmt.findings, Stmt.findings, star, induction]
      · rw [Stmt.findingsOfBody, Stmt.findingsOfBody, induction]
    | _ => exact congrArg (_ ++ ·) induction

/-! ## Bodies -/

/-- What is left of a body once hints are taken out of it. -/
structure Taken (importStar : ImportStar) (asText : Bool) (kind : ScopeKind)
    (before after : List Stmt) : Prop where
  wellFormed : Stmt.areWellFormed after = true
  findings : Within (Stmt.findingsOfBody ⟨importStar, true⟩ kind after)
    (Stmt.findingsOfBody ⟨importStar, asText⟩ kind before)

variable {importStar : ImportStar}

theorem Taken.append {asText : Bool} {kind : ScopeKind} {first first' second second' : List Stmt}
    (firstTaken : Taken importStar asText kind first first')
    (secondTaken : Taken importStar asText kind second second') :
    Taken importStar asText kind (first ++ second) (first' ++ second') := by
  refine ⟨by simp [firstTaken.wellFormed, secondTaken.wellFormed], ?_⟩
  rw [Stmt.findingsOfBody_append, Stmt.findingsOfBody_append]
  exact firstTaken.findings.append secondTaken.findings

/-- The findings of a hinted statement without its hint. -/
def storedFindings (kind : ScopeKind) (target : Expr) : Option Expr → List Finding
  | some value => value.findings kind ++ target.targetFindings kind
  | none => (target.targetFindings kind).map Finding.doubtful

theorem findings_annAssign (reading : Reading) (kind : ScopeKind) (target hint : Expr)
    (value : Option Expr) :
    (Stmt.annAssign target hint value).findings reading kind =
      storedFindings kind target value ++ Stmt.hintFindings reading kind hint target := by
  cases value <;> rfl

theorem stored_taken {reading : Reading} {kind : ScopeKind} {target : Expr} {value : Option Expr}
    (single : target.isSingleTarget = true) (targetValid : target.isWellFormed = true)
    (valueValid : Expr.isWellFormedOption value = true) :
    Stmt.areWellFormed (value.toList.map fun value => .assign [target] value) = true ∧
      Within (Stmt.findingsOfBody reading kind (value.toList.map fun value => .assign [target] value))
        (storedFindings kind target value) := by
  cases value with
  | none => exact ⟨rfl, .doubtful _⟩
  | some value =>
    have isTarget := Expr.isTarget_of_isSingleTarget single targetValid
    refine ⟨?_, ?_⟩
    · have valueValid : value.isWellFormed = true := valueValid
      simp [Stmt.isWellFormed, isTarget, valueValid]
    · simpa [Stmt.findings, Stmt.targetFindings, storedFindings] using Within.refl _

/-- A hint that is recorded. -/
theorem recorded_taken {asText : Bool} {kind : ScopeKind} (outside : kind ≠ .functionScope)
    {position : Position} {id : String} {hint : Expr} {value : Option Expr}
    (hintValid : hint.isWellFormed = true) (valueValid : Expr.isWellFormedOption value = true) :
    Taken importStar asText kind [.annAssign (.name position id) hint value]
      ((value.toList.map fun value => .assign [.name position id] value) ++
        [.assign [.subscript (.ofName record) (.ofText id) .unknown]
          (if asText then .ofText (printExpression hint) else hint)]) := by
  obtain ⟨storedValid, storedWithin⟩ :=
    @stored_taken ⟨importStar, true⟩ kind (.name position id) value rfl rfl valueValid
  have isTarget : Expr.isTarget false
      (.subscript (.ofName record) (.ofText id) .unknown) = true := rfl
  have clean : Expr.targetFindings kind
      (.subscript (.ofName record) (.ofText id) .unknown) = [] := rfl
  have text : ∀ value : String, (Expr.ofText value).isWellFormed = true ∧
      (Expr.ofText value).findings kind = [] := fun _ => ⟨rfl, rfl⟩
  refine ⟨?_, ?_⟩
  · rw [Stmt.areWellFormed_append, storedValid, Stmt.areWellFormed_singleton]
    cases asText <;> simp [Stmt.isWellFormed, isTarget, hintValid, text]
  · rw [Stmt.findingsOfBody_append, Stmt.findingsOfBody_singleton, Stmt.findingsOfBody_singleton,
      findings_annAssign]
    refine storedWithin.append ?_
    cases asText <;>
      simpa [Stmt.findings, Stmt.targetFindings, clean, Stmt.hintFindings, outside, text] using
        Within.refl _

theorem annAssign_taken (asText : Bool) (place : Place) {target hint : Expr} {value : Option Expr}
    (valid : (Stmt.annAssign target hint value).isWellFormed = true) :
    judge.Gives (Taken importStar asText place.kind [.annAssign target hint value])
      (ofStmt asText place (.annAssign target hint value)) := by
  intro recorded
  simp only [Stmt.isWellFormed, Bool.and_eq_true] at valid
  obtain ⟨⟨⟨single, targetValid⟩, hintValid⟩, valueValid⟩ := valid
  obtain ⟨storedValid, storedWithin⟩ :=
    @stored_taken ⟨importStar, true⟩ place.kind target value single targetValid valueValid
  -- Where the hint is not recorded, the statement is only stored.
  have dropped : Stmt.hintFindings ⟨importStar, asText⟩ place.kind hint target = [] →
      Taken importStar asText place.kind [.annAssign target hint value]
        (Stmt.orPass (value.toList.map fun value => .assign [target] value)) := by
    intro none
    refine ⟨?_, ?_⟩
    · cases value with
      | none => rfl
      | some value => exact storedValid
    · rw [Stmt.findingsOfBody_singleton, findings_annAssign, none, List.append_nil]
      cases value with
      | none => exact storedWithin
      | some value => exact storedWithin
  cases target with
  | name position id =>
    obtain ⟨kind, recordedAround⟩ := place
    cases kind with
    | functionScope => exact dropped rfl
    | moduleScope | classScope => exact recorded_taken (by simp) hintValid valueValid
  | _ =>
    obtain ⟨kind, recordedAround⟩ := place
    cases kind <;> exact dropped rfl

theorem ofStmt_taken (asText : Bool) (place : Place) (stmt : Stmt) (simple : stmt.isSimple = true)
    (valid : stmt.isWellFormed = true) :
    judge.Gives (Taken importStar asText place.kind [stmt]) (ofStmt asText place stmt) := by
  cases stmt with
  | annAssign target hint value => exact annAssign_taken asText place valid
  | conditional | whileLoop | forLoop | tryBlock | withBlock | function | classDef => cases simple
  | _ => exact judge.pure ⟨by simpa using valid, .refl _⟩

theorem bindRecord_taken {asText : Bool} {kind : ScopeKind} {before after : List Stmt}
    (taken : Taken importStar asText kind before after) (recorded : Bool) :
    Taken importStar asText kind before (bindRecord recorded after) := by
  unfold bindRecord
  split
  · have split : after.take (Stmt.headLength after) ++ after.drop (Stmt.headLength after) = after :=
      List.take_append_drop ..
    have valid := taken.wellFormed
    have found := taken.findings
    rw [← split, Stmt.areWellFormed_append, Bool.and_eq_true] at valid
    rw [← split, Stmt.findingsOfBody_append] at found
    have clean : Stmt.findingsOfBody ⟨importStar, true⟩ kind [.store record (.dictOf [])] = [] := rfl
    have bound : Stmt.areWellFormed [.store record (.dictOf [])] = true := rfl
    refine ⟨?_, ?_⟩
    · rw [Stmt.insertAt, Stmt.areWellFormed_append, Stmt.areWellFormed_append, valid.1, valid.2,
        bound]
      rfl
    · rw [Stmt.insertAt, Stmt.findingsOfBody_append, Stmt.findingsOfBody_append, clean,
        List.append_nil]
      exact found
  · exact taken

theorem test_unchanged (asText : Bool) (place : Place) (test : Expr) :
    judge.Gives (· = test) ((pass asText).test place test) :=
  judge.pure rfl

theorem revise_unchanged (asText : Bool) (place : Place) (expr : Expr) :
    judge.Gives (· = expr) (expr.revise ((pass asText).visitor place)) := by
  intro recorded
  cases expr <;> rfl

theorem reviseTarget_unchanged (asText : Bool) (place : Place) (target : Expr) :
    judge.Gives (· = target) (target.reviseTarget ((pass asText).visitor place)) := by
  intro recorded
  cases target <;> rfl

theorem reviseOption_unchanged (asText : Bool) (place : Place) (value : Option Expr) :
    judge.Gives (· = value) (Expr.reviseOption ((pass asText).visitor place) value) := by
  cases value with
  | none => exact judge.pure rfl
  | some value =>
    refine judge.bind (revise_unchanged asText place value) ?_
    rintro _ rfl
    exact judge.pure rfl

theorem withItems_unchanged (asText : Bool) (place : Place) (items : List WithItem) :
    judge.Gives (· = items) (Pass.withItems ((pass asText).visitor place) items) := by
  induction items with
  | nil => exact judge.pure rfl
  | cons item rest induction =>
    obtain ⟨manager, target⟩ := item
    rw [Pass.withItems]
    refine judge.bind (revise_unchanged asText place manager) ?_
    rintro _ rfl
    cases target with
    | none =>
      refine judge.bind (@Judgement.pure _ _ judge _ (· = none) _ rfl) ?_
      rintro _ rfl
      refine judge.bind induction ?_
      rintro _ rfl
      exact judge.pure rfl
    | some target =>
      have same : judge.Gives (· = some target)
          (some <$> target.reviseTarget ((pass asText).visitor place)) := fun recorded =>
        congrArg some (reviseTarget_unchanged asText place target recorded)
      refine judge.bind same ?_
      rintro _ rfl
      refine judge.bind induction ?_
      rintro _ rfl
      exact judge.pure rfl

theorem areDefaultsWellFormed_withoutHint (params : List Param) :
    Expr.areDefaultsWellFormed (params.map Param.withoutHint) =
      Expr.areDefaultsWellFormed params := by
  induction params with
  | nil => rfl
  | cons first rest induction =>
    obtain ⟨kind, position, ident, hint, default⟩ := first
    exact congrArg (_ && ·) induction

theorem findingsOfDefaults_withoutHint (kind : ScopeKind) (params : List Param) :
    Expr.findingsOfDefaults kind (params.map Param.withoutHint) =
      Expr.findingsOfDefaults kind params := by
  induction params with
  | nil => rfl
  | cons first rest induction =>
    obtain ⟨_, position, ident, hint, default⟩ := first
    exact congrArg (_ ++ ·) induction

/-- What is left of handlers once hints are taken out of them. -/
structure HandlersTaken (importStar : ImportStar) (asText : Bool) (kind : ScopeKind)
    (before after : List Handler) : Prop where
  wellFormed : Stmt.areHandlersWellFormed after = true
  types : after.map (·.type.isNone) = before.map (·.type.isNone)
  findings : Within (Stmt.findingsOfHandlers ⟨importStar, true⟩ kind after)
    (Stmt.findingsOfHandlers ⟨importStar, asText⟩ kind before)

mutual

theorem stmt_taken (asText : Bool) : ∀ (place : Place) (next : Option Stmt) (stmt : Stmt),
    stmt.isWellFormed = true →
    judge.Gives (Taken importStar asText place.kind [stmt]) ((pass asText).stmt place next stmt)
  | place, _, .conditional _ test body _ orelse, valid
  | place, _, .whileLoop _ test body orelse, valid => by
    simp only [Stmt.isWellFormed, Bool.and_eq_true] at valid
    obtain ⟨⟨testValid, bodyValid⟩, orelseValid⟩ := valid
    refine judge.bind (test_unchanged asText place test) ?_
    rintro _ rfl
    refine judge.bind (body_taken asText place body bodyValid) fun body' bodyTaken => ?_
    refine judge.bind (body_taken asText place orelse orelseValid) fun orelse' orelseTaken => ?_
    refine judge.pure ⟨?_, ?_⟩
    · simp [Stmt.isWellFormed, testValid, bodyTaken.wellFormed, orelseTaken.wellFormed]
    · simpa [Stmt.findings] using
        (Within.refl _).append (bodyTaken.findings.append orelseTaken.findings)
  | place, _, .forLoop position target iterable body orelse, valid => by
    simp only [Stmt.isWellFormed, Bool.and_eq_true] at valid
    obtain ⟨⟨⟨targetValid, iterableValid⟩, bodyValid⟩, orelseValid⟩ := valid
    refine judge.bind (revise_unchanged asText place iterable) ?_
    rintro _ rfl
    refine judge.bind (reviseTarget_unchanged asText place target) ?_
    rintro _ rfl
    refine judge.bind (body_taken asText place body bodyValid) fun body' bodyTaken => ?_
    refine judge.bind (body_taken asText place orelse orelseValid) fun orelse' orelseTaken => ?_
    refine judge.pure ⟨?_, ?_⟩
    · simp [Stmt.isWellFormed, targetValid, iterableValid, bodyTaken.wellFormed,
        orelseTaken.wellFormed]
    · simpa [Stmt.findings] using (Within.refl _).append
        ((Within.refl _).append (bodyTaken.findings.append orelseTaken.findings))
  | place, _, .tryBlock position body handlers orelse final, valid => by
    simp only [Stmt.isWellFormed, Bool.and_eq_true] at valid
    obtain ⟨⟨⟨⟨notEarly, bodyValid⟩, handlersValid⟩, orelseValid⟩, finalValid⟩ := valid
    refine judge.bind (body_taken asText place body bodyValid) fun body' bodyTaken => ?_
    refine judge.bind (handlers_taken asText place handlers handlersValid)
      fun handlers' handlersTaken => ?_
    refine judge.bind (body_taken asText place orelse orelseValid) fun orelse' orelseTaken => ?_
    refine judge.bind (body_taken asText place final finalValid) fun final' finalTaken => ?_
    rw [Lowering.isNone_earlyBareHandler?, ← handlersTaken.types,
      ← Lowering.isNone_earlyBareHandler?] at notEarly
    refine judge.pure ⟨?_, ?_⟩
    · rw [Stmt.areWellFormed_singleton, Stmt.isWellFormed, notEarly, bodyTaken.wellFormed,
        handlersTaken.wellFormed, orelseTaken.wellFormed, finalTaken.wellFormed]
      rfl
    · simpa [Stmt.findings] using bodyTaken.findings.append
        (handlersTaken.findings.append (orelseTaken.findings.append finalTaken.findings))
  | place, _, .withBlock position items body, valid => by
    obtain ⟨itemsValid, bodyValid⟩ := Bool.and_eq_true_iff.mp valid
    refine judge.bind (withItems_unchanged asText place items) ?_
    rintro _ rfl
    refine judge.bind (body_taken asText place body bodyValid) fun body' bodyTaken => ?_
    refine judge.pure ⟨?_, ?_⟩
    · rw [Stmt.areWellFormed_singleton, Stmt.isWellFormed, itemsValid, bodyTaken.wellFormed]
      rfl
    · simpa [Stmt.findings] using (Within.refl _).append bodyTaken.findings
  | place, _, .function decorators position ident params result body, valid => by
    simp only [Stmt.isWellFormed, Bool.and_eq_true] at valid
    obtain ⟨⟨decoratorsValid, paramsValid⟩, bodyValid⟩ := valid
    intro recorded
    -- The body of a definition starts without a record, whatever the body around it has.
    have bodyTaken := body_taken asText ⟨.functionScope, recorded⟩ body bodyValid false
    change Taken importStar asText place.kind _
      [.function decorators position ident (params.map Param.withoutHint) none _]
    refine ⟨?_, ?_⟩
    · rw [Stmt.areWellFormed_singleton, Stmt.isWellFormed, decoratorsValid,
        areDefaultsWellFormed_withoutHint, paramsValid, Bool.true_and, Bool.true_and]
      exact bodyTaken.wellFormed
    · rw [Stmt.findingsOfBody_singleton, Stmt.findingsOfBody_singleton, Stmt.findings,
        Stmt.findings, findingsOfDefaults_withoutHint]
      exact (Within.refl _).append ((Within.refl _).append bodyTaken.findings)
  | place, _, .classDef decorators position ident bases body, valid => by
    simp only [Stmt.isWellFormed, Bool.and_eq_true] at valid
    obtain ⟨⟨decoratorsValid, basesValid⟩, bodyValid⟩ := valid
    intro recorded
    have bodyTaken := bindRecord_taken
      (body_taken asText ⟨.classScope, recorded⟩ body bodyValid false)
    change Taken importStar asText place.kind _
      [.classDef decorators position ident bases (bindRecord _ _)]
    refine ⟨?_, ?_⟩
    · rw [Stmt.areWellFormed_singleton, Stmt.isWellFormed, decoratorsValid, basesValid,
        Bool.true_and, Bool.true_and]
      exact (bodyTaken _).wellFormed
    · rw [Stmt.findingsOfBody_singleton, Stmt.findingsOfBody_singleton, Stmt.findings,
        Stmt.findings]
      exact (Within.refl _).append ((Within.refl _).append (bodyTaken _).findings)
  | place, _, .expression .., valid | place, _, .assign .., valid
  | place, _, .augAssign .., valid | place, _, .annAssign .., valid
  | place, _, .delete .., valid | place, _, .branch .., valid
  | place, _, .returns .., valid | place, _, .raises .., valid
  | place, _, .declare .., valid | place, _, .asserts .., valid
  | place, _, .imports .., valid | place, _, .importFrom .., valid =>
    ofStmt_taken asText place _ rfl valid

theorem body_taken (asText : Bool) : ∀ (place : Place) (body : List Stmt),
    Stmt.areWellFormed body = true →
    judge.Gives (Taken importStar asText place.kind body) ((pass asText).body place body)
  | _, [], _ => judge.pure ⟨rfl, .refl _⟩
  | place, first :: rest, valid => by
    obtain ⟨firstValid, restValid⟩ := Bool.and_eq_true_iff.mp valid
    refine judge.bind (stmt_taken asText place rest.head? first firstValid) fun here hereTaken => ?_
    refine judge.bind (body_taken asText place rest restValid) fun later laterTaken => ?_
    exact judge.pure (hereTaken.append laterTaken)

theorem handlers_taken (asText : Bool) : ∀ (place : Place) (handlers : List Handler),
    Stmt.areHandlersWellFormed handlers = true →
    judge.Gives (HandlersTaken importStar asText place.kind handlers)
      ((pass asText).handlers place handlers)
  | _, [], _ => judge.pure ⟨rfl, rfl, .refl _⟩
  | place, .mk position type ident body :: rest, valid => by
    simp only [Stmt.areHandlersWellFormed, Bool.and_eq_true] at valid
    obtain ⟨⟨typeValid, bodyValid⟩, restValid⟩ := valid
    refine judge.bind (reviseOption_unchanged asText place type) ?_
    rintro _ rfl
    refine judge.bind (body_taken asText place body bodyValid) fun body' bodyTaken => ?_
    refine judge.bind (handlers_taken asText place rest restValid) fun rest' restTaken => ?_
    refine judge.pure ⟨?_, ?_, ?_⟩
    · simp [Stmt.areHandlersWellFormed, typeValid, bodyTaken.wellFormed, restTaken.wellFormed]
    · rw [List.map_cons, List.map_cons, restTaken.types]
      rfl
    · exact (Within.refl _).append (bodyTaken.findings.append restTaken.findings)

end

end Hints

/-- What is lowered of a module has its findings, up to those that are left open. -/
theorem takeHints_taken {body : List Stmt} (valid : Stmt.areWellFormed body = true)
    (options : Options) :
    Stmt.areWellFormed (takeHints body).2 = true ∧
      Finding.Within
        (Stmt.findingsOfBody ⟨options.importStar, true⟩ .moduleScope (takeHints body).2)
        (Stmt.moduleFindings options body) := by
  have taken : Hints.Taken options.importStar (Hints.takeRequest body).1 .moduleScope
      (Hints.takeRequest body).2 (takeHints body).2 :=
    Hints.bindRecord_taken (Hints.body_taken _ ⟨.moduleScope, false⟩ _
      (Hints.takeRequest_wellFormed valid) false) _
  refine ⟨taken.wellFormed, ?_⟩
  have found := taken.findings
  rw [Hints.takeRequest_findings, Hints.takeRequest_asks] at found
  exact found

end Unsugar
