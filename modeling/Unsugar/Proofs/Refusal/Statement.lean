import Unsugar.Proofs.Refusal.Expression

/-! Lowering a body evaluates all of it: it is refused if a finding of the body is certain,
and only for the reason of a finding. -/

namespace Unsugar

theorem Deferred.runAll_refuses_map {α : Type} {findings : α → List Finding} {build : α → Deferred} :
    ∀ {items : List α}, (∀ item ∈ items, Desugar.Refuses (findings item) (build item)) →
      Desugar.Refuses (items.flatMap findings) (runAll (items.map build))
  | [], _ => .pure
  | first :: rest, each => by
    obtain ⟨here, later⟩ := List.forall_mem_cons.mp each
    exact here.bind fun _ => (runAll_refuses_map later).last fun _ => .pure

/-- A single target can be bound. -/
theorem Expr.isTarget_of_isSingleTarget {target : Expr} (single : target.isSingleTarget = true)
    (valid : target.isWellFormed = true) : target.isTarget false = true := by
  unfold Expr.isSingleTarget at single
  split at single
  · exact valid
  · exact valid
  · exact valid
  · cases single

/-- Hints that are kept as text are not evaluated. -/
theorem Stmt.hintFindings_of_text {reading : Reading} (asText : reading.hintsAsText = true)
    {kind : ScopeKind} {hint target : Expr} : hintFindings reading kind hint target = [] := by
  cases target <;> simp [hintFindings, asText]

namespace Lowering

variable {found first second : List Finding}

/-! ## Simple statements -/

theorem assign_refuses {env : Env} {target value : Expr} (targetValid : target.isTarget false = true)
    (valueValid : value.isWellFormed = true) :
    Desugar.Refuses (value.findings env.frame.kind ++ target.targetFindings env.frame.kind)
      (assign env target value) := by
  obtain ⟨faultless, wellFormed⟩ := Bool.and_eq_true_iff.mp targetValid
  exact assignTo_refuses env target wellFormed (Option.isNone_iff_eq_none.mp faultless) value
    (lower_refuses env value valueValid)

theorem assignEach_refuses {env : Env} {targets : List Expr} {value : Expr}
    (targetsValid : targets.all (Expr.isTarget false) = true)
    (valueValid : value.isWellFormed = true) (none : value.findings env.frame.kind = []) :
    Desugar.Refuses (Stmt.targetFindings env.frame.kind targets)
      (Deferred.runAll (targets.map fun target => assign env target value)) := by
  refine Deferred.runAll_refuses_map fun target member => ?_
  have given := @assign_refuses env target value
    (List.all_eq_true.mp targetsValid target member) valueValid
  rwa [none] at given

theorem assignAll_refuses {env : Env} {targets : List Expr} {value : Expr}
    (targetsValid : targets.all (Expr.isTarget false) = true)
    (valueValid : value.isWellFormed = true) :
    Desugar.Refuses (value.findings env.frame.kind ++ Stmt.targetFindings env.frame.kind targets)
      (assignAll env targets value) := by
  unfold assignAll
  by_cases isPure : value.isPure = true
  · have none := Expr.findings_of_isPure env.frame.kind isPure
    simp only [isPure, if_true, none]
    exact .known (.apply (assignEach_refuses targetsValid valueValid none))
  · simp only [isPure]
    have named : Desugar.Gives (fun _ => False) (fun saved => ∃ name, saved = some name)
        (some <$> Desugar.fresh "tmp") := (Desugar.Gives.fresh "tmp").map fun name _ => ⟨name, rfl⟩
    refine .after named fun saved isSome => .apply ?_
    obtain ⟨name, rfl⟩ := isSome
    exact (lower_refuses env value valueValid).storing.bind fun _ =>
      (assignEach_refuses targetsValid rfl rfl).last fun _ => .pure

/-- An expression without findings that stands for another one, and what comes ahead. -/
structure Stands (kind : ScopeKind) (found : List Finding) (part : Expr)
    (ahead : List Deferred) : Prop where
  wellFormed : part.isWellFormed = true
  clean : part.findings kind = []
  prepares : Desugar.Refuses found (Deferred.runAll ahead)

theorem once_gives_part (env : Env) (named : Bool) {part : Expr}
    (valid : part.isWellFormed = true) :
    Desugar.Gives (fun _ => False)
      (fun copy => Stands env.frame.kind (part.findings env.frame.kind) copy.1 copy.2)
      (once env named part) := by
  unfold once
  split
  · rename_i copies
    have clean := Expr.findings_of_isCopyable env.frame.kind _ (Bool.and_eq_true_iff.mp copies).1
    refine .pure ⟨valid, clean, ?_⟩
    rw [clean]
    exact .pure
  · refine (Desugar.Gives.fresh "tmp").bind fun saved _ => .pure ⟨rfl, rfl, ?_⟩
    rw [Deferred.runAll_singleton]
    exact (lower_refuses env part valid).storing

theorem readAndWrite_gives_parts (env : Env) (named : Bool) : ∀ {target : Expr},
    target.isSingleTarget = true → target.isWellFormed = true →
    Desugar.Gives (fun _ => False)
      (fun parts => Stands env.frame.kind (target.targetFindings env.frame.kind) parts.1 parts.2.2 ∧
        parts.2.1.isTarget false = true ∧ parts.2.1.targetFindings env.frame.kind = [])
      (readAndWrite env named target)
  | .name .., _, _ => .pure ⟨⟨rfl, rfl, .pure⟩, rfl, rfl⟩
  | .member object _ _, _, valid =>
    (@once_gives_part env named object valid).bind fun _ given =>
      .pure ⟨⟨given.wellFormed, given.clean, given.prepares⟩, given.wellFormed, given.clean⟩
  | .subscript object key _, _, valid => by
    obtain ⟨objectValid, keyValid⟩ := Bool.and_eq_true_iff.mp valid
    refine (once_gives_part env named objectValid).bind fun (object, _) objectGiven => ?_
    refine (once_gives_part env named keyValid).bind fun (key, _) keyGiven => .pure ?_
    have wellFormed : (Expr.subscript object key .unknown).isWellFormed = true :=
      Bool.and_eq_true_iff.mpr ⟨objectGiven.wellFormed, keyGiven.wellFormed⟩
    have clean : (Expr.subscript object key .unknown).findings env.frame.kind = [] :=
      List.append_eq_nil_iff.mpr ⟨objectGiven.clean, keyGiven.clean⟩
    refine ⟨⟨wellFormed, clean, ?_⟩, wellFormed, clean⟩
    exact Deferred.runAll_refuses_append objectGiven.prepares keyGiven.prepares

theorem augment_refuses {env : Env} {target : Expr} {op : BinaryOp} {value : Expr}
    (single : target.isSingleTarget = true) (targetValid : target.isWellFormed = true)
    (valueValid : value.isWellFormed = true) :
    Desugar.Refuses (target.targetFindings env.frame.kind ++ value.findings env.frame.kind)
      (augment env target op value) := by
  refine .after (readAndWrite_gives_parts env value.hasNamed single targetValid) ?_
  rintro ⟨read, written, ahead⟩ ⟨given, isTarget, clean⟩
  refine .apply (Deferred.runAll_refuses_append given.prepares ?_)
  rw [Deferred.runAll_singleton]
  have updated : (Expr.supportCall op.inPlaceFunction [read, value]).isWellFormed = true := by
    simp [Expr.supportCall, Expr.apply, Expr.support, Expr.attributeOf, Expr.ofName,
      Expr.isWellFormed, Expr.areWellFormed, given.wellFormed, valueValid]
  have found : (Expr.supportCall op.inPlaceFunction [read, value]).findings env.frame.kind =
      value.findings env.frame.kind := by
    simp [Expr.supportCall, Expr.apply, Expr.support, Expr.attributeOf, Expr.ofName,
      Expr.findings, Expr.findingsOfList, given.clean]
  have assigned := @assign_refuses env written _ isTarget updated
  rwa [found, clean, List.append_nil] at assigned

/-- No target of a deletion is starred. -/
theorem elementFindings_of_deletable {kind : ScopeKind} : ∀ {items : List Expr},
    (∀ item ∈ items, Grammar.targetFault true item = none) →
    Expr.elementFindings kind items = Stmt.targetFindings kind items
  | [], _ => rfl
  | first :: rest, faultless => by
    obtain ⟨here, later⟩ := List.forall_mem_cons.mp faultless
    have plain : isStarred first = false := by
      cases first with
      | starred => simp [Grammar.targetFault] at here
      | _ => rfl
    rw [Expr.elementFindings_cons_of_plain plain, elementFindings_of_deletable later]
    rfl

mutual

theorem deleteTarget_refuses (env : Env) (position : Position) : ∀ target : Expr,
    target.isWellFormed = true → Grammar.targetFault true target = none →
    ∃ deletions, deleteTarget env position target = .ok deletions ∧
      Desugar.Refuses (target.targetFindings env.frame.kind) (Deferred.runAll deletions)
  | .name .., _, _ => ⟨_, rfl, Desugar.Refuses.known .pure⟩
  | .tuple _ items _, valid, faultless | .list _ items _, valid, faultless => by
    have each := Grammar.targetFault_of_targetsFault faultless
    obtain ⟨deletions, found, refuses⟩ := deleteTargets_refuse env position items valid each
    rw [Expr.targetFindings, elementFindings_of_deletable each]
    exact ⟨deletions, found, refuses⟩
  | .subscript object key _, valid, _ => by
    obtain ⟨objectValid, keyValid⟩ := Bool.and_eq_true_iff.mp valid
    refine ⟨_, rfl, ?_⟩
    rw [Deferred.runAll_singleton]
    exact Refuses.flush <| (supporting_refuses (.pair (lower_refuses env object objectValid)
      (lower_refuses env key keyValid))).last fun _ => .pure
  | .member object _ id, valid, _ => by
    have objectRefuses := lower_refuses env object valid
    unfold deleteTarget
    split
    · refine ⟨_, rfl, ?_⟩
      rw [Deferred.runAll_singleton]
      exact Refuses.flush (objectRefuses.last fun _ => .pure)
    · refine ⟨_, rfl, ?_⟩
      rw [Deferred.runAll_singleton]
      have arguments : EachRefuses _ [lower env object, return .ofText id] :=
        .cons objectRefuses (.single .pure)
      rw [List.append_nil] at arguments
      exact Refuses.flush ((supporting_refuses arguments).last fun _ => .pure)
  | .literal .., _, faultless | .fstring .., _, faultless | .field .., _, faultless
  | .call .., _, faultless | .keyword .., _, faultless | .starred .., _, faultless
  | .slice .., _, faultless | .binary .., _, faultless | .logical .., _, faultless
  | .compare .., _, faultless | .unary .., _, faultless | .conditional .., _, faultless
  | .lambda .., _, faultless | .set .., _, faultless | .dict .., _, faultless
  | .entry .., _, faultless | .comprehension .., _, faultless | .named .., _, faultless
  | .yield .., _, faultless => by simp [Grammar.targetFault] at faultless

theorem deleteTargets_refuse (env : Env) (position : Position) : ∀ targets : List Expr,
    Expr.areWellFormed targets = true →
    (∀ target ∈ targets, Grammar.targetFault true target = none) →
    ∃ deletions, deleteTargets env position targets = .ok deletions ∧
      Desugar.Refuses (Stmt.targetFindings env.frame.kind targets) (Deferred.runAll deletions)
  | [], _, _ => ⟨[], rfl, .pure⟩
  | first :: rest, valid, faultless => by
    obtain ⟨firstValid, restValid⟩ := Bool.and_eq_true_iff.mp valid
    obtain ⟨firstFaultless, restFaultless⟩ := List.forall_mem_cons.mp faultless
    obtain ⟨here, hereFound, hereRefuses⟩ :=
      deleteTarget_refuses env position first firstValid firstFaultless
    obtain ⟨later, laterFound, laterRefuse⟩ :=
      deleteTargets_refuse env position rest restValid restFaultless
    refine ⟨here ++ later, ?_, Deferred.runAll_refuses_append hereRefuses laterRefuse⟩
    rw [deleteTargets, hereFound, laterFound]
    rfl

end

theorem delete_refuses {env : Env} {position : Position} {targets : List Expr}
    (valid : targets.all (Expr.isTarget true) = true) :
    Desugar.Refuses (Stmt.targetFindings env.frame.kind targets) (delete env position targets) := by
  have each : ∀ target ∈ targets, target.isWellFormed = true ∧
      Grammar.targetFault true target = none := by
    simpa [Expr.isTarget, and_comm] using valid
  obtain ⟨deletions, found, refuses⟩ := deleteTargets_refuse env position targets
    (Expr.areWellFormed_iff.mpr fun target member => (each target member).1)
    fun target member => (each target member).2
  unfold delete
  rw [found]
  exact .ite (.apply refuses) refuses

theorem assert_refuses {env : Env} {position : Position} {test : Expr} {message : Option Expr}
    (testValid : test.isWellFormed = true)
    (messageValid : Expr.isWellFormedOption message = true) :
    Desugar.Refuses
      (test.findings env.frame.kind ++ Expr.findingsOfOption env.frame.kind message)
      (assert env position test message) := by
  refine .apply (Desugar.Refuses.last (Refuses.flush ?_) fun _ => .pure)
  refine (supporting_refuses (.single (lower_refuses env test testValid))).bind fun _ => ?_
  refine (Refuses.lift (Refuses.flush ?_)).last fun _ => .pure
  cases message with
  | none => exact .pure
  | some message =>
    exact (calling_refuses (.single (lower_refuses env message messageValid))).last fun _ => .pure

/-! ## Imports -/

theorem importMembers_refuses {env : Env} {position : Position} {source : String} {level : Nat}
    {names : List Alias} {closing : Position} :
    Desugar.Refuses
      (if env.options.importStar = .refused && names.any (·.path == "*") then [⟨.starImport, true⟩]
        else [])
      (importMembers env position source level names closing) := by
  unfold importMembers
  cases names.any (·.path == "*") with
  | true =>
    cases env.options.importStar with
    | allowed => exact .pure
    | refused => exact .refuse (List.mem_singleton_self _) rfl
    | stripped => exact .apply .pure
  | false =>
    rw [Bool.and_false]
    exact .ite .pure (.fresh fun _ => .apply .pure)

/-! ## Compound statements -/

theorem ifPresent_refuses {source : List Stmt} {lowered : Desugar (List Stmt)}
    {findings : List Stmt → List Finding} (empty : findings [] = [])
    (refuses : Desugar.Refuses (findings source) lowered) :
    OptionRefuses (findings source) (ifPresent source lowered) := by
  cases source with
  | nil => exact empty
  | cons first rest => exact refuses

theorem loopTesting_refuses {position : Position} {test : Lowering Expr}
    {body : Desugar (List Stmt)} {orelse : Option (Desugar (List Stmt))}
    (testRefuses : Refuses found test) (bodyRefuses : Desugar.Refuses first body)
    (orelseRefuses : OptionRefuses second orelse) :
    Desugar.Refuses (found ++ (first ++ second)) (loopTesting position test body orelse) := by
  refine .fresh fun _ => .apply ?_
  refine Desugar.Refuses.bind (Refuses.flush
    ((supporting_refuses (.single testRefuses)).last fun _ => .pure)) fun _ => ?_
  refine bodyRefuses.bind fun _ => ?_
  cases orelse with
  | none =>
    obtain rfl := orelseRefuses
    exact .pure
  | some orelse => exact Desugar.Refuses.last orelseRefuses fun _ => .pure

theorem managing_refuses {env : Env} {position : Position} {body : Desugar (List Stmt)}
    (bodyRefuses : Desugar.Refuses found body) : ∀ {items : List WithItem},
    items.all Stmt.isItemWellFormed = true →
    Desugar.Refuses (Stmt.managerFindings env.frame.kind items ++ found)
      (managing env position body items)
  | [], _ => bodyRefuses
  | ⟨manager, target⟩ :: rest, valid => by
    obtain ⟨here, restValid⟩ := Bool.and_eq_true_iff.mp valid
    obtain ⟨managerValid, targetValid⟩ := Bool.and_eq_true_iff.mp here
    have later := @managing_refuses env position body bodyRefuses rest restValid
    rw [Stmt.managerFindings, List.flatMap_cons, List.append_assoc, List.append_assoc]
    refine .fresh fun _ => .fresh fun _ => .fresh fun _ => .apply ?_
    refine (lower_refuses env manager managerValid).storing.bind fun _ => ?_
    cases target with
    | none => exact .known (later.last fun _ => .pure)
    | some target =>
      have entered : ∀ manager, Desugar.Refuses (Stmt.targetFindings env.frame.kind [target])
          (assign env target (.supportCall "contextmanager_enter" [.ofName manager])) := fun _ => by
        rw [Stmt.targetFindings, List.flatMap_singleton]
        exact assign_refuses targetValid rfl
      exact (entered _).bind fun _ => later.last fun _ => .pure

/-- Handlers with the findings of all of them, where only the last one may be bare. -/
inductive CatchesRefuse : List Finding → List Catch → Prop
  | nil : CatchesRefuse [] []
  | bare {found : List Finding} {position : Position} {ident : Option Ident}
      {body : Desugar (List Stmt)} (bodyRefuses : Desugar.Refuses found body) :
      CatchesRefuse found [⟨position, none, ident, body⟩]
  | typed {found first second : List Finding} {position : Position} {type : Lowering Expr}
      {ident : Option Ident} {body : Desugar (List Stmt)} {rest : List Catch}
      (typeRefuses : Refuses found type) (bodyRefuses : Desugar.Refuses first body)
      (others : CatchesRefuse second rest) :
      CatchesRefuse (found ++ (first ++ second)) (⟨position, some type, ident, body⟩ :: rest)

theorem choosingHandler_refuses {handlers : List Catch} (each : CatchesRefuse found handlers) :
    Desugar.Refuses found (choosingHandler handlers) := by
  induction each with
  | nil => exact .pure
  | bare bodyRefuses => exact bodyRefuses
  | typed typeRefuses bodyRefuses others induction =>
    refine Refuses.flush ?_
    refine (supporting_refuses (.cons .pure (.single typeRefuses))).bind fun _ => ?_
    refine (Refuses.lift bodyRefuses).bind fun _ => ?_
    exact (Refuses.lift induction).last fun _ => .pure

theorem catching_refuses {position : Position} {body orelse final : Desugar (List Stmt)}
    {handlers : List Catch} {bodyFound finalFound : List Finding}
    (bodyRefuses : Desugar.Refuses bodyFound body) (handlersRefuse : CatchesRefuse first handlers)
    (orelseRefuses : Desugar.Refuses second orelse)
    (finalRefuses : Desugar.Refuses finalFound final) :
    Desugar.Refuses (bodyFound ++ (first ++ (second ++ finalFound)))
      (catching position body handlers orelse final) := by
  refine .apply (bodyRefuses.bind fun _ => ?_)
  refine (choosingHandler_refuses handlersRefuse).bind fun _ => ?_
  exact orelseRefuses.bind fun _ => finalRefuses.last fun _ => .pure

theorem mapM_lower_refuses (env : Env) {items : List Expr}
    (valid : Expr.areWellFormed items = true) :
    Refuses (Expr.findingsOfList env.frame.kind items) (items.mapM (lower env)) := by
  induction items with
  | nil =>
    rw [List.mapM_nil]
    exact .pure
  | cons first rest induction =>
    obtain ⟨firstValid, restValid⟩ := Bool.and_eq_true_iff.mp valid
    rw [List.mapM_cons]
    refine (lower_refuses env first firstValid).bind fun _ => ?_
    exact (induction restValid).last fun _ => .pure

mutual

theorem lowerStmt_refuses (env : Env) : ∀ stmt : Stmt, stmt.isWellFormed = true →
    Desugar.Refuses (stmt.findings ⟨env.options.importStar, true⟩ env.frame.kind)
      (lowerStmt env stmt)
  | .expression value, valid =>
    Refuses.flush ((lower_refuses env value valid).last fun _ => .pure)
  | .assign [target] value, valid => by
    obtain ⟨targetsValid, valueValid⟩ := Bool.and_eq_true_iff.mp valid
    have targetValid := List.all_eq_true.mp targetsValid target (by simp)
    rw [Stmt.findings, Stmt.targetFindings, List.flatMap_singleton]
    exact assign_refuses targetValid valueValid
  | .assign [] value, valid => assignAll_refuses rfl valid
  | .assign (first :: second :: rest) value, valid => by
    obtain ⟨targetsValid, valueValid⟩ := Bool.and_eq_true_iff.mp valid
    exact assignAll_refuses targetsValid valueValid
  | .augAssign target op value, valid => by
    simp only [Stmt.isWellFormed, Bool.and_eq_true] at valid
    exact augment_refuses valid.1.1 valid.1.2 valid.2
  | .annAssign target hint none, _ => by
    rw [Stmt.findings, Stmt.hintFindings_of_text rfl, List.append_nil]
    have untouched : Desugar.Refuses [] (lowerStmt env (.annAssign target hint none)) :=
      .apply .pure
    -- Nothing is evaluated, but the findings of the target are open anyway.
    refine untouched.widen ⟨by simp, fun finding member certain => ?_⟩
    obtain ⟨original, _, rfl⟩ := List.mem_map.mp member
    cases certain
  | .annAssign target hint (some value), valid => by
    simp only [Stmt.isWellFormed, Bool.and_eq_true] at valid
    obtain ⟨⟨⟨single, targetValid⟩, _⟩, valueValid⟩ := valid
    rw [Stmt.findings, Stmt.hintFindings_of_text rfl, List.append_nil]
    exact .apply (assign_refuses (Expr.isTarget_of_isSingleTarget single targetValid) valueValid)
  | .delete .., valid => delete_refuses valid
  | .branch .., _ => .pure
  | .returns _ result, valid =>
    Refuses.flush ((lowerOption_refuses env result valid).last fun _ => .pure)
  | .raises _ none none, _ => Refuses.flush (.known .pure)
  | .raises _ none (some _), valid => by cases valid
  | .raises _ (some exception) none, valid => by
    have exceptionValid : exception.isWellFormed = true := by
      simpa [Stmt.isWellFormed, Expr.isWellFormedOption] using valid
    rw [Stmt.findings, Expr.findingsOfOption, Expr.findingsOfOption, List.append_nil]
    exact Refuses.flush
      ((lowerOption_refuses env (some exception) exceptionValid).last fun _ => .pure)
  | .raises _ (some exception) (some cause), valid => by
    obtain ⟨exceptionValid, causeValid⟩ : exception.isWellFormed = true ∧
        cause.isWellFormed = true := by
      simpa [Stmt.isWellFormed, Expr.isWellFormedOption] using valid
    refine .apply (Refuses.flush ?_)
    exact (supporting_refuses (.pair (lower_refuses env exception exceptionValid)
      (lower_refuses env cause causeValid))).last fun _ => .pure
  | .declare .., _ => .pure
  | .asserts _ test message, valid => by
    obtain ⟨testValid, messageValid⟩ := Bool.and_eq_true_iff.mp valid
    exact assert_refuses testValid messageValid
  | .imports .., _ => .apply .pure
  | .importFrom .., _ => importMembers_refuses
  | .conditional _ test body _ orelse, valid => by
    simp only [Stmt.isWellFormed, Bool.and_eq_true] at valid
    obtain ⟨⟨testValid, bodyValid⟩, orelseValid⟩ := valid
    refine Refuses.flush ((lower_refuses env test testValid).bind fun _ => ?_)
    refine (Refuses.lift (lowerBody_refuses env body bodyValid)).bind fun _ => ?_
    exact (Refuses.lift (lowerBody_refuses env orelse orelseValid)).last fun _ => .pure
  | .whileLoop position test body orelse, valid => by
    simp only [Stmt.isWellFormed, Bool.and_eq_true] at valid
    obtain ⟨⟨testValid, bodyValid⟩, orelseValid⟩ := valid
    have testRefuses := lower_refuses env test testValid
    have bodyRefuses := lowerBody_refuses env body bodyValid
    have orelseRefuses := lowerBody_refuses env orelse orelseValid
    rw [lowerStmt]
    refine .ite (loopTesting_refuses testRefuses bodyRefuses (ifPresent_refuses rfl orelseRefuses)) ?_
    refine Refuses.flush (testRefuses.bind fun _ => ?_)
    refine (Refuses.lift bodyRefuses).bind fun _ => ?_
    exact (Refuses.lift orelseRefuses).last fun _ => .pure
  | .forLoop position target iterable body orelse, valid => by
    simp only [Stmt.isWellFormed, Bool.and_eq_true] at valid
    obtain ⟨⟨⟨targetValid, iterableValid⟩, bodyValid⟩, orelseValid⟩ := valid
    exact looping_refuses (lower_refuses env iterable iterableValid)
      (fun _ => assign_refuses targetValid rfl) (lowerBody_refuses env body bodyValid)
      (ifPresent_refuses rfl (lowerBody_refuses env orelse orelseValid))
  | .tryBlock position body handlers orelse final, valid => by
    simp only [Stmt.isWellFormed, Bool.and_eq_true, Option.isNone_iff_eq_none] at valid
    obtain ⟨⟨⟨⟨notEarly, bodyValid⟩, handlersValid⟩, orelseValid⟩, finalValid⟩ := valid
    have bodyRefuses := lowerBody_refuses env body bodyValid
    have orelseRefuses := lowerBody_refuses env orelse orelseValid
    have finalRefuses := lowerBody_refuses env final finalValid
    rw [lowerStmt]
    -- Handlers with types become a chain of tests; a lone bare one stays a handler.
    split
    · rw [notEarly]
      exact catching_refuses bodyRefuses
        (lowerCatches_refuse env handlers handlersValid notEarly) orelseRefuses finalRefuses
    · rename_i bare
      refine bodyRefuses.bind fun _ => ?_
      refine (lowerHandlers_refuse env handlers handlersValid (by simpa using bare)).bind fun _ => ?_
      exact orelseRefuses.bind fun _ => finalRefuses.last fun _ => .pure
  | .withBlock position items body, valid => by
    obtain ⟨itemsValid, bodyValid⟩ := Bool.and_eq_true_iff.mp valid
    exact managing_refuses (lowerBody_refuses env body bodyValid) itemsValid
  | .function decorators position ident params result body, valid => by
    simp only [Stmt.isWellFormed, Bool.and_eq_true] at valid
    obtain ⟨⟨decoratorsValid, paramsValid⟩, bodyValid⟩ := valid
    refine Refuses.flush ((mapM_lower_refuses env decoratorsValid).bind fun _ => ?_)
    refine (lowerParams_refuses env params paramsValid).bind fun _ => ?_
    exact (Refuses.lift (lowerBody_refuses { env with frame := .functionFrame ident.name } body
      bodyValid)).last fun _ => .pure
  | .classDef decorators position ident bases body, valid => by
    simp only [Stmt.isWellFormed, Bool.and_eq_true] at valid
    obtain ⟨⟨decoratorsValid, basesValid⟩, bodyValid⟩ := valid
    refine Refuses.flush ((mapM_lower_refuses env decoratorsValid).bind fun _ => ?_)
    refine (mapM_lower_refuses env basesValid).bind fun _ => ?_
    exact (Refuses.lift (lowerBody_refuses { env with frame := .classFrame } body
      bodyValid)).last fun _ => .pure

theorem lowerBody_refuses (env : Env) : ∀ body : List Stmt, Stmt.areWellFormed body = true →
    Desugar.Refuses (Stmt.findingsOfBody ⟨env.options.importStar, true⟩ env.frame.kind body)
      (lowerBody env body)
  | [], _ => .pure
  | first :: rest, valid => by
    obtain ⟨firstValid, restValid⟩ := Bool.and_eq_true_iff.mp valid
    refine (lowerStmt_refuses env first firstValid).bind fun _ => ?_
    exact (lowerBody_refuses env rest restValid).last fun _ => .pure

theorem lowerHandlers_refuse (env : Env) : ∀ handlers : List Handler,
    Stmt.areHandlersWellFormed handlers = true → handlers.any isTyped = false →
    Desugar.Refuses
      (Stmt.findingsOfHandlers ⟨env.options.importStar, true⟩ env.frame.kind handlers)
      (lowerHandlers env handlers)
  | [], _, _ => .pure
  | .mk _ type _ body :: rest, valid, bare => by
    simp only [Stmt.areHandlersWellFormed, Bool.and_eq_true] at valid
    obtain ⟨⟨_, bodyValid⟩, restValid⟩ := valid
    obtain ⟨here, later⟩ := Bool.or_eq_false_iff.mp bare
    cases type with
    | some type => cases here
    | none =>
      refine (lowerBody_refuses env body bodyValid).bind fun _ => ?_
      exact (lowerHandlers_refuse env rest restValid later).last fun _ => .pure

theorem lowerCatches_refuse (env : Env) : ∀ handlers : List Handler,
    Stmt.areHandlersWellFormed handlers = true → earlyBareHandler? handlers = none →
    CatchesRefuse (Stmt.findingsOfHandlers ⟨env.options.importStar, true⟩ env.frame.kind handlers)
      (lowerCatches env handlers)
  | [], _, _ => .nil
  | .mk _ type _ body :: rest, valid, notEarly => by
    simp only [Stmt.areHandlersWellFormed, Bool.and_eq_true] at valid
    obtain ⟨⟨typeValid, bodyValid⟩, restValid⟩ := valid
    have bodyRefuses := lowerBody_refuses env body bodyValid
    have later := lowerCatches_refuse env rest restValid
    cases type with
    | some type =>
      refine .typed (lower_refuses env type typeValid) bodyRefuses (later ?_)
      cases rest with
      | nil => rfl
      | cons next others => exact notEarly_of_cons notEarly
    | none =>
      cases rest with
      | nil =>
        rw [Stmt.findingsOfHandlers, Stmt.findingsOfHandlers, List.append_nil]
        exact .bare bodyRefuses
      | cons next others => simp [earlyBareHandler?, Handler.type] at notEarly

end

end Lowering
end Unsugar
