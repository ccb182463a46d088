import Unsugar.Proofs.Lowering.Expression

/-! Lowering a module reaches the lowered form in one pass. -/

namespace Unsugar
namespace Lowering

variable {form : Form}

/-! ## Simple statements -/

theorem assign_makes {env : Env} (agrees : env.options = form.options) (target value : Expr) :
    MakesBody form (assign env target value) :=
  assignTo_makes env agrees target value (lower_makes env agrees value).anywhere

theorem assignAll_makes {env : Env} (agrees : env.options = form.options) (targets : List Expr)
    (value : Expr) : MakesBody form (assignAll env targets value) := by
  have stored : ∀ saved : Option String, MakesBody form (Deferred.runAll
      (saved.toList.map (fun name => storing name (lower env value)) ++
        targets.map fun target => assign env target ((saved.map Expr.ofName).getD value))) := by
    intro saved
    refine Deferred.runAll_gives (List.forall_mem_append.mpr ⟨?_, ?_⟩)
    · exact List.forall_mem_map.mpr fun name _ => storing_makes (lower_makes env agrees value)
    · exact List.forall_mem_map.mpr fun target _ => assign_makes agrees target _
  unfold assignAll
  split
  · exact (Desugar.Gives.apply _ _ _).bind fun _ _ => stored none
  · have named : Desugar.Gives Failure.IsRefusal (fun _ => True)
        (some <$> Desugar.fresh "tmp") := (Desugar.Gives.fresh "tmp").map fun _ _ => trivial
    refine named.bind fun saved _ => ?_
    exact (Desugar.Gives.apply _ _ _).bind fun _ _ => stored saved

theorem once_gives {env : Env} (agrees : env.options = form.options) (named : Bool) (part : Expr) :
    Desugar.Gives Failure.IsRefusal (fun saved => ∀ ahead ∈ saved.2, MakesBody form ahead)
      (once env named part) := by
  unfold once
  split
  · exact .pure (by simp)
  · refine (Desugar.Gives.fresh "tmp").bind fun saved _ => .pure ?_
    simpa using storing_makes (lower_makes env agrees part)

theorem readAndWrite_gives {env : Env} (agrees : env.options = form.options) (named : Bool) :
    ∀ target : Expr, Desugar.Gives Failure.IsRefusal
      (fun parts => ∀ ahead ∈ parts.2.2, MakesBody form ahead) (readAndWrite env named target)
  | .name .. => .pure (by simp)
  | .member object _ _ => (once_gives agrees named object).bind fun _ made => .pure made
  | .subscript object key _ => by
    refine (once_gives agrees named object).bind fun _ objectMade => ?_
    refine (once_gives agrees named key).bind fun _ keyMade => .pure ?_
    exact List.forall_mem_append.mpr ⟨objectMade, keyMade⟩
  | .literal .. | .fstring .. | .field .. | .call .. | .keyword .. | .starred .. | .slice ..
  | .binary .. | .logical .. | .compare .. | .unary .. | .conditional .. | .lambda .. | .list ..
  | .tuple .. | .set .. | .dict .. | .entry .. | .comprehension .. | .named .. | .yield .. =>
    .refuse _ _

theorem augment_makes {env : Env} (agrees : env.options = form.options) (target : Expr)
    (op : BinaryOp) (value : Expr) : MakesBody form (augment env target op value) := by
  refine (readAndWrite_gives agrees value.hasNamed target).bind fun parts aheadMade => ?_
  refine (Desugar.Gives.apply _ _ _).bind fun _ _ => Deferred.runAll_gives ?_
  exact List.forall_mem_append.mpr ⟨aheadMade, by simpa using assign_makes agrees _ _⟩

mutual

theorem deleteTarget_makes {env : Env} (agrees : env.options = form.options)
    (position : Position) : ∀ (target : Expr) (deletions : List Deferred),
      deleteTarget env position target = .ok deletions →
      ∀ deletion ∈ deletions, MakesBody form deletion
  | .name .., _, found => by
    cases found
    exact List.forall_mem_singleton.mpr (MakesBody.pure rfl)
  | .tuple _ items _, deletions, found => deleteTargets_makes agrees position items deletions found
  | .list _ items _, deletions, found => deleteTargets_makes agrees position items deletions found
  | .subscript object key _, _, found => by
    cases found
    have called : Makes form True (supporting "delitem" [lower env object, lower env key]) := by
      refine supporting_makes ?_
      simpa using ⟨(lower_makes env agrees object).anywhere, (lower_makes env agrees key).anywhere⟩
    exact List.forall_mem_singleton.mpr (Gives.flush (called.bind fun _ made => .pure made.1))
  | .member object _ id, deletions, found => by
    unfold deleteTarget at found
    split at found
    · rename_i reserved
      cases found
      rw [lower_of_isReservedPath env reserved]
      exact List.forall_mem_singleton.mpr (Gives.flush (.pure reserved))
    · cases found
      have called : Makes form True
          (supporting "delattr" [lower env object, return .ofText id]) := by
        refine supporting_makes ?_
        simpa using ⟨(lower_makes env agrees object).anywhere, .pure (isMade_ofText id)⟩
      exact List.forall_mem_singleton.mpr (Gives.flush (called.bind fun _ made => .pure made.1))
  | .literal .., _, found | .fstring .., _, found | .field .., _, found | .call .., _, found
  | .keyword .., _, found | .starred .., _, found | .slice .., _, found | .binary .., _, found
  | .logical .., _, found | .compare .., _, found | .unary .., _, found
  | .conditional .., _, found | .lambda .., _, found | .set .., _, found | .dict .., _, found
  | .entry .., _, found | .comprehension .., _, found | .named .., _, found
  | .yield .., _, found => by cases found

theorem deleteTargets_makes {env : Env} (agrees : env.options = form.options)
    (position : Position) : ∀ (targets : List Expr) (deletions : List Deferred),
      deleteTargets env position targets = .ok deletions →
      ∀ deletion ∈ deletions, MakesBody form deletion
  | [], _, found => by
    cases found
    simp
  | first :: rest, deletions, found => by
    rw [deleteTargets] at found
    cases firstFound : deleteTarget env position first with
    | error => simp [firstFound, bind, Except.bind] at found
    | ok here =>
      cases restFound : deleteTargets env position rest with
      | error => simp [firstFound, restFound, bind, Except.bind] at found
      | ok later =>
        have equal : here ++ later = deletions := by
          simpa [firstFound, restFound, bind, Except.bind, pure, Except.pure] using found
        rw [← equal]
        exact List.forall_mem_append.mpr
          ⟨deleteTarget_makes agrees position first here firstFound,
            deleteTargets_makes agrees position rest later restFound⟩

end

theorem delete_makes {env : Env} (agrees : env.options = form.options) (position : Position)
    (targets : List Expr) : MakesBody form (delete env position targets) := by
  unfold delete
  split
  · exact .refuse _ _
  · rename_i deletions found
    have run : MakesBody form (Deferred.runAll deletions) :=
      Deferred.runAll_gives (deleteTargets_makes agrees position targets deletions found)
    split
    · exact (Desugar.Gives.apply _ _ _).bind fun _ _ => run
    · exact run

theorem assertionFailure_makes {env : Env} (agrees : env.options = form.options)
    (message : Option Expr) :
    MakesBody form (flush do
      match message with
      | none => return .raises .unknown (some (.builtin "AssertionError")) none
      | some message =>
        return .raises .unknown (some (← applying (return .builtin "AssertionError")
          [lower env message])) none) := by
  refine Gives.flush ?_
  cases message with
  | none => exact .pure (Expr.isLowered_builtin "AssertionError")
  | some message =>
    have called : Makes form True
        (applying (return .builtin "AssertionError") [lower env message]) :=
      applying_makes (.pure (isMade_builtin _))
        (by simpa using (lower_makes env agrees message).anywhere)
    exact called.bind fun _ made => .pure made.1

theorem assert_makes {env : Env} (agrees : env.options = form.options) (position : Position)
    (test : Expr) (message : Option Expr) : MakesBody form (assert env position test message) := by
  refine (Desugar.Gives.apply _ _ _).bind fun _ _ => ?_
  have failed : Makes form True (supporting "not_" [lower env test]) :=
    supporting_makes (by simpa using (lower_makes env agrees test).anywhere)
  refine MakesBody.bind (Gives.flush (failed.bind fun test testMade =>
    (assertionFailure_makes agrees message).lifted fun body bodyLowered => .pure ?_))
    fun checks checksLowered => MakesBody.pure ?_
  · simp [testMade.1, bodyLowered]
  · simp [checksLowered]

/-! ## Imports -/

theorem importedModule_isLowered (item : Alias) : (importedModule item).isLowered form = true := by
  have root : (Expr.supportCall "import_" [.ofText item.path, .ofName "__spec__"]).isLowered form =
      true := by simp
  unfold importedModule
  split
  · exact root
  · refine List.foldlRecOn (motive := fun found : Expr => found.isLowered form = true) _ _ root ?_
    intro found lowered part _
    simpa using lowered

theorem importModules_makes (position : Position) (names : List Alias) :
    MakesBody form (importModules position names) := by
  refine (Desugar.Gives.apply _ _ _).bind fun _ _ => .pure ?_
  exact List.forall_mem_map.mpr fun item _ => importedModule_isLowered item

theorem importMembers_makes {env : Env} (agrees : env.options = form.options)
    (position : Position) (source : String) (level : Nat) (names : List Alias)
    (closing : Position) :
    MakesBody form (importMembers env position source level names closing) := by
  have members : Expr.isLowered form (.listOf (names.map (.ofText ·.path))) = true := by
    have plain : (names.map fun item => Expr.ofText item.path).any isStarred = false := by
      simp [Expr.ofText, isStarred]
    have each : Expr.areLowered form (names.map (.ofText ·.path)) = true :=
      Expr.areLowered_iff.mpr (List.forall_mem_map.mpr fun item _ => rfl)
    simp [Expr.listOf, Expr.isLowered, plain, each]
  unfold importMembers
  cases star : names.any (·.path == "*") with
  | true =>
    cases choice : env.options.importStar with
    | allowed =>
      refine MakesBody.pure ?_
      simp [Stmt.isLowered, Form.keepsImport, star, ← agrees, choice]
    | refused => exact .refuse _ _
    | stripped => exact (Desugar.Gives.apply _ _ _).bind fun _ _ => MakesBody.pure rfl
  | false =>
    by_cases future : (source == "__future__" && level == 0 && !env.options.lowerFutureImports) =
        true
    · simp only [future, if_true]
      refine MakesBody.pure ?_
      simp [Stmt.isLowered, Form.keepsImport, star, ← agrees, future]
    · simp only [future]
      refine (Desugar.Gives.fresh "import").bind fun imported _ => ?_
      refine (Desugar.Gives.apply _ _ _).bind fun _ _ => .pure ?_
      refine List.forall_mem_cons.mpr ⟨?_, List.forall_mem_map.mpr fun item _ => ?_⟩
      · split <;> simp [members]
      · exact Expr.isLowered_supportCall _ _

/-! ## Compound statements -/

theorem loopTesting_makes {position : Position} {test : Lowering Expr}
    {body : Desugar (List Stmt)} {orelse : Option (Desugar (List Stmt))}
    (testMade : Makes form True test) (bodyMade : MakesBody form body)
    (orelseMade : ∀ action ∈ orelse, MakesBody form action) :
    MakesBody form (loopTesting position test body orelse) := by
  refine (Desugar.Gives.fresh "exited").bind fun exited _ => ?_
  refine (Desugar.Gives.apply _ _ _).bind fun _ _ => ?_
  have failed : Makes form True (supporting "not_" [test]) :=
    supporting_makes (by simpa using testMade)
  refine MakesBody.bind (Gives.flush (failed.bind fun _ made => .pure ?_))
    fun check checkLowered => ?_
  · simp [made.1, Stmt.isLowered]
  refine bodyMade.bind fun body bodyLowered => ?_
  cases orelse with
  | none =>
    refine MakesBody.pure ?_
    simp [Stmt.isLowered, checkLowered, bodyLowered]
  | some orelse =>
    refine (orelseMade orelse rfl).bind fun after afterLowered => MakesBody.pure ?_
    simp [Stmt.isLowered, checkLowered, bodyLowered, afterLowered]

theorem managing_makes {env : Env} (agrees : env.options = form.options) (position : Position)
    {body : Desugar (List Stmt)} (bodyMade : MakesBody form body) :
    ∀ items : List WithItem, MakesBody form (managing env position body items)
  | [] => bodyMade
  | item :: rest => by
    refine (Desugar.Gives.fresh "with_ctx").bind fun manager _ => ?_
    refine (Desugar.Gives.fresh "with_exit").bind fun exit _ => ?_
    refine (Desugar.Gives.fresh "with_ok").bind fun succeeded _ => ?_
    refine (Desugar.Gives.apply _ _ _).bind fun _ _ => ?_
    refine (storing_makes (lower_makes env agrees item.manager)).bind fun start startLowered => ?_
    have restMade := managing_makes agrees position bodyMade rest
    cases item.target with
    | none =>
      have entering : MakesBody form
          (pure [.expression (.supportCall "contextmanager_enter" [.ofName manager])]) :=
        MakesBody.pure (by simp [Stmt.isLowered])
      refine entering.bind fun entered enteredLowered => ?_
      refine restMade.bind fun inner innerLowered => MakesBody.pure ?_
      simp [Stmt.isLowered, Stmt.areHandlersLowered, startLowered, enteredLowered, innerLowered]
    | some target =>
      refine (assign_makes agrees target _).bind fun entered enteredLowered => ?_
      refine restMade.bind fun inner innerLowered => MakesBody.pure ?_
      simp [Stmt.isLowered, Stmt.areHandlersLowered, startLowered, enteredLowered, innerLowered]

theorem namingException_areLowered (ident : Option Ident) (position : Position)
    {body : List Stmt} (bodyLowered : Stmt.areLowered form body = true) :
    Stmt.areLowered form (namingException ident position body) = true := by
  cases ident with
  | none => exact bodyLowered
  | some ident =>
    simp [namingException, currentException, Stmt.isLowered, Stmt.areHandlersLowered, bodyLowered]

/-- A handler whose parts are lowered to the lowered form. -/
structure Catch.Makes (form : Form) (handler : Catch) : Prop where
  type : ∀ type ∈ handler.type, Lowering.Makes form True type
  body : MakesBody form handler.body

theorem choosingHandler_makes : ∀ {handlers : List Catch},
    (∀ handler ∈ handlers, handler.Makes form) → MakesBody form (choosingHandler handlers)
  | [], _ => MakesBody.pure rfl
  | ⟨_, none, _, _⟩ :: _, each => (List.forall_mem_cons.mp each).1.body
  | ⟨position, some type, ident, body⟩ :: rest, each => by
    obtain ⟨here, later⟩ := List.forall_mem_cons.mp each
    have matching : Makes form True
        (supporting "exception_matches" [return currentException, type]) := by
      refine supporting_makes ?_
      simpa using ⟨.pure (isMade_supportCall rfl), here.type type rfl⟩
    refine Gives.flush (matching.bind fun _ testMade => ?_)
    refine here.body.lifted fun body bodyLowered => ?_
    refine (choosingHandler_makes later).lifted fun later laterLowered => .pure ?_
    simp [testMade.1, namingException_areLowered ident position bodyLowered, laterLowered]

theorem catching_makes {position : Position} {body orelse final : Desugar (List Stmt)}
    {handlers : List Catch} (bodyMade : MakesBody form body)
    (handlersMade : ∀ handler ∈ handlers, handler.Makes form)
    (orelseMade : MakesBody form orelse) (finalMade : MakesBody form final) :
    MakesBody form (catching position body handlers orelse final) := by
  refine (Desugar.Gives.apply _ _ _).bind fun _ _ => ?_
  refine bodyMade.bind fun _ bodyLowered => ?_
  refine (choosingHandler_makes handlersMade).bind fun _ chosenLowered => ?_
  refine orelseMade.bind fun _ orelseLowered => ?_
  refine finalMade.bind fun _ finalLowered => MakesBody.pure ?_
  simp [Stmt.isLowered, Stmt.areHandlersLowered, bodyLowered, chosenLowered, orelseLowered,
    finalLowered]

theorem mapM_lower_gives {env : Env} (agrees : env.options = form.options) (items : List Expr) :
    Gives (·.isLowered form = true) (Expr.areLowered form · = true) (items.mapM (lower env)) :=
  (Gives.mapM fun item _ => (lower_makes env agrees item).anywhere).imp fun _ made =>
    Expr.areLowered_iff.mpr fun value member => (made value member).1

theorem ifPresent_makes {source : List Stmt} {lowered : Desugar (List Stmt)}
    (made : MakesBody form lowered) : ∀ action ∈ ifPresent source lowered, MakesBody form action := by
  unfold ifPresent
  split
  · simp
  · simpa using made

mutual

theorem lowerStmt_makes (env : Env) (agrees : env.options = form.options) :
    ∀ stmt : Stmt, stmt.hintsFit form = true → MakesBody form (lowerStmt env stmt)
  | .expression value, _ =>
    Gives.flush ((lower_makes env agrees value).bind fun _ made => .pure made.1)
  | .assign [target] value, _ => assign_makes agrees target value
  | .assign [] value, _ => assignAll_makes agrees [] value
  | .assign (first :: second :: rest) value, _ => assignAll_makes agrees (first :: second :: rest) value
  | .augAssign target op value, _ => augment_makes agrees target op value
  | .annAssign _ _ none, _ =>
    (Desugar.Gives.apply _ _ _).bind fun _ _ => MakesBody.pure rfl
  | .annAssign target _ (some value), _ =>
    (Desugar.Gives.apply _ _ _).bind fun _ _ => assign_makes agrees target value
  | .delete position targets, _ => delete_makes agrees position targets
  | .branch .., _ => MakesBody.pure rfl
  | .returns _ result, _ =>
    Gives.flush ((lowerOption_gives env agrees result).bind fun _ lowered => .pure lowered)
  | .raises _ (some exception) (some cause), _ => by
    have raised : Makes form True
        (supporting "raise_from" [lower env exception, lower env cause]) := by
      refine supporting_makes ?_
      simpa using
        ⟨(lower_makes env agrees exception).anywhere, (lower_makes env agrees cause).anywhere⟩
    refine (Desugar.Gives.apply _ _ _).bind fun _ _ => Gives.flush ?_
    exact raised.bind fun _ made => .pure made.1
  | .raises _ none _, _ => Gives.flush (Gives.pure rfl)
  | .raises _ (some exception) none, _ =>
    Gives.flush ((lowerOption_gives env agrees (some exception)).bind fun _ lowered => .pure lowered)
  | .declare .., _ => MakesBody.pure rfl
  | .asserts position test message, _ => assert_makes agrees position test message
  | .imports position names, _ => importModules_makes position names
  | .importFrom position source level names closing, _ =>
    importMembers_makes agrees position source level names closing
  | .conditional _ test body _ orelse, fits => by
    have parts := Bool.and_eq_true_iff.mp fits
    refine Gives.flush ((lower_makes env agrees test).bind fun _ testMade => ?_)
    refine (lowerBody_makes env agrees body parts.1).lifted fun body bodyLowered => ?_
    refine (lowerBody_makes env agrees orelse parts.2).lifted fun orelse orelseLowered => .pure ?_
    simp [testMade.1, bodyLowered, orelseLowered]
  | .whileLoop position test body orelse, fits => by
    have parts := Bool.and_eq_true_iff.mp fits
    have bodyMade := lowerBody_makes env agrees body parts.1
    have orelseMade := lowerBody_makes env agrees orelse parts.2
    rw [lowerStmt]
    split
    · exact loopTesting_makes (lower_makes env agrees test).anywhere bodyMade
        (ifPresent_makes orelseMade)
    · refine Gives.flush ((lower_makes env agrees test).bind fun _ testMade => ?_)
      refine bodyMade.lifted fun body bodyLowered => ?_
      refine orelseMade.lifted fun orelse orelseLowered => .pure ?_
      simp [Stmt.isLowered, testMade.1, bodyLowered, orelseLowered]
  | .forLoop _ target iterable body orelse, fits => by
    have parts := Bool.and_eq_true_iff.mp fits
    exact looping_makes (fun name => assign_makes agrees target (.ofName name))
      (lower_makes env agrees iterable).anywhere (lowerBody_makes env agrees body parts.1)
      (ifPresent_makes (lowerBody_makes env agrees orelse parts.2))
  | .tryBlock position body handlers orelse final, fits => by
    have parts : ((Stmt.hintsFitBody form body = true ∧ Stmt.hintsFitHandlers form handlers = true) ∧
        Stmt.hintsFitBody form orelse = true) ∧ Stmt.hintsFitBody form final = true := by
      simpa [Stmt.hintsFit] using fits
    have bodyMade := lowerBody_makes env agrees body parts.1.1.1
    have handlersMade := lowerHandlers_gives env agrees handlers parts.1.1.2
    have catchesMade := lowerCatches_make env agrees handlers parts.1.1.2
    have orelseMade := lowerBody_makes env agrees orelse parts.1.2
    have finalMade := lowerBody_makes env agrees final parts.2
    rw [lowerStmt]
    split
    · split
      · exact .refuse _ _
      · exact catching_makes bodyMade catchesMade orelseMade finalMade
    · refine bodyMade.bind fun _ bodyLowered => ?_
      refine handlersMade.bind fun _ handlersLowered => ?_
      refine orelseMade.bind fun _ orelseLowered => ?_
      refine finalMade.bind fun _ finalLowered => MakesBody.pure ?_
      simp [Stmt.isLowered, bodyLowered, handlersLowered, orelseLowered, finalLowered]
  | .withBlock position items body, fits =>
    managing_makes agrees position (lowerBody_makes env agrees body fits) items
  | .function decorators position ident params result body, fits => by
    have parts := Bool.and_eq_true_iff.mp fits
    refine Gives.flush ((mapM_lower_gives agrees decorators).bind fun _ decoratorsLowered => ?_)
    refine (lowerParams_gives env agrees params).bind fun kept paramsLowered => ?_
    refine (lowerBody_makes { env with frame := .functionFrame ident.name } agrees body
      parts.2).lifted fun _ bodyLowered => .pure ?_
    have hints : form.keepsHints kept result = true :=
      (Form.keepsHints_congr paramsLowered.2).trans parts.1
    simp [Stmt.isLowered, hints, decoratorsLowered, paramsLowered.1, bodyLowered]
  | .classDef decorators position ident bases body, fits => by
    refine Gives.flush ((mapM_lower_gives agrees decorators).bind fun _ decoratorsLowered => ?_)
    refine (mapM_lower_gives agrees bases).bind fun _ basesLowered => ?_
    refine (lowerBody_makes { env with frame := .classFrame } agrees body
      fits).lifted fun _ bodyLowered => .pure ?_
    simp [Stmt.isLowered, decoratorsLowered, basesLowered, bodyLowered]

theorem lowerBody_makes (env : Env) (agrees : env.options = form.options) :
    ∀ body : List Stmt, Stmt.hintsFitBody form body = true → MakesBody form (lowerBody env body)
  | [], _ => MakesBody.pure rfl
  | first :: rest, fits => by
    have parts := Bool.and_eq_true_iff.mp fits
    refine (lowerStmt_makes env agrees first parts.1).bind fun here hereLowered => ?_
    refine (lowerBody_makes env agrees rest parts.2).bind fun later laterLowered =>
      MakesBody.pure ?_
    simp [hereLowered, laterLowered]

theorem lowerHandlers_gives (env : Env) (agrees : env.options = form.options) :
    ∀ handlers : List Handler, Stmt.hintsFitHandlers form handlers = true →
      Desugar.Gives Failure.IsRefusal (Stmt.areHandlersLowered form · = true)
        (lowerHandlers env handlers)
  | [], _ => .pure rfl
  | .mk _ _ _ body :: rest, fits => by
    have parts := Bool.and_eq_true_iff.mp fits
    refine (lowerBody_makes env agrees body parts.1).bind fun body bodyLowered => ?_
    refine (lowerHandlers_gives env agrees rest parts.2).bind fun later laterLowered => .pure ?_
    simp [Stmt.areHandlersLowered, bodyLowered, laterLowered]

theorem lowerCatches_make (env : Env) (agrees : env.options = form.options) :
    ∀ handlers : List Handler, Stmt.hintsFitHandlers form handlers = true →
      ∀ handler ∈ lowerCatches env handlers, handler.Makes form
  | [], _, handler, member => by cases member
  | .mk position type ident body :: rest, fits, handler, member => by
    have parts := Bool.and_eq_true_iff.mp fits
    rcases List.mem_cons.mp member with rfl | member
    · refine ⟨?_, lowerBody_makes env agrees body parts.1⟩
      cases type with
      | none => simp
      | some type => simpa using (lower_makes env agrees type).anywhere
    · exact lowerCatches_make env agrees rest parts.2 handler member

end

end Lowering
end Unsugar
