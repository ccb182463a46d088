import Unsugar.Desugar
import Unsugar.Proofs.Docstring.Lowering

/-! The docstrings of a module are kept by each step of its transformation, and so by all of
them. -/

namespace Unsugar

open Judgement (ofDesugar ofDesugar_lenient ofId_lenient ofState_lenient ofTraced ofTraced_lenient)
open Stmt

/-! ## Hints -/

theorem docstringLength_le_headLength (body : List Stmt) :
    docstringLength body ≤ headLength body :=
  Nat.le_add_right _ _

namespace Hints

theorem takeRequest_keeps (body : List Stmt) : KeepsDocstrings body (takeRequest body).2 := by
  induction body with
  | nil => exact .refl _
  | cons first rest induction =>
    cases first with
    | importFrom position source level names closing =>
      have kept : ∀ here, KeepsDocstrings (.importFrom position source level names closing :: rest)
          (here ++ (takeRequest rest).2) :=
        fun here => (KeepsDocstrings.of_simple rfl rfl here).cons induction
      simp only [takeRequest]
      split
      · split
        · exact kept []
        · exact kept [_]
      · exact kept [_]
    | _ => exact (KeepsDocstrings.refl [_]).cons induction

theorem bindRecord_keeps (recorded : Bool) (body : List Stmt) :
    KeepsDocstrings body (bindRecord recorded body) := by
  unfold bindRecord
  split
  · exact .insertAt (docstringLength_le_headLength body) _
  · exact .refl _

theorem pass_leavesDocstrings (asText : Bool) : (pass asText).LeavesDocstrings (.ofState Bool) where
  lenient := ofState_lenient Bool
  text _ _ _ _ _ := .refl _
  enterFunction _ _ _ _ := rfl
  leaveFunction _ _ _ _ _ _ keeps _ := keeps.inFunction rfl
  leaveClass _ _ head _ _ keeps _ := (keeps.trans (bindRecord_keeps _ _)).inClass head

end Hints

theorem takeHints_keeps (body : List Stmt) : KeepsDocstrings body (takeHints body).2 :=
  ((Hints.takeRequest_keeps body).trans
    (Pass.body_keeps (Hints.pass_leavesDocstrings _) _ _ false)).trans (Hints.bindRecord_keeps _ _)

/-! ## Private names -/

namespace Stmt

variable {inside : String → LeafMap}

theorem docstring?_mapLeavesBody (leaves : LeafMap) (body : List Stmt) :
    docstring? (mapLeavesBody inside leaves body) = docstring? body := by
  cases body with
  | nil => rfl
  | cons first rest =>
    cases first with
    | expression value =>
      cases value with
      | literal _ _ constant => cases constant <;> rfl
      | _ => rfl
    | _ => rfl

mutual

theorem documented_mapLeaves (still : ∀ name, (inside name).position = id) :
    ∀ (leaves : LeafMap), leaves.position = id → ∀ stmt : Stmt,
      documented (mapLeaves inside leaves stmt) = documented stmt
  | leaves, here, .conditional _ _ body _ orelse | leaves, here, .whileLoop _ _ body orelse
  | leaves, here, .forLoop _ _ _ body orelse => by
    rw [mapLeaves, documented, documented, documentedInBody_mapLeaves still leaves here body,
      documentedInBody_mapLeaves still leaves here orelse]
  | leaves, here, .tryBlock _ body handlers orelse final => by
    rw [mapLeaves, documented, documented, documentedInBody_mapLeaves still leaves here body,
      documentedInHandlers_mapLeaves still leaves here handlers,
      documentedInBody_mapLeaves still leaves here orelse,
      documentedInBody_mapLeaves still leaves here final]
  | leaves, here, .withBlock _ _ body => documentedInBody_mapLeaves still leaves here body
  | leaves, here, .function _ position _ _ _ body => by
    rw [mapLeaves, documented, documented, documentedInBody_mapLeaves still leaves here body,
      docstring?_mapLeavesBody, here, id]
  | _, _, .classDef _ _ ident _ body =>
    documentedInBody_mapLeaves still (inside ident.name) (still ident.name) body
  | _, _, .expression .. | _, _, .assign .. | _, _, .augAssign .. | _, _, .annAssign ..
  | _, _, .delete .. | _, _, .branch .. | _, _, .returns .. | _, _, .raises ..
  | _, _, .declare .. | _, _, .asserts .. | _, _, .imports .. | _, _, .importFrom .. => rfl

theorem documentedInBody_mapLeaves (still : ∀ name, (inside name).position = id) :
    ∀ (leaves : LeafMap), leaves.position = id → ∀ body : List Stmt,
      documentedInBody (mapLeavesBody inside leaves body) = documentedInBody body
  | _, _, [] => rfl
  | leaves, here, first :: rest => by
    rw [mapLeavesBody, documentedInBody, documentedInBody,
      documented_mapLeaves still leaves here first,
      documentedInBody_mapLeaves still leaves here rest]

theorem documentedInHandlers_mapLeaves (still : ∀ name, (inside name).position = id) :
    ∀ (leaves : LeafMap), leaves.position = id → ∀ handlers : List Handler,
      documentedInHandlers (mapLeavesHandlers inside leaves handlers) =
        documentedInHandlers handlers
  | _, _, [] => rfl
  | leaves, here, .mk _ _ _ body :: rest => by
    rw [mapLeavesHandlers, documentedInHandlers, documentedInHandlers,
      documentedInBody_mapLeaves still leaves here body,
      documentedInHandlers_mapLeaves still leaves here rest]

end

end Stmt

theorem manglePrivate_keeps (body : List Stmt) : KeepsDocstrings body (manglePrivate body) where
  own text found := (docstring?_mapLeavesBody _ body).symm ▸ found
  inner := by
    rw [manglePrivate, documentedInBody_mapLeaves (fun _ => rfl) _ rfl]

/-! ## Definitions -/

namespace Definition

/-- Passes over a module whose scopes are known. -/
abbrev ofDescent : Judgement (Descent Desugar) := ofDesugar.withState (List Scope)

theorem ofDescent_lenient : ofDescent.Lenient := ofDesugar_lenient.withState (List Scope)

/-- A function of the source, or one that lowering made, is still there. -/
theorem functionPass_leavesDocstrings : functionPass.LeavesDocstrings ofDescent where
  lenient := ofDescent_lenient
  text _ _ _ _ := ofDescent.pure (.refl _)
  enterFunction _ _ _ := ofDescent_lenient.skip _ fun _ => ofDescent.pure rfl
  leaveFunction _ opened next head body after keeps := by
    have kept : ∀ {head' : FunctionHead}, head'.position = head.position → ∀ ahead behind,
        KeepsDocstrings [head.withBody body] (ahead ++ [head'.withBody after] ++ behind) :=
      fun same => .between rfl (keeps.inFunction same)
    refine ofDescent_lenient.skip _ fun _ => ?_
    split
    · refine Judgement.lift ?_
      rw [generatedFunction]
      split
      · exact ofDesugar.pure (kept rfl [] [])
      · exact ofDesugar_lenient.skip _ fun _ => ofDesugar.pure (kept rfl [] [_])
    · refine Judgement.lift ?_
      rw [sourceFunction]
      refine ofDesugar_lenient.skip _ fun generated => ofDesugar_lenient.skip _ fun _ => ?_
      refine ofDesugar_lenient.skip _ fun saved => ofDesugar_lenient.skip _ fun _ => ?_
      refine ofDesugar.pure ?_
      have moved := @kept { head with decorators := [], ident := ⟨head.ident.position, generated⟩ }
        rfl saved.1 [.store head.ident.name (decorate saved.2
          (updated generated opened.info.qualname head.ident.name)), .drop generated]
      simpa using moved
  leaveClass _ _ head _ _ keeps :=
    ofDescent_lenient.skip _ fun _ => ofDescent.pure (keeps.inClass head)

theorem superPass_leavesDocstrings : superPass.LeavesDocstrings (.ofState Bool) where
  lenient := ofState_lenient Bool
  text place _ _ _ := by
    cases place <;> exact fun _ => .refl _
  enterFunction place _ _ := by
    cases place <;> exact fun _ => rfl
  leaveFunction _ _ _ _ _ _ keeps _ := keeps.inFunction rfl
  leaveClass _ _ head _ _ keeps _ := keeps.inClass head

theorem namespacePass_leavesDocstrings (info : ScopeInfo) :
    (namespacePass info).LeavesDocstrings .ofId where
  lenient := ofId_lenient
  text _ _ _ _ := KeepsDocstrings.refl _
  enterFunction _ _ _ := rfl
  leaveFunction _ _ _ _ _ _ keeps := keeps.inFunction rfl
  leaveClass _ _ head _ _ keeps := keeps.inClass head

/-- The docstring of a class becomes an entry of its namespace; its functions keep theirs. -/
theorem namespaceBody_documented (qualname : String) (body : List Stmt) :
    documentedInBody (namespaceBody qualname body) = documentedInBody body := by
  unfold namespaceBody
  split <;> rfl

/-- A class becomes a function that holds the functions of the class. -/
theorem class_keeps {head : ClassHead} {fills : FunctionHead} {body filled : List Stmt}
    (inner : (documentedInBody body).Sublist (documentedInBody filled)) (ahead behind : List Stmt) :
    KeepsDocstrings [head.withBody body] (ahead ++ fills.withBody filled :: behind) := by
  have within : (documentedInBody filled).Sublist (documented (fills.withBody filled)) :=
    List.sublist_append_right _ _
  refine .of_inner rfl ?_
  rw [documentedInBody_append, documentedInBody_cons]
  exact (inner.trans within).trans
    ((List.sublist_append_left _ _).trans (List.sublist_append_right _ _))

theorem classPass_leavesDocstrings : classPass.LeavesDocstrings ofDescent where
  lenient := ofDescent_lenient
  text _ _ _ _ := ofDescent.pure (.refl _)
  enterFunction _ _ _ := ofDescent_lenient.skip _ fun _ => ofDescent.pure rfl
  leaveFunction _ _ _ _ _ _ keeps :=
    ofDescent_lenient.skip _ fun _ => ofDescent.pure (keeps.inFunction rfl)
  leaveClass _ opened head body after keeps := by
    refine ofDescent_lenient.skip _ fun _ => Judgement.lift ?_
    rw [classDefinition]
    refine ofDesugar_lenient.skip _ fun generated => ?_
    refine ofDesugar_lenient.skip _ fun saved => ofDesugar_lenient.skip _ fun _ => ?_
    have methods := Pass.body_keeps superPass_leavesDocstrings .outside after false
    have named := fun methods =>
      Pass.body_keeps (namespacePass_leavesDocstrings opened.info) () methods
    refine ofDesugar.pure (class_keeps ?_ saved.1 _)
    rw [namespaceBody_documented]
    exact ((keeps.trans methods).trans (named _)).inner

end Definition

theorem renameFunctions_keeps (scope : Scope) (body : List Stmt) :
    ofDesugar.Gives (KeepsDocstrings body) (renameFunctions scope body) :=
  ofDesugar.bind (Pass.body_keeps Definition.functionPass_leavesDocstrings _ body scope.children)
    fun _ keeps => ofDesugar.pure keeps

theorem expandClasses_keeps (scope : Scope) (body : List Stmt) :
    ofDesugar.Gives (KeepsDocstrings body) (expandClasses scope body) :=
  ofDesugar.bind (Pass.body_keeps Definition.classPass_leavesDocstrings _ body scope.children)
    fun _ keeps => ofDesugar.pure keeps

/-! ## Names -/

theorem Closure.pass_leavesDocstrings : Closure.pass.LeavesDocstrings Definition.ofDescent where
  lenient := Definition.ofDescent_lenient
  text _ _ _ _ := Definition.ofDescent.pure (.refl _)
  enterFunction _ _ _ := by
    refine Definition.ofDescent_lenient.skip _ fun decorators => ?_
    refine Definition.ofDescent_lenient.skip _ fun params => ?_
    exact Definition.ofDescent_lenient.skip _ fun opened => Definition.ofDescent.pure rfl
  leaveFunction _ _ _ _ _ _ keeps :=
    Definition.ofDescent_lenient.skip _ fun _ => Definition.ofDescent.pure
      ((keeps.trans (.insertAt (Nat.le_refl _) _)).orPass.inFunction rfl)
  leaveClass _ _ head _ _ keeps :=
    Definition.ofDescent_lenient.skip _ fun _ => Definition.ofDescent.pure (keeps.inClass head)

theorem resolveClosures_keeps (scope : Scope) (body : List Stmt) :
    ofDesugar.Gives (KeepsDocstrings body) (resolveClosures scope body) :=
  ofDesugar.bind (Pass.body_keeps Closure.pass_leavesDocstrings _ body scope.children)
    fun _ keeps => ofDesugar.pure keeps

theorem Address.pass_leavesDocstrings : Address.pass.LeavesDocstrings .ofId where
  lenient := ofId_lenient
  text _ _ _ _ := KeepsDocstrings.refl _
  enterFunction _ _ _ := rfl
  leaveFunction _ _ _ _ _ _ keeps := keeps.inFunction rfl
  leaveClass _ _ head _ _ keeps := keeps.inClass head

theorem addressNames_keeps (body : List Stmt) : KeepsDocstrings body (addressNames body) :=
  Pass.body_keeps Address.pass_leavesDocstrings _ body

/-! ## The last changes -/

namespace Finish

theorem refill_keeps {body kept : List Stmt} (keeps : KeepsDocstrings body kept) :
    KeepsDocstrings body (refill body kept) := by
  unfold refill
  split
  · rename_i empty
    rw [List.isEmpty_iff.mp empty]
    exact .refl _
  · exact keeps.orPass

mutual

theorem stripStmt_keeps : ∀ stmt : Stmt, KeepsDocstrings [stmt] [stripStmt stmt]
  | .conditional _ _ body _ orelse | .whileLoop _ _ body orelse | .forLoop _ _ _ body orelse => by
    refine .of_inner rfl ?_
    simpa [stripStmt, documented] using
      (refill_keeps (strip_keeps body)).inner.append (refill_keeps (strip_keeps orelse)).inner
  | .tryBlock _ body handlers orelse final => by
    refine .of_inner rfl ?_
    simpa [stripStmt, documented] using (refill_keeps (strip_keeps body)).inner.append
      ((stripHandlers_keep handlers).append ((refill_keeps (strip_keeps orelse)).inner.append
        (refill_keeps (strip_keeps final)).inner))
  | .withBlock _ _ body => by
    refine .of_inner rfl ?_
    simpa [stripStmt, documented] using (refill_keeps (strip_keeps body)).inner
  | .function _ _ _ _ _ body => by
    refine .of_inner rfl ?_
    simpa [stripStmt] using (refill_keeps (strip_keeps body)).function
  | .classDef _ _ _ _ body => by
    refine .of_inner rfl ?_
    simpa [stripStmt, documented] using (refill_keeps (strip_keeps body)).inner
  | .expression .. | .assign .. | .augAssign .. | .annAssign .. | .delete .. | .branch ..
  | .returns .. | .raises .. | .declare .. | .asserts .. | .imports .. | .importFrom .. =>
    .refl _

theorem strip_keeps : ∀ body : List Stmt, KeepsDocstrings body (strip body)
  | [] => .refl _
  | first :: rest => by
    rw [strip]
    split
    · rename_i generated
      have gone : KeepsDocstrings [first] [] := by
        cases first with
        | branch => exact .of_simple rfl rfl []
        | _ => cases generated
      exact gone.cons (strip_keeps rest)
    · exact (stripStmt_keeps first).cons (strip_keeps rest)

theorem stripHandlers_keep : ∀ handlers : List Handler,
    (documentedInHandlers handlers).Sublist (documentedInHandlers (stripHandlers handlers))
  | [] => .refl _
  | .mk _ _ _ body :: rest =>
    (refill_keeps (strip_keeps body)).inner.append (stripHandlers_keep rest)

end

theorem truthPass_leavesDocstrings : truthPass.LeavesDocstrings .ofId where
  lenient := ofId_lenient
  text _ _ _ _ := KeepsDocstrings.refl _
  enterFunction _ _ _ := rfl
  leaveFunction _ _ _ _ _ _ keeps := keeps.inFunction rfl
  leaveClass _ _ head _ _ keeps := keeps.inClass head

end Finish

theorem cleanUpGlobals_keeps (body : List Stmt) : KeepsDocstrings body (cleanUpGlobals body) := by
  unfold cleanUpGlobals
  split
  · exact .refl _
  · exact (KeepsDocstrings.refl body).append_right _

theorem bindSupport_keeps (body : List Stmt) : KeepsDocstrings body (bindSupport body) := by
  unfold bindSupport
  split
  · exact .refl _
  · exact .insertAt (docstringLength_le_headLength body) _

theorem finish_keeps (options : Options) (body : List Stmt) :
    KeepsDocstrings body (Desugar.finish options body) := by
  have optional : ∀ {choice : Bool} {before after : List Stmt}, KeepsDocstrings before after →
      KeepsDocstrings before (if choice then after else before) := by
    intro choice before after keeps
    cases choice
    · exact .refl _
    · exact keeps
  have explicit := fun body => Pass.body_keeps Finish.truthPass_leavesDocstrings () body
  exact (Finish.strip_keeps body).trans ((optional (explicit _)).trans
    ((optional (cleanUpGlobals_keeps _)).trans (optional (bindSupport_keeps _))))

/-! ## Modules -/

theorem Desugar.resolveNames_keeps (options : Options) (body : List Stmt) :
    ofDesugar.Gives (KeepsDocstrings body) (resolveNames options body) := by
  unfold resolveNames
  split
  · refine ofDesugar_lenient.skip _ fun _ => ofDesugar_lenient.skip _ fun _ => ?_
    exact ofDesugar.pure (addressNames_keeps body)
  · refine ofDesugar_lenient.skip _ fun _ => ofDesugar_lenient.skip _ fun scope => ?_
    exact resolveClosures_keeps scope body

/-- The transformation of a module keeps its docstring and those of all its functions. -/
theorem Desugar.module_keeps (options : Options) (file : String) (body : List Stmt) :
    ofDesugar.Gives (KeepsDocstrings body) (Desugar.module options file body) := by
  unfold Desugar.module
  refine ofDesugar_lenient.skip _ fun _ => ofDesugar_lenient.skip _ fun _ => ?_
  refine ofDesugar_lenient.skip _ fun _ => ?_
  have prepared := (takeHints_keeps body).trans (manglePrivate_keeps _)
  refine ofDesugar.bind (Lowering.lowerModule_keeps options _) fun lowered loweredKeeps => ?_
  refine ofDesugar_lenient.skip _ fun _ => ofDesugar_lenient.skip _ fun scope => ?_
  refine ofDesugar.bind (renameFunctions_keeps scope lowered) fun renamed renamedKeeps => ?_
  refine ofDesugar.bind (expandClasses_keeps scope renamed) fun expanded expandedKeeps => ?_
  refine ofDesugar.bind (resolveNames_keeps options expanded) fun resolved resolvedKeeps => ?_
  exact ofDesugar.pure (prepared.trans (loweredKeeps.trans (renamedKeeps.trans
    (expandedKeeps.trans (resolvedKeeps.trans (finish_keeps options resolved))))))

theorem Result.make_keeps {options : Options} {file : String} {source : List UInt8}
    {check : List Stmt → Traced Unit} (body : List Stmt) :
    ofTraced.Gives (fun result => KeepsDocstrings body result.body)
      (Result.make options file source check body) := by
  unfold Result.make
  split
  · exact ofTraced_lenient.skip _ fun _ => ofTraced.pure (.refl _)
  · split
    · exact fun _ => trivial
    · refine ofTraced.bind (Desugar.module_keeps options file body _) ?_
      rintro ⟨transformed, context⟩ keeps
      exact ofTraced_lenient.skip _ fun _ => ofTraced_lenient.skip _ fun _ => ofTraced.pure keeps

/-- Docstrings are never lost: where a source is transformed, the module keeps its docstring
and each function keeps its own, whatever the options are. -/
theorem desugar_keeps_docstrings {options : Options} {file : String} {source : List UInt8}
    {steps later : List Step} {result : Result}
    (transformed : desugar options file source steps = (.ok result, later)) :
    ∃ body, parseModule file (Text.decode source) = .ok body ∧
      KeepsDocstrings body result.body := by
  have keeps : ofTraced.Gives (fun result => ∃ body,
      parseModule file (Text.decode source) = .ok body ∧ KeepsDocstrings body result.body)
      (desugar options file source) := by
    unfold desugar
    split
    · exact fun _ => trivial
    · rename_i body parsed
      exact ofTraced_lenient.imp (Result.make_keeps body) fun result keeps => ⟨body, parsed, keeps⟩
  have ended := keeps steps
  rw [transformed] at ended
  exact ended

end Unsugar
