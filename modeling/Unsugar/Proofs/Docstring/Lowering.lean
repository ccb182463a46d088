import Unsugar.Proofs.Docstring.Kept
import Unsugar.Proofs.Lowering.Parts
import Unsugar.Proofs.Lowering.Settled

/-! Lowering keeps docstrings. A text alone is lowered already, and what becomes of the
other statements without a body does not matter; the rest is lowered body by body, in order. -/

namespace Unsugar

namespace Lowering

open Judgement (ofDesugar ofDesugar_lenient ofLowering ofLowering_lenient)
open Stmt

/-! ## Compound statements -/

/-- The statements set aside for a statement come ahead of it. -/
theorem flush_gives {holds : Stmt → Prop} {result : List Stmt → Prop} {build : Lowering Stmt}
    (given : ofLowering.Gives holds build)
    (last : ∀ ahead stmt, holds stmt → result (ahead ++ [stmt])) :
    ofDesugar.Gives result (flush build) := by
  refine ofDesugar.bind (given []) fun (stmt, ahead) valid => ?_
  exact ofDesugar_lenient.skip _ fun before => ofDesugar.pure (last before stmt valid)

/-- The functions with docstrings that statements must hold in the end. -/
abbrev Documents (kept : List (Position × String)) (action : Desugar (List Stmt)) : Prop :=
  ofDesugar.Gives (fun after => kept.Sublist (documentedInBody after)) action

/-- A statement that holds functions with docstrings may be finished. -/
theorem flush_documents {kept : List (Position × String)} {build : Lowering Stmt}
    (given : ofLowering.Gives (fun stmt => kept.Sublist (documented stmt)) build) :
    Documents kept (flush build) := by
  refine flush_gives given fun ahead stmt valid => ?_
  rw [documentedInBody_append, documentedInBody_singleton]
  exact valid.trans (List.sublist_append_right _ _)

/-- A body that may be absent holds what it must. -/
def MayDocument (kept : List (Position × String)) : Option (Desugar (List Stmt)) → Prop
  | none => kept = []
  | some action => Documents kept action

theorem ifPresent_documents {source : List Stmt} {lowered : Desugar (List Stmt)}
    (keeps : Documents (documentedInBody source) lowered) :
    MayDocument (documentedInBody source) (ifPresent source lowered) := by
  cases source with
  | nil => rfl
  | cons => exact keeps

section

variable {kept keptElse : List (Position × String)} {position : Position}
  {body : Desugar (List Stmt)} {orelse : Option (Desugar (List Stmt))}

theorem looping_documents {assign : Expr → Desugar (List Stmt)} {iterable : Lowering Expr}
    (bodyKeeps : Documents kept body) (orelseKeeps : MayDocument keptElse orelse) :
    Documents (kept ++ keptElse) (looping position assign iterable body orelse) := by
  unfold looping
  refine ofDesugar_lenient.skip _ fun iterator => ofDesugar_lenient.skip _ fun item => ?_
  refine ofDesugar_lenient.skip _ fun completed => ofDesugar_lenient.skip _ fun _ => ?_
  refine ofDesugar_lenient.skip _ fun start => ofDesugar_lenient.skip _ fun assigned => ?_
  refine ofDesugar.bind bodyKeeps fun body' bodyKept => ?_
  have looped : kept.Sublist (documentedInBody start ++
      (documentedInBody assigned ++ documentedInBody body')) :=
    bodyKept.trans ((List.sublist_append_right _ _).trans (List.sublist_append_right _ _))
  cases orelse with
  | none =>
    refine ofDesugar.pure ?_
    rw [show keptElse = [] from orelseKeeps]
    simpa [documented, Stmt.store, Stmt.choose] using looped
  | some orelse =>
    refine ofDesugar.bind orelseKeeps fun after afterKept => ofDesugar.pure ?_
    simpa [documented, Stmt.store, Stmt.choose] using looped.append afterKept

theorem loopTesting_documents {test : Lowering Expr} (bodyKeeps : Documents kept body)
    (orelseKeeps : MayDocument keptElse orelse) :
    Documents (kept ++ keptElse) (loopTesting position test body orelse) := by
  unfold loopTesting
  refine ofDesugar_lenient.skip _ fun exited => ofDesugar_lenient.skip _ fun _ => ?_
  refine ofDesugar_lenient.skip _ fun check => ?_
  refine ofDesugar.bind bodyKeeps fun body' bodyKept => ?_
  have looped : kept.Sublist (documentedInBody check ++ documentedInBody body') :=
    bodyKept.trans (List.sublist_append_right _ _)
  cases orelse with
  | none =>
    refine ofDesugar.pure ?_
    rw [show keptElse = [] from orelseKeeps]
    simpa [documented, Stmt.store] using looped
  | some orelse =>
    refine ofDesugar.bind orelseKeeps fun after afterKept => ofDesugar.pure ?_
    simpa [documented, Stmt.store, Stmt.choose] using looped.append afterKept

theorem managing_documents {env : Env} (bodyKeeps : Documents kept body) :
    ∀ items : List WithItem, Documents kept (managing env position body items)
  | [] => bodyKeeps
  | item :: rest => by
    unfold managing
    refine ofDesugar_lenient.skip _ fun manager => ofDesugar_lenient.skip _ fun exit => ?_
    refine ofDesugar_lenient.skip _ fun succeeded => ofDesugar_lenient.skip _ fun _ => ?_
    refine ofDesugar_lenient.skip _ fun start => ?_
    -- The target, if there is one, is bound ahead of the rest.
    split <;> refine ofDesugar_lenient.skip _ fun entered => ?_
    all_goals
      refine ofDesugar.bind (managing_documents bodyKeeps rest) fun inner innerKept => ?_
      have held : kept.Sublist
          (documentedInBody start ++ (documentedInBody entered ++ documentedInBody inner)) :=
        innerKept.trans ((List.sublist_append_right _ _).trans (List.sublist_append_right _ _))
      refine ofDesugar.pure ?_
      simpa [documented, documentedInHandlers, Stmt.store, Stmt.choose, Stmt.perform] using held

theorem namingException_documented (ident : Option Ident) (body : List Stmt) :
    documentedInBody (namingException ident position body) = documentedInBody body := by
  cases ident with
  | none => rfl
  | some ident =>
    simp [namingException, documented, documentedInHandlers, Stmt.store, Stmt.drop]

end

/-! ## Statements -/

mutual

/-- A lowered statement keeps docstrings. -/
theorem lowerStmt_keeps (env : Env) :
    ∀ stmt : Stmt, ofDesugar.Gives (KeepsDocstrings [stmt]) (lowerStmt env stmt)
  | .expression value => by
    cases found : text? (.expression value) with
    | none => exact ofDesugar_lenient.always _ fun after => .of_simple found rfl after
    | some text =>
      obtain ⟨position, raw, same⟩ := eq_of_text? found
      cases same
      exact ofDesugar.pure (.refl _)
  | .conditional position test body elsePosition orelse => by
    rw [lowerStmt]
    refine ofDesugar_lenient.imp (flush_documents ?_) fun _ => .of_inner rfl
    refine ofLowering_lenient.skip _ fun test' => ?_
    refine ofLowering.bind (Judgement.lift (lowerBody_keeps env body)) fun body' bodyKeeps => ?_
    refine ofLowering.bind (Judgement.lift (lowerBody_keeps env orelse)) fun orelse' orelseKeeps => ?_
    exact ofLowering.pure (bodyKeeps.inner.append orelseKeeps.inner)
  | .whileLoop position test body orelse => by
    have orelseKeeps := ofDesugar_lenient.imp (lowerBody_keeps env orelse) fun _ => (·.inner)
    have bodyKeeps := ofDesugar_lenient.imp (lowerBody_keeps env body) fun _ => (·.inner)
    rw [lowerStmt]
    split
    · refine ofDesugar_lenient.imp ?_ fun _ => .of_inner rfl
      exact loopTesting_documents bodyKeeps (ifPresent_documents orelseKeeps)
    · refine ofDesugar_lenient.imp (flush_documents ?_) fun _ => .of_inner rfl
      refine ofLowering_lenient.skip _ fun test' => ?_
      refine ofLowering.bind (Judgement.lift bodyKeeps) fun body' bodyKept => ?_
      refine ofLowering.bind (Judgement.lift orelseKeeps) fun orelse' orelseKept => ?_
      exact ofLowering.pure (bodyKept.append orelseKept)
  | .forLoop position target iterable body orelse => by
    have orelseKeeps := ofDesugar_lenient.imp (lowerBody_keeps env orelse) fun _ => (·.inner)
    have bodyKeeps := ofDesugar_lenient.imp (lowerBody_keeps env body) fun _ => (·.inner)
    refine ofDesugar_lenient.imp ?_ fun _ => .of_inner rfl
    exact looping_documents bodyKeeps (ifPresent_documents orelseKeeps)
  | .tryBlock position body handlers orelse final => by
    have bodyKeeps := lowerBody_keeps env body
    have orelseKeeps := lowerBody_keeps env orelse
    have finalKeeps := lowerBody_keeps env final
    rw [lowerStmt]
    split
    · split
      · exact fun _ _ => trivial
      · rename_i notEarly
        unfold catching
        refine ofDesugar_lenient.skip _ fun _ => ?_
        refine ofDesugar.bind bodyKeeps fun body' bodyKept => ?_
        refine ofDesugar.bind (lowerCatches_keep env handlers notEarly) fun chosen chosenKept => ?_
        refine ofDesugar.bind orelseKeeps fun orelse' orelseKept => ?_
        refine ofDesugar.bind finalKeeps fun final' finalKept => ofDesugar.pure (.of_inner rfl ?_)
        simpa [documented, documentedInHandlers] using
          bodyKept.inner.append (chosenKept.append (orelseKept.inner.append finalKept.inner))
    · refine ofDesugar.bind bodyKeeps fun body' bodyKept => ?_
      refine ofDesugar.bind (lowerHandlers_keep env handlers) fun handlers' handlersKept => ?_
      refine ofDesugar.bind orelseKeeps fun orelse' orelseKept => ?_
      refine ofDesugar.bind finalKeeps fun final' finalKept => ofDesugar.pure (.of_inner rfl ?_)
      simpa [documented] using
        bodyKept.inner.append (handlersKept.append (orelseKept.inner.append finalKept.inner))
  | .withBlock position items body => by
    have bodyKeeps := ofDesugar_lenient.imp (lowerBody_keeps env body) fun _ => (·.inner)
    refine ofDesugar_lenient.imp ?_ fun _ => .of_inner rfl
    exact managing_documents bodyKeeps items
  | .function decorators position ident params result body => by
    rw [lowerStmt]
    refine ofDesugar_lenient.imp (flush_documents ?_) fun _ => .of_inner rfl
    refine ofLowering_lenient.skip _ fun decorators' => ofLowering_lenient.skip _ fun params' => ?_
    refine ofLowering.bind (Judgement.lift (lowerBody_keeps _ body)) fun body' bodyKeeps => ?_
    exact ofLowering.pure bodyKeeps.function
  | .classDef decorators position ident bases body => by
    rw [lowerStmt]
    refine ofDesugar_lenient.imp (flush_documents ?_) fun _ => .of_inner rfl
    refine ofLowering_lenient.skip _ fun decorators' => ofLowering_lenient.skip _ fun bases' => ?_
    refine ofLowering.bind (Judgement.lift (lowerBody_keeps _ body)) fun body' bodyKeeps => ?_
    exact ofLowering.pure bodyKeeps.inner
  | .assign .. | .augAssign .. | .annAssign .. | .delete .. | .branch .. | .returns ..
  | .raises .. | .declare .. | .asserts .. | .imports .. | .importFrom .. =>
    ofDesugar_lenient.always _ fun after => .of_simple rfl rfl after

/-- A lowered body keeps its docstring and those of all functions in it. -/
theorem lowerBody_keeps (env : Env) :
    ∀ body : List Stmt, ofDesugar.Gives (KeepsDocstrings body) (lowerBody env body)
  | [] => ofDesugar.pure (.nil _)
  | first :: rest => by
    rw [lowerBody]
    refine ofDesugar.bind (lowerStmt_keeps env first) fun here hereKeeps => ?_
    refine ofDesugar.bind (lowerBody_keeps env rest) fun later laterKeeps => ofDesugar.pure ?_
    exact hereKeeps.cons laterKeeps

theorem lowerHandlers_keep (env : Env) : ∀ handlers : List Handler, ofDesugar.Gives
    (fun after => (documentedInHandlers handlers).Sublist (documentedInHandlers after))
    (lowerHandlers env handlers)
  | [] => ofDesugar.pure (List.nil_sublist _)
  | .mk position type ident body :: rest => by
    rw [lowerHandlers]
    refine ofDesugar.bind (lowerBody_keeps env body) fun body' bodyKeeps => ?_
    refine ofDesugar.bind (lowerHandlers_keep env rest) fun rest' restKeep => ofDesugar.pure ?_
    exact bodyKeeps.inner.append restKeep

/-- The choice between handlers holds the bodies of all of them: one without a type is the
last. -/
theorem lowerCatches_keep (env : Env) : ∀ handlers : List Handler,
    earlyBareHandler? handlers = none →
    Documents (documentedInHandlers handlers) (choosingHandler (lowerCatches env handlers))
  | [], _ => ofDesugar.pure (List.nil_sublist _)
  | .mk position none ident body :: [], _ => by
    refine ofDesugar_lenient.imp (lowerBody_keeps env body) fun after keeps => ?_
    simpa [documentedInHandlers] using keeps.inner
  | .mk position none ident body :: next :: others, notEarly => by
    simp [earlyBareHandler?, Handler.type] at notEarly
  | .mk position (some type) ident body :: rest, notEarly => by
    have later : earlyBareHandler? rest = none := by
      cases rest with
      | nil => rfl
      | cons next others => exact notEarly_of_cons notEarly
    refine flush_documents (ofLowering_lenient.skip _ fun test => ?_)
    refine ofLowering.bind (Judgement.lift (lowerBody_keeps env body)) fun body' bodyKeeps => ?_
    refine ofLowering.bind (Judgement.lift (lowerCatches_keep env rest later))
      fun rest' restKept => ?_
    refine ofLowering.pure ?_
    rw [documented, namingException_documented]
    exact bodyKeeps.inner.append restKept

end

/-! ## Modules -/

theorem lowerUntilDone_keeps (options : Options) : ∀ (remaining : Nat) (body : List Stmt),
    ofDesugar.Gives (KeepsDocstrings body) (lowerUntilDone options remaining body)
  | 0, _ => fun _ _ => trivial
  | remaining + 1, body => by
    rw [lowerUntilDone]
    refine ofDesugar_lenient.skip _ fun _ => ?_
    refine ofDesugar.bind (lowerBody_keeps _ body) fun body' keeps => ?_
    refine ofDesugar_lenient.skip _ fun context => ofDesugar_lenient.skip _ fun _ => ?_
    split
    · exact ofDesugar_lenient.imp (lowerUntilDone_keeps options remaining body')
        fun _ => keeps.trans
    · exact ofDesugar.pure keeps

theorem lowerModule_keeps (options : Options) (body : List Stmt) :
    ofDesugar.Gives (KeepsDocstrings body) (lowerModule options body) :=
  ofDesugar_lenient.skip _ fun _ => lowerUntilDone_keeps options _ body

end Lowering
end Unsugar
