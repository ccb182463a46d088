import Unsugar.Proofs.Tree.Revision

/-! Docstrings. A body keeps its docstring if it still begins with the same text, and a
body that becomes another one should keep those of all functions in it as well. A pass does
so if it leaves a text alone as it is and keeps the docstrings of each definition. -/

namespace Unsugar

/-! ## Docstrings -/

namespace Stmt

/-- The text that a statement is. -/
def text? : Stmt → Option String
  | expression (.literal _ _ (.text value)) => some value
  | _ => none

/-- The docstring of a body. -/
def docstring? (body : List Stmt) : Option String :=
  body.head?.bind text?

mutual

/-- The functions in a statement that have a docstring, by their positions. -/
def documented : Stmt → List (Position × String)
  | conditional _ _ body _ orelse | whileLoop _ _ body orelse | forLoop _ _ _ body orelse =>
    documentedInBody body ++ documentedInBody orelse
  | tryBlock _ body handlers orelse final =>
    documentedInBody body ++ documentedInHandlers handlers ++ documentedInBody orelse ++
      documentedInBody final
  | withBlock _ _ body | classDef _ _ _ _ body => documentedInBody body
  | function _ position _ _ _ body =>
    (docstring? body).toList.map (position, ·) ++ documentedInBody body
  | _ => []

def documentedInBody : List Stmt → List (Position × String)
  | [] => []
  | first :: rest => documented first ++ documentedInBody rest

def documentedInHandlers : List Handler → List (Position × String)
  | [] => []
  | .mk _ _ _ body :: rest => documentedInBody body ++ documentedInHandlers rest

end

@[simp] theorem documentedInBody_nil : documentedInBody [] = [] := rfl

@[simp] theorem documentedInBody_cons (first : Stmt) (rest : List Stmt) :
    documentedInBody (first :: rest) = documented first ++ documentedInBody rest := rfl

@[simp] theorem documentedInBody_singleton (stmt : Stmt) :
    documentedInBody [stmt] = documented stmt := by
  rw [documentedInBody_cons, documentedInBody_nil, List.append_nil]

@[simp] theorem documentedInBody_append (first second : List Stmt) :
    documentedInBody (first ++ second) = documentedInBody first ++ documentedInBody second := by
  induction first with
  | nil => rfl
  | cons stmt rest induction =>
    rw [List.cons_append, documentedInBody, documentedInBody, induction, List.append_assoc]

theorem documented_of_isSimple {stmt : Stmt} (simple : stmt.isSimple = true) :
    documented stmt = [] := by
  cases stmt with
  | conditional | whileLoop | forLoop | tryBlock | withBlock | function | classDef => cases simple
  | _ => rfl

theorem eq_of_text? {stmt : Stmt} {value : String} (found : text? stmt = some value) :
    ∃ position raw, stmt = .expression (.literal position raw (.text value)) := by
  unfold text? at found
  split at found
  · cases found
    exact ⟨_, _, rfl⟩
  · cases found

end Stmt

/-! ## Keeping docstrings -/

/-- A body keeps its docstring, and so do the functions in it, in the same order. There may
be others in the other body. -/
structure KeepsDocstrings (before after : List Stmt) : Prop where
  own : ∀ text ∈ Stmt.docstring? before, text ∈ Stmt.docstring? after
  inner : (Stmt.documentedInBody before).Sublist (Stmt.documentedInBody after)

namespace KeepsDocstrings

open Stmt

variable {before after : List Stmt} {stmt : Stmt}

theorem refl (body : List Stmt) : KeepsDocstrings body body :=
  ⟨fun _ found => found, .refl _⟩

theorem trans {last : List Stmt} (first : KeepsDocstrings before after)
    (second : KeepsDocstrings after last) : KeepsDocstrings before last :=
  ⟨fun text found => second.own text (first.own text found), first.inner.trans second.inner⟩

theorem nil (after : List Stmt) : KeepsDocstrings [] after :=
  ⟨fun _ found => (nomatch found), List.nil_sublist _⟩

theorem cons {here later rest : List Stmt} (first : KeepsDocstrings [stmt] here)
    (others : KeepsDocstrings rest later) : KeepsDocstrings (stmt :: rest) (here ++ later) := by
  refine ⟨fun text found => ?_, ?_⟩
  · have kept := first.own text found
    cases here with
    | nil => cases kept
    | cons => exact kept
  · rw [documentedInBody_append, documentedInBody_cons]
    have alone := first.inner
    rw [documentedInBody_singleton] at alone
    exact alone.append others.inner

/-- A statement that is no text keeps docstrings if the functions in it do. -/
theorem of_inner (silent : stmt.text? = none)
    (inner : (documented stmt).Sublist (documentedInBody after)) : KeepsDocstrings [stmt] after := by
  refine ⟨fun text found => ?_, ?_⟩
  · rw [docstring?, List.head?_cons, Option.bind_some, silent] at found
    cases found
  · rw [documentedInBody_singleton]
    exact inner

/-- A statement that is no text and has no body has nothing to keep. -/
theorem of_simple (silent : stmt.text? = none) (simple : stmt.isSimple = true)
    (after : List Stmt) : KeepsDocstrings [stmt] after :=
  .of_inner silent (documented_of_isSimple simple ▸ List.nil_sublist _)

/-- Statements at the end of a body leave its docstring where it is. -/
theorem append_right (keeps : KeepsDocstrings before after) (added : List Stmt) :
    KeepsDocstrings before (after ++ added) := by
  refine ⟨fun text found => ?_, ?_⟩
  · have kept := keeps.own text found
    cases after with
    | nil => cases kept
    | cons => exact kept
  · rw [documentedInBody_append]
    exact keeps.inner.trans (List.sublist_append_left _ _)

/-- Statements may be put in behind the docstring of a body. -/
theorem insertAt {place : Nat} (behind : docstringLength before ≤ place) (added : List Stmt) :
    KeepsDocstrings before (insertAt place added before) := by
  refine ⟨fun text found => ?_, ?_⟩
  · match before, found with
    | first :: rest, found =>
      obtain ⟨position, raw, rfl⟩ := @eq_of_text? first text found
      match place, behind with
      | place + 1, _ => exact found
  · rw [Stmt.insertAt, documentedInBody_append, documentedInBody_append]
    have parts : documentedInBody before =
        documentedInBody (before.take place) ++ documentedInBody (before.drop place) := by
      rw [← documentedInBody_append, List.take_append_drop]
    rw [parts]
    exact (List.sublist_append_left _ _).append (.refl _)

theorem orPass (keeps : KeepsDocstrings before after) : KeepsDocstrings before (orPass after) := by
  unfold Stmt.orPass
  split
  · rename_i empty
    have none := List.isEmpty_iff.mp empty
    subst none
    exact ⟨fun text found => (nomatch keeps.own text found),
      keeps.inner.trans (List.nil_sublist _)⟩
  · exact keeps

/-- A function keeps docstrings if its body does. -/
theorem function {decorators decorators' : List Expr} {position : Position} {ident ident' : Ident}
    {params params' : List Param} {result result' : Option Expr}
    (keeps : KeepsDocstrings before after) :
    (documented (.function decorators position ident params result before)).Sublist
      (documented (.function decorators' position ident' params' result' after)) := by
  refine List.Sublist.append ?_ keeps.inner
  cases found : docstring? before with
  | none => exact List.nil_sublist _
  | some text =>
    have kept : docstring? after = some text := keeps.own text found
    rw [kept]

theorem inFunction {head head' : FunctionHead} (samePosition : head'.position = head.position)
    (keeps : KeepsDocstrings before after) :
    KeepsDocstrings [head.withBody before] [head'.withBody after] := by
  rw [FunctionHead.withBody, FunctionHead.withBody, samePosition]
  exact .of_inner rfl (by simpa using keeps.function)

theorem inClass (head : ClassHead) (keeps : KeepsDocstrings before after) :
    KeepsDocstrings [head.withBody before] [head.withBody after] :=
  .of_inner rfl (by simpa [ClassHead.withBody, documented] using keeps.inner)

/-- A statement that is no text may come between others. -/
theorem between (silent : stmt.text? = none) (keeps : KeepsDocstrings [stmt] after)
    (ahead behind : List Stmt) : KeepsDocstrings [stmt] (ahead ++ after ++ behind) := by
  refine .append_right (.of_inner silent ?_) behind
  have alone := keeps.inner
  rw [documentedInBody_singleton] at alone
  rw [documentedInBody_append]
  exact alone.trans (List.sublist_append_right _ _)

end KeepsDocstrings

/-! ## Passes -/

namespace Pass

open Stmt

variable {m : Type → Type} [Monad m] {judge : Judgement m} {ε : Type} {pass : Pass m ε}

/-- A pass that leaves texts as they are, and keeps the docstrings of definitions. -/
structure LeavesDocstrings (judge : Judgement m) (pass : Pass m ε) : Prop where
  lenient : judge.Lenient
  text : ∀ env position raw value,
    judge.Gives (KeepsDocstrings [.expression (.literal position raw (.text value))])
      (pass.simple env (.expression (.literal position raw (.text value))))
  enterFunction : ∀ env head body,
    judge.Gives (fun entered => entered.1.position = head.position)
      (pass.enterFunction env head body)
  leaveFunction : ∀ env inner next head body after, KeepsDocstrings body after →
    judge.Gives (KeepsDocstrings [head.withBody body])
      (pass.leaveFunction env inner next head after)
  leaveClass : ∀ env inner head body after, KeepsDocstrings body after →
    judge.Gives (KeepsDocstrings [head.withBody body]) (pass.leaveClass env inner head after)

theorem LeavesDocstrings.simple (leaves : LeavesDocstrings judge pass) (env : ε) {stmt : Stmt}
    (simple : stmt.isSimple = true) :
    judge.Gives (KeepsDocstrings [stmt]) (pass.simple env stmt) := by
  cases found : text? stmt with
  | none => exact leaves.lenient.always _ fun after => .of_simple found simple after
  | some value =>
    obtain ⟨position, raw, rfl⟩ := eq_of_text? found
    exact leaves.text env position raw value

theorem LeavesDocstrings.function (leaves : LeavesDocstrings judge pass) (env : ε)
    (next : Option Stmt) (decorators : List Expr) (position : Position) (ident : Ident)
    (params : List Param) (result : Option Expr) (body : List Stmt)
    (below : ∀ inner, judge.Gives (KeepsDocstrings body) (pass.body inner body)) :
    judge.Gives (KeepsDocstrings [.function decorators position ident params result body])
      (pass.stmt env next (.function decorators position ident params result body)) := by
  rw [Pass.stmt]
  refine judge.bind (leaves.enterFunction env _ body) ?_
  rintro ⟨head, inner⟩ (samePosition : head.position = position)
  have same : documented (.function decorators position ident params result body) =
      documented (head.withBody body) := by
    rw [FunctionHead.withBody, samePosition]
    rfl
  have kept : ∀ after, KeepsDocstrings [head.withBody body] after →
      KeepsDocstrings [.function decorators position ident params result body] after :=
    fun after keeps => .of_inner rfl (same ▸ by simpa using keeps.inner)
  cases inner with
  | none => exact judge.pure (kept _ (.refl _))
  | some inner =>
    refine judge.bind (below inner) fun after keeps => ?_
    exact leaves.lenient.imp (leaves.leaveFunction env inner next head body after keeps) kept

theorem LeavesDocstrings.classDef (leaves : LeavesDocstrings judge pass) (env : ε)
    (next : Option Stmt) (decorators : List Expr) (position : Position) (ident : Ident)
    (bases : List Expr) (body : List Stmt)
    (below : ∀ inner, judge.Gives (KeepsDocstrings body) (pass.body inner body)) :
    judge.Gives (KeepsDocstrings [.classDef decorators position ident bases body])
      (pass.stmt env next (.classDef decorators position ident bases body)) := by
  rw [Pass.stmt]
  refine leaves.lenient.skip _ fun (head, inner) => ?_
  have kept : ∀ after, KeepsDocstrings [head.withBody body] after →
      KeepsDocstrings [.classDef decorators position ident bases body] after :=
    fun after keeps => .of_inner rfl (by simpa [ClassHead.withBody, documented] using keeps.inner)
  cases inner with
  | none => exact judge.pure (kept _ (.refl _))
  | some inner =>
    refine judge.bind (below inner) fun after keeps => ?_
    exact leaves.lenient.imp (leaves.leaveClass env inner head body after keeps) kept

mutual

theorem stmt_keeps (leaves : LeavesDocstrings judge pass) :
    ∀ (env : ε) (next : Option Stmt) (stmt : Stmt),
      judge.Gives (KeepsDocstrings [stmt]) (pass.stmt env next stmt)
  | env, _, .conditional position test body elsePosition orelse => by
    rw [Pass.stmt]
    refine leaves.lenient.skip _ fun test' => ?_
    refine judge.bind (body_keeps leaves env body) fun body' bodyKeeps => ?_
    refine judge.bind (body_keeps leaves env orelse) fun orelse' orelseKeeps => judge.pure ?_
    exact .of_inner rfl (by simpa [documented] using bodyKeeps.inner.append orelseKeeps.inner)
  | env, _, .whileLoop position test body orelse => by
    rw [Pass.stmt]
    refine leaves.lenient.skip _ fun test' => ?_
    refine judge.bind (body_keeps leaves env body) fun body' bodyKeeps => ?_
    refine judge.bind (body_keeps leaves env orelse) fun orelse' orelseKeeps => judge.pure ?_
    exact .of_inner rfl (by simpa [documented] using bodyKeeps.inner.append orelseKeeps.inner)
  | env, _, .forLoop position target iterable body orelse => by
    rw [Pass.stmt]
    refine leaves.lenient.skip _ fun iterable' => leaves.lenient.skip _ fun target' => ?_
    refine judge.bind (body_keeps leaves env body) fun body' bodyKeeps => ?_
    refine judge.bind (body_keeps leaves env orelse) fun orelse' orelseKeeps => judge.pure ?_
    exact .of_inner rfl (by simpa [documented] using bodyKeeps.inner.append orelseKeeps.inner)
  | env, _, .tryBlock position body handlers orelse final => by
    rw [Pass.stmt]
    refine judge.bind (body_keeps leaves env body) fun body' bodyKeeps => ?_
    refine judge.bind (handlers_keep leaves env handlers) fun handlers' handlersKeep => ?_
    refine judge.bind (body_keeps leaves env orelse) fun orelse' orelseKeeps => ?_
    refine judge.bind (body_keeps leaves env final) fun final' finalKeeps => judge.pure ?_
    refine .of_inner rfl ?_
    simpa [documented] using bodyKeeps.inner.append
      (handlersKeep.append (orelseKeeps.inner.append finalKeeps.inner))
  | env, _, .withBlock position items body => by
    rw [Pass.stmt]
    refine leaves.lenient.skip _ fun items' => ?_
    refine judge.bind (body_keeps leaves env body) fun body' bodyKeeps => judge.pure ?_
    exact .of_inner rfl (by simpa [documented] using bodyKeeps.inner)
  | env, next, .function decorators position ident params result body =>
    leaves.function env next decorators position ident params result body
      fun inner => body_keeps leaves inner body
  | env, next, .classDef decorators position ident bases body =>
    leaves.classDef env next decorators position ident bases body
      fun inner => body_keeps leaves inner body
  | env, _, .expression _ | env, _, .assign .. | env, _, .augAssign .. | env, _, .annAssign ..
  | env, _, .delete .. | env, _, .branch .. | env, _, .returns .. | env, _, .raises ..
  | env, _, .declare .. | env, _, .asserts .. | env, _, .imports .. | env, _, .importFrom .. =>
    leaves.simple env rfl

/-- Such a pass keeps the docstrings of a body and of all functions in it. -/
theorem body_keeps (leaves : LeavesDocstrings judge pass) :
    ∀ (env : ε) (body : List Stmt), judge.Gives (KeepsDocstrings body) (pass.body env body)
  | _, [] => judge.pure (.nil _)
  | env, first :: rest => by
    rw [Pass.body]
    refine judge.bind (stmt_keeps leaves env rest.head? first) fun here hereKeeps => ?_
    refine judge.bind (body_keeps leaves env rest) fun later laterKeeps => judge.pure ?_
    exact hereKeeps.cons laterKeeps

theorem handlers_keep (leaves : LeavesDocstrings judge pass) :
    ∀ (env : ε) (handlers : List Handler), judge.Gives
      (fun after => (documentedInHandlers handlers).Sublist (documentedInHandlers after))
      (pass.handlers env handlers)
  | _, [] => judge.pure (List.nil_sublist _)
  | env, .mk position type ident body :: rest => by
    rw [Pass.handlers]
    refine leaves.lenient.skip _ fun type' => ?_
    refine judge.bind (body_keeps leaves env body) fun body' bodyKeeps => ?_
    refine judge.bind (handlers_keep leaves env rest) fun rest' restKeep => judge.pure ?_
    exact bodyKeeps.inner.append restKeep

end

end Pass
end Unsugar
