import Unsugar.Hints
import Unsugar.Proofs.Lowering.Form
import Unsugar.Proofs.Tree.Revision
import Unsugar.Scope.Private

/-! Modules without type hints. Once the hints are taken out of a module, no function of
it has any, and renaming its private names brings none back. -/

namespace Unsugar

variable {form : Form}

namespace Stmt

@[simp] theorem hintsFitBody_append (first second : List Stmt) :
    hintsFitBody form (first ++ second) = (hintsFitBody form first && hintsFitBody form second) := by
  induction first with
  | nil => rfl
  | cons stmt rest induction =>
    rw [List.cons_append, hintsFitBody, hintsFitBody, induction, Bool.and_assoc]

theorem hintsFitBody_insertAt {added body : List Stmt} (place : Nat)
    (addedFits : hintsFitBody form added = true) (bodyFits : hintsFitBody form body = true) :
    hintsFitBody form (insertAt place added body) = true := by
  rw [← List.take_append_drop place body, hintsFitBody_append, Bool.and_eq_true] at bodyFits
  rw [insertAt, hintsFitBody_append, hintsFitBody_append, bodyFits.1, bodyFits.2, addedFits]
  rfl

end Stmt

/-! ## Taking hints out -/

namespace Hints

/-- What is known of a body whose hints are being taken out, whatever was recorded
before. -/
abbrev judge : Judgement (StateM Bool) := .ofState Bool

theorem ofStmt_fits (asText : Bool) (place : Place) (stmt : Stmt) (simple : stmt.isSimple = true) :
    judge.Gives (Stmt.hintsFitBody form · = true) (ofStmt asText place stmt) := by
  intro recorded
  cases stmt with
  | annAssign target hint value =>
    simp only [ofStmt]
    split <;> cases value <;> rfl
  | conditional | whileLoop | forLoop | tryBlock | withBlock | function | classDef => cases simple
  | _ => rfl

theorem bindRecord_fits (recorded : Bool) {body : List Stmt}
    (fits : Stmt.hintsFitBody form body = true) :
    Stmt.hintsFitBody form (bindRecord recorded body) = true := by
  unfold bindRecord
  split
  · exact Stmt.hintsFitBody_insertAt _ rfl fits
  · exact fits

theorem keepsHints_withoutHint (params : List Param) :
    form.keepsHints (params.map Param.withoutHint) none = true := by
  have none : (params.map Param.withoutHint).all (·.hint.isNone) = true := by
    simp [List.all_map, Function.comp_def]
  rw [Form.keepsHints, none]
  exact Bool.or_true _

mutual

theorem stmt_fits (asText : Bool) : ∀ (place : Place) (next : Option Stmt) (stmt : Stmt),
    judge.Gives (Stmt.hintsFitBody form · = true) ((pass asText).stmt place next stmt)
  | place, _, .conditional position test body elsePosition orelse => by
    refine judge.bind (fun _ => trivial) fun test' (_ : True) => ?_
    refine judge.bind (body_fits asText place body) fun body' bodyFits => ?_
    refine judge.bind (body_fits asText place orelse) fun orelse' orelseFits => judge.pure ?_
    simp [Stmt.hintsFitBody, Stmt.hintsFit, bodyFits, orelseFits]
  | place, _, .whileLoop position test body orelse => by
    refine judge.bind (fun _ => trivial) fun test' (_ : True) => ?_
    refine judge.bind (body_fits asText place body) fun body' bodyFits => ?_
    refine judge.bind (body_fits asText place orelse) fun orelse' orelseFits => judge.pure ?_
    simp [Stmt.hintsFitBody, Stmt.hintsFit, bodyFits, orelseFits]
  | place, _, .forLoop position target iterable body orelse => by
    refine judge.bind (fun _ => trivial) fun iterable' (_ : True) => ?_
    refine judge.bind (fun _ => trivial) fun target' (_ : True) => ?_
    refine judge.bind (body_fits asText place body) fun body' bodyFits => ?_
    refine judge.bind (body_fits asText place orelse) fun orelse' orelseFits => judge.pure ?_
    simp [Stmt.hintsFitBody, Stmt.hintsFit, bodyFits, orelseFits]
  | place, _, .tryBlock position body handlers orelse final => by
    refine judge.bind (body_fits asText place body) fun body' bodyFits => ?_
    refine judge.bind (handlers_fit asText place handlers) fun handlers' handlersFit => ?_
    refine judge.bind (body_fits asText place orelse) fun orelse' orelseFits => ?_
    refine judge.bind (body_fits asText place final) fun final' finalFits => judge.pure ?_
    simp [Stmt.hintsFitBody, Stmt.hintsFit, bodyFits, handlersFit, orelseFits, finalFits]
  | place, _, .withBlock position items body => by
    refine judge.bind (fun _ => trivial) fun items' (_ : True) => ?_
    refine judge.bind (body_fits asText place body) fun body' bodyFits => judge.pure ?_
    simp [Stmt.hintsFitBody, Stmt.hintsFit, bodyFits]
  | place, _, .function decorators position ident params result body => by
    intro recorded
    have bodyFits := body_fits asText ⟨.functionScope, recorded⟩ body false
    change Stmt.hintsFitBody form [.function _ _ _ (params.map Param.withoutHint) none _] = true
    rw [Stmt.hintsFitBody, Stmt.hintsFit, keepsHints_withoutHint, Bool.true_and, Stmt.hintsFitBody,
      Bool.and_true]
    exact bodyFits
  | place, _, .classDef decorators position ident bases body => by
    intro recorded
    have bodyFits := body_fits asText ⟨.classScope, recorded⟩ body false
    change Stmt.hintsFitBody form [.classDef _ _ _ _ (bindRecord _ _)] = true
    rw [Stmt.hintsFitBody, Stmt.hintsFit, Stmt.hintsFitBody, Bool.and_true]
    exact bindRecord_fits _ bodyFits
  | place, _, .expression value => ofStmt_fits asText place (.expression value) rfl
  | place, _, .assign targets value => ofStmt_fits asText place (.assign targets value) rfl
  | place, _, .augAssign target op value =>
    ofStmt_fits asText place (.augAssign target op value) rfl
  | place, _, .annAssign target hint value =>
    ofStmt_fits asText place (.annAssign target hint value) rfl
  | place, _, .delete position targets => ofStmt_fits asText place (.delete position targets) rfl
  | place, _, .branch position kind => ofStmt_fits asText place (.branch position kind) rfl
  | place, _, .returns position result => ofStmt_fits asText place (.returns position result) rfl
  | place, _, .raises position exception cause =>
    ofStmt_fits asText place (.raises position exception cause) rfl
  | place, _, .declare position declaration names =>
    ofStmt_fits asText place (.declare position declaration names) rfl
  | place, _, .asserts position test message =>
    ofStmt_fits asText place (.asserts position test message) rfl
  | place, _, .imports position names => ofStmt_fits asText place (.imports position names) rfl
  | place, _, .importFrom position source level names closing =>
    ofStmt_fits asText place (.importFrom position source level names closing) rfl

theorem body_fits (asText : Bool) : ∀ (place : Place) (body : List Stmt),
    judge.Gives (Stmt.hintsFitBody form · = true) ((pass asText).body place body)
  | _, [] => judge.pure rfl
  | place, first :: rest => by
    refine judge.bind (stmt_fits asText place rest.head? first) fun here hereFits => ?_
    refine judge.bind (body_fits asText place rest) fun later laterFits => judge.pure ?_
    rw [Stmt.hintsFitBody_append, hereFits, laterFits]
    rfl

theorem handlers_fit (asText : Bool) : ∀ (place : Place) (handlers : List Handler),
    judge.Gives (Stmt.hintsFitHandlers form · = true) ((pass asText).handlers place handlers)
  | _, [] => judge.pure rfl
  | place, .mk position type ident body :: rest => by
    refine judge.bind (fun _ => trivial) fun type' (_ : True) => ?_
    refine judge.bind (body_fits asText place body) fun body' bodyFits => ?_
    refine judge.bind (handlers_fit asText place rest) fun rest' restFit => judge.pure ?_
    rw [Stmt.hintsFitHandlers, bodyFits, restFit]
    rfl

end

end Hints

theorem takeHints_fits (body : List Stmt) : Stmt.hintsFitBody form (takeHints body).2 = true :=
  Hints.bindRecord_fits _ (Hints.body_fits _ _ _ false)

/-! ## Private names -/

theorem keepsHints_mapLeaves (leaves : LeafMap) (params : List Param) (result : Option Expr) :
    form.keepsHints (Expr.mapLeavesParams leaves params) (Expr.mapLeavesOption leaves result) =
      form.keepsHints params result := by
  have option : ∀ hint : Option Expr, (Expr.mapLeavesOption leaves hint).isNone = hint.isNone := by
    intro hint
    cases hint <;> rfl
  have all : (Expr.mapLeavesParams leaves params).all (·.hint.isNone) =
      params.all (·.hint.isNone) := by
    induction params with
    | nil => rfl
    | cons first rest induction =>
      obtain ⟨kind, position, ident, hint, default⟩ := first
      rw [Expr.mapLeavesParams, List.all_cons, List.all_cons, induction]
      exact congrArg (· && _) (option hint)
  rw [Form.keepsHints, Form.keepsHints, all, option]

namespace Stmt

variable (inside : String → LeafMap)

mutual

theorem hintsFit_mapLeaves : ∀ (leaves : LeafMap) (stmt : Stmt),
    hintsFit form (mapLeaves inside leaves stmt) = hintsFit form stmt
  | leaves, .conditional _ _ body _ orelse | leaves, .whileLoop _ _ body orelse
  | leaves, .forLoop _ _ _ body orelse => by
    rw [mapLeaves, hintsFit, hintsFit, hintsFitBody_mapLeaves leaves body,
      hintsFitBody_mapLeaves leaves orelse]
  | leaves, .tryBlock _ body handlers orelse final => by
    rw [mapLeaves, hintsFit, hintsFit, hintsFitBody_mapLeaves leaves body,
      hintsFitHandlers_mapLeaves leaves handlers, hintsFitBody_mapLeaves leaves orelse,
      hintsFitBody_mapLeaves leaves final]
  | leaves, .withBlock _ _ body => hintsFitBody_mapLeaves leaves body
  | leaves, .function _ _ _ params result body => by
    rw [mapLeaves, hintsFit, hintsFit, keepsHints_mapLeaves, hintsFitBody_mapLeaves leaves body]
  | _, .classDef _ _ ident _ body => hintsFitBody_mapLeaves (inside ident.name) body
  | _, .expression .. | _, .assign .. | _, .augAssign .. | _, .annAssign .. | _, .delete ..
  | _, .branch .. | _, .returns .. | _, .raises .. | _, .declare .. | _, .asserts ..
  | _, .imports .. | _, .importFrom .. => rfl

theorem hintsFitBody_mapLeaves : ∀ (leaves : LeafMap) (body : List Stmt),
    hintsFitBody form (mapLeavesBody inside leaves body) = hintsFitBody form body
  | _, [] => rfl
  | leaves, first :: rest => by
    rw [mapLeavesBody, hintsFitBody, hintsFitBody, hintsFit_mapLeaves leaves first,
      hintsFitBody_mapLeaves leaves rest]

theorem hintsFitHandlers_mapLeaves : ∀ (leaves : LeafMap) (handlers : List Handler),
    hintsFitHandlers form (mapLeavesHandlers inside leaves handlers) =
      hintsFitHandlers form handlers
  | _, [] => rfl
  | leaves, .mk _ _ _ body :: rest => by
    rw [mapLeavesHandlers, hintsFitHandlers, hintsFitHandlers, hintsFitBody_mapLeaves leaves body,
      hintsFitHandlers_mapLeaves leaves rest]

end

end Stmt

/-- No function of a module has hints when the module is lowered. -/
theorem manglePrivate_takeHints_fits (body : List Stmt) :
    Stmt.hintsFitBody form (manglePrivate (takeHints body).2) = true :=
  (Stmt.hintsFitBody_mapLeaves privateNames _ _).trans (takeHints_fits body)

end Unsugar
