import Unsugar.Proofs.Judgement
import Unsugar.Proofs.Scope.Outline
import Unsugar.Tree.Shape
import Unsugar.Tree.Visitor

/-! Revised trees. What a visitor does to an expression that it replaces carries over to
the expressions around it, whatever the monad of the visitor; the same goes for what a
pass does to statements. -/

namespace Unsugar

/-! ## Expressions -/

namespace Expr

variable {m : Type → Type} [Monad m] {judge : Judgement m} {visitor : Visitor m}
  {similar : List String → List String → Prop}

theorem eq_name_of_isName {expr : Expr} {id : String} (named : expr.isName id = true) :
    ∃ position, expr = .name position id := by
  cases expr with
  | name position found =>
    have same : found = id := by simpa [isName] using named
    exact ⟨position, by rw [same]⟩
  | _ => cases named

/-- An expression and its counterpart: both are plain, and the names they load are
similar. -/
def Revised (similar : List String → List String → Prop) (before after : Expr) : Prop :=
  after.isPlain = true ∧ similar before.names after.names

/-- A visitor that replaces expressions by counterparts. -/
structure Revises (judge : Judgement m) (similar : List String → List String → Prop)
    (visitor : Visitor m) : Prop where
  nil : similar [] []
  append : ∀ {first first' second second'}, similar first first' → similar second second' →
    similar (first ++ second) (first' ++ second')
  expr : ∀ expr : Expr, expr.isPlain = true → judge.Gives (fun reply =>
    match reply with
    | some after => Revised similar expr after
    | none => ∀ position id, expr = .name position id → similar [id] [id]) (visitor.expr expr)
  arguments : ∀ (callee : Expr) (arguments : List Expr) (place : Nat) (argument after : Expr),
    arguments[place]? = some argument →
    (visitor.arguments callee arguments)[place]? = some (some after) → Revised similar argument after

/-- A visitor may leave an expression as it is. -/
theorem keep_gives (same : ∀ id, similar [id] [id]) {expr : Expr} :
    judge.Gives (fun reply =>
      match reply with
      | some after => Revised similar expr after
      | none => ∀ position id, expr = .name position id → similar [id] [id]) (pure none) :=
  judge.pure fun _ id _ => same id

theorem orRevise_gives {expr : Expr} {found : m (Option Expr)} {below : m Expr}
    (reply : judge.Gives (fun reply =>
      match reply with
      | some after => Revised similar expr after
      | none => ∀ position id, expr = .name position id → similar [id] [id]) found)
    (rest : judge.Gives (Revised similar expr) below) :
    judge.Gives (Revised similar expr) (orRevise found below) := by
  refine judge.bind reply fun reply given => ?_
  cases reply with
  | none => exact rest
  | some after => exact judge.pure given

mutual

theorem revise_gives (revises : Revises judge similar visitor) :
    ∀ expr : Expr, expr.isPlain = true →
      judge.Gives (Revised similar expr) (expr.revise visitor)
  | .name position id, plain => by
    rw [revise]
    refine judge.bind (revises.expr _ plain) fun reply given => ?_
    cases reply with
    | none => exact judge.pure ⟨rfl, given position id rfl⟩
    | some after => exact judge.pure given
  | .literal position raw value, plain => by
    rw [revise]
    exact orRevise_gives (revises.expr _ plain) (judge.pure ⟨rfl, revises.nil⟩)
  | .call callee arguments closing, plain => by
    have parts := Bool.and_eq_true_iff.mp plain
    rw [revise]
    refine orRevise_gives (revises.expr _ plain) ?_
    refine judge.bind (revise_gives revises callee parts.1) fun callee' calleeGiven => ?_
    have replies := reviseArguments_gives revises (visitor.arguments callee arguments) arguments
      parts.2 (revises.arguments callee arguments)
    refine judge.bind replies fun items given => ?_
    exact judge.pure ⟨by simp [isPlain, calleeGiven.1, given.1],
      revises.append calleeGiven.2 given.2⟩
  | .keyword position id value, plain => by
    rw [revise]
    refine orRevise_gives (revises.expr _ plain) ?_
    exact judge.bind (revise_gives revises value plain) fun after given => judge.pure given
  | .starred position op value, plain => by
    rw [revise]
    refine orRevise_gives (revises.expr _ plain) ?_
    exact judge.bind (revise_gives revises value plain) fun after given => judge.pure given
  | .member object position id, plain => by
    rw [revise]
    refine orRevise_gives (revises.expr _ plain) ?_
    exact judge.bind (revise_gives revises object plain) fun after given => judge.pure given
  | .list opening items closing, plain => by
    rw [revise]
    refine orRevise_gives (revises.expr _ plain) ?_
    exact judge.bind (reviseList_gives revises items plain) fun after given => judge.pure given
  | .tuple opening items closing, plain => by
    rw [revise]
    refine orRevise_gives (revises.expr _ plain) ?_
    exact judge.bind (reviseList_gives revises items plain) fun after given => judge.pure given
  | .set opening items closing, plain => by
    rw [revise]
    refine orRevise_gives (revises.expr _ plain) ?_
    exact judge.bind (reviseList_gives revises items plain) fun after given => judge.pure given
  | .dict opening items closing, plain => by
    rw [revise]
    refine orRevise_gives (revises.expr _ plain) ?_
    exact judge.bind (reviseList_gives revises items plain) fun after given => judge.pure given
  | .entry key value, plain => by
    have parts := Bool.and_eq_true_iff.mp plain
    rw [revise]
    refine orRevise_gives (revises.expr _ plain) ?_
    refine judge.bind (revise_gives revises key parts.1) fun key' keyGiven => ?_
    refine judge.bind (revise_gives revises value parts.2) fun value' valueGiven => ?_
    exact judge.pure ⟨by simp [isPlain, keyGiven.1, valueGiven.1],
      revises.append keyGiven.2 valueGiven.2⟩
  | .yield position delegates value, plain => by
    rw [revise]
    refine orRevise_gives (revises.expr _ plain) ?_
    exact judge.bind (reviseOption_gives revises value plain) fun after given => judge.pure given

theorem reviseOption_gives (revises : Revises judge similar visitor) :
    ∀ value : Option Expr, isPlainOption value = true →
      judge.Gives (fun after => isPlainOption after = true ∧
        similar (namesOfOption value) (namesOfOption after)) (reviseOption visitor value)
  | none, _ => judge.pure ⟨rfl, revises.nil⟩
  | some value, plain =>
    judge.bind (revise_gives revises value plain) fun _ given => judge.pure given

theorem reviseList_gives (revises : Revises judge similar visitor) :
    ∀ items : List Expr, arePlain items = true →
      judge.Gives (fun after => arePlain after = true ∧
        similar (namesOfList items) (namesOfList after)) (reviseList visitor items)
  | [], _ => judge.pure ⟨rfl, revises.nil⟩
  | first :: rest, plain => by
    have parts := Bool.and_eq_true_iff.mp plain
    rw [reviseList]
    refine judge.bind (revise_gives revises first parts.1) fun first' firstGiven => ?_
    refine judge.bind (reviseList_gives revises rest parts.2) fun rest' restGiven => ?_
    exact judge.pure ⟨by simp [firstGiven.1, restGiven.1],
      revises.append firstGiven.2 restGiven.2⟩

theorem reviseArguments_gives (revises : Revises judge similar visitor) :
    ∀ (replaced : List (Option Expr)) (items : List Expr), arePlain items = true →
      (∀ (place : Nat) (argument after : Expr), items[place]? = some argument →
        replaced[place]? = some (some after) → Revised similar argument after) →
      judge.Gives (fun after => arePlain after = true ∧
        similar (namesOfList items) (namesOfList after)) (reviseArguments visitor replaced items)
  | _, [], _, _ => judge.pure ⟨rfl, revises.nil⟩
  | replaced, first :: rest, plain, replies => by
    have parts := Bool.and_eq_true_iff.mp plain
    rw [reviseArguments]
    have here : judge.Gives (Revised similar first)
        (orRevise (pure (replaced.head?.getD none)) (revise visitor first)) := by
      refine judge.bind (@Judgement.pure _ _ judge _ (· = replaced.head?.getD none) _ rfl) ?_
      rintro _ rfl
      cases reply : replaced.head?.getD none with
      | none => exact revise_gives revises first parts.1
      | some after =>
        refine judge.pure (replies 0 first after rfl ?_)
        cases replaced with
        | nil => cases reply
        | cons => exact congrArg some reply
    have later := reviseArguments_gives revises replaced.tail rest parts.2
      fun place argument after found reply => replies (place + 1) argument after found
        (by simpa using reply)
    refine judge.bind here fun first' firstGiven => ?_
    refine judge.bind later fun rest' restGiven => ?_
    exact judge.pure ⟨by simp [firstGiven.1, restGiven.1],
      revises.append firstGiven.2 restGiven.2⟩

end

theorem reviseParams_gives (revises : Revises judge similar visitor) :
    ∀ params : List Param, params.all Param.isPlain = true →
      judge.Gives (fun after => after.all Param.isPlain = true ∧
        Collector.paramNames after = Collector.paramNames params ∧
        similar (namesOfParams params) (namesOfParams after)) (reviseParams visitor params)
  | [], _ => judge.pure ⟨rfl, rfl, revises.nil⟩
  | .mk kind position ident none default :: rest, plain => by
    have parts : isPlainOption default = true ∧ rest.all Param.isPlain = true := by
      simpa [Param.isPlain, Param.hint, Param.default] using plain
    rw [reviseParams]
    refine judge.bind (@Judgement.pure _ _ judge _ (· = none) none rfl) ?_
    rintro _ rfl
    refine judge.bind (reviseOption_gives revises default parts.1) fun default' given => ?_
    refine judge.bind (reviseParams_gives revises rest parts.2) fun rest' restGiven => ?_
    refine judge.pure ⟨?_, ?_, revises.append given.2 restGiven.2.2⟩
    · rw [List.all_cons, restGiven.1, Bool.and_true]
      exact given.1
    · have same := restGiven.2.1
      simp only [Collector.paramNames, List.filterMap_cons] at same ⊢
      rw [same]
      rfl

end Expr

/-! ## Statements -/

namespace Stmt

/-- A target of a plain assignment or deletion, and its counterpart. -/
inductive TargetRevised (similar : List String → List String → Prop) : Expr → Expr → Prop where
  | name (position : Position) (id : String) :
    TargetRevised similar (.name position id) (.name position id)
  | member {object object' : Expr} (position : Position) (id : String) :
    object.Revised similar object' →
    TargetRevised similar (.member object position id) (.member object' position id)

/-- A statement that has no body, and its counterpart. -/
inductive Revised (similar : List String → List String → Prop) : Stmt → Stmt → Prop where
  | expression {value value' : Expr} : value.Revised similar value' →
    Revised similar (expression value) (expression value')
  | assign {target target' value value' : Expr} : TargetRevised similar target target' →
    value.Revised similar value' → Revised similar (assign [target] value) (assign [target'] value')
  | delete {position : Position} {target target' : Expr} : TargetRevised similar target target' →
    Revised similar (delete position [target]) (delete position [target'])
  | returns {position : Position} {result result' : Option Expr} :
    Expr.isPlainOption result' = true →
    similar (Expr.namesOfOption result) (Expr.namesOfOption result') →
    Revised similar (returns position result) (returns position result')
  | raises {position : Position} {exception exception' : Option Expr} :
    Expr.isPlainOption exception' = true →
    similar (Expr.namesOfOption exception) (Expr.namesOfOption exception') →
    Revised similar (raises position exception none) (raises position exception' none)
  | branch {position : Position} {kind : BranchKind} :
    Revised similar (branch position kind) (branch position kind)
  | declare {position : Position} {declaration : Declaration} {names : List Ident} :
    Revised similar (declare position declaration names) (declare position declaration names)
  | importFrom {position : Position} {source : String} {level : Nat} {names : List Alias}
      {closing : Position} :
    Revised similar (importFrom position source level names closing)
      (importFrom position source level names closing)

/-- Statements that hold no others. -/
def isSimple : Stmt → Bool
  | conditional .. | whileLoop .. | forLoop .. | tryBlock .. | withBlock .. => false
  | function .. | classDef .. => false
  | _ => true

theorem outlines_of_isSimple {stmt : Stmt} (simple : stmt.isSimple = true) :
    stmt.outlines = [] := by
  cases stmt with
  | conditional | whileLoop | forLoop | tryBlock | withBlock | function | classDef => cases simple
  | _ => rfl

variable {m : Type → Type} [Monad m] {judge : Judgement m} {visitor : Visitor m}
  {similar : List String → List String → Prop} {shape : Shape}

section Function

variable {decorators : List Expr} {position : Position} {ident : Ident} {params : List Param}
  {result : Option Expr} {body : List Stmt}

theorem decorators_of_isPlain
    (plain : isPlain shape (function decorators position ident params result body) = true) :
    Expr.arePlain decorators = true := by
  simp only [isPlain, Bool.and_eq_true] at plain
  exact plain.1.1.1.2

theorem params_of_isPlain
    (plain : isPlain shape (function decorators position ident params result body) = true) :
    params.all Param.isPlain = true := by
  simp only [isPlain, Bool.and_eq_true] at plain
  exact plain.1.1.2

theorem body_of_isPlain
    (plain : isPlain shape (function decorators position ident params result body) = true) :
    arePlain shape body = true := by
  simp only [isPlain, Bool.and_eq_true] at plain
  exact plain.2

theorem reserved_of_isPlain (renamed : shape.renamed = true)
    (plain : isPlain shape (function decorators position ident params result body) = true) :
    isReserved ident.name = true := by
  simp only [isPlain, renamed, Bool.not_true, Bool.false_or, Bool.and_eq_true] at plain
  exact plain.1.1.1.1

theorem isPlain_function_congr {params' : List Param} {body' : List Stmt}
    (plain : isPlain shape (function decorators position ident params result body) = true)
    (paramsPlain : params'.all Param.isPlain = true) (bodyPlain : arePlain shape body' = true) :
    isPlain shape (function decorators position ident params' result body') = true := by
  simp only [isPlain, Bool.and_eq_true] at plain ⊢
  exact ⟨⟨⟨plain.1.1.1, paramsPlain⟩, plain.1.2⟩, bodyPlain⟩

end Function

theorem assign_of_isPlain {targets : List Expr} {value : Expr}
    (plain : isPlain shape (assign targets value) = true) :
    ∃ target, targets = [target] ∧ isPlainTarget target = true ∧ value.isPlain = true :=
  match targets, plain with
  | [target], plain => ⟨target, rfl, Bool.and_eq_true_iff.mp plain⟩

theorem delete_of_isPlain {position : Position} {targets : List Expr}
    (plain : isPlain shape (delete position targets) = true) :
    ∃ target, targets = [target] ∧ isPlainTarget target = true :=
  match targets, plain with
  | [target], plain => ⟨target, rfl, plain⟩

/-- What a statement assigns to or deletes. -/
def targets : Stmt → List Expr
  | assign targets _ => targets
  | delete _ targets => targets
  | _ => []

/-- A visitor that leaves a target to what is below it, or a name as it is. -/
def KeepsTarget (judge : Judgement m) (visitor : Visitor m) (target : Expr) : Prop :=
  judge.Gives (fun reply => reply = none ∨
    ∃ position id, target = .name position id ∧ reply = some target) (visitor.target target)

theorem reviseTargets_gives (revises : Expr.Revises judge similar visitor) (target : Expr)
    (keeps : KeepsTarget judge visitor target) (plain : isPlainTarget target = true) :
    judge.Gives (fun targets => ∃ target', targets = [target'] ∧
      TargetRevised similar target target') (Expr.reviseTargets visitor [target]) := by
  have here : judge.Gives (TargetRevised similar target) (Expr.reviseTarget visitor target) := by
    cases target with
    | name position id =>
      refine judge.bind keeps ?_
      rintro _ (rfl | ⟨_, _, ⟨⟩, rfl⟩)
      · exact judge.pure (.name position id)
      · exact judge.pure (.name position id)
    | member object position id =>
      refine judge.bind keeps ?_
      rintro _ (rfl | ⟨_, _, ⟨⟩, _⟩)
      exact judge.bind (Expr.revise_gives revises object plain) fun _ given =>
        judge.pure (.member position id given)
    | _ => cases plain
  rw [Expr.reviseTargets]
  refine judge.bind here fun target' given => ?_
  refine judge.bind (@Judgement.pure _ _ judge _ (· = []) [] rfl) ?_
  rintro _ rfl
  exact judge.pure ⟨target', rfl, given⟩

theorem reviseSimple_gives (revises : Expr.Revises judge similar visitor) :
    ∀ stmt : Stmt, (∀ target ∈ stmt.targets, KeepsTarget judge visitor target) →
      stmt.isSimple = true → stmt.isPlain shape = true →
      judge.Gives (Revised similar stmt) (stmt.reviseSimple visitor)
  | .expression value, _, _, plain =>
    judge.bind (Expr.revise_gives revises value plain) fun _ given => judge.pure (.expression given)
  | .assign [target] value, keeps, _, plain => by
    have parts := Bool.and_eq_true_iff.mp plain
    refine judge.bind (Expr.revise_gives revises value parts.2) fun value' given => ?_
    refine judge.bind (reviseTargets_gives revises target (keeps _ List.mem_cons_self) parts.1) ?_
    rintro _ ⟨target', rfl, targetGiven⟩
    exact judge.pure (.assign targetGiven given)
  | .delete position [target], keeps, _, plain => by
    refine judge.bind (reviseTargets_gives revises target (keeps _ List.mem_cons_self) plain) ?_
    rintro _ ⟨target', rfl, given⟩
    exact judge.pure (.delete given)
  | .returns position result, _, _, plain =>
    judge.bind (Expr.reviseOption_gives revises result plain) fun _ given =>
      judge.pure (.returns given.1 given.2)
  | .raises position exception none, _, _, plain => by
    refine judge.bind (Expr.reviseOption_gives revises exception plain) fun _ given => ?_
    refine judge.bind (@Judgement.pure _ _ judge _ (· = none) none rfl) ?_
    rintro _ rfl
    exact judge.pure (.raises given.1 given.2)
  | .branch .., _, _, _ => judge.pure .branch
  | .declare .., _, _, _ => judge.pure .declare
  | .importFrom .., _, _, _ => judge.pure .importFrom

end Stmt

namespace Pass

variable {m : Type → Type} {ε : Type}

/-- A relation of bodies that passes keep, one part of a body at a time. -/
structure Congruence (tests : Expr → Expr → Prop)
    (bodies : List Stmt → List Stmt → Prop) (handlers : List Handler → List Handler → Prop) :
    Prop where
  nil : bodies [] []
  append : ∀ {first first' second second'}, bodies first first' → bodies second second' →
    bodies (first ++ second) (first' ++ second')
  conditional : ∀ {position test test' body body' elsePosition orelse orelse'}, tests test test' →
    bodies body body' → bodies orelse orelse' →
    bodies [.conditional position test body elsePosition orelse]
      [.conditional position test' body' elsePosition orelse']
  whileLoop : ∀ {position test test' body body' orelse orelse'}, tests test test' →
    bodies body body' → bodies orelse orelse' →
    bodies [.whileLoop position test body orelse] [.whileLoop position test' body' orelse']
  tryBlock : ∀ {position body body' caught caught' orelse orelse' final final'},
    bodies body body' → handlers caught caught' → bodies orelse orelse' → bodies final final' →
    bodies [.tryBlock position body caught orelse final]
      [.tryBlock position body' caught' orelse' final']
  handlersNil : handlers [] []
  handlersCons : ∀ {position body body' rest rest'}, bodies body body' → handlers rest rest' →
    handlers (.mk position none none body :: rest) (.mk position none none body' :: rest')

variable [Monad m] {judge : Judgement m} {shape : Shape} {pass : Pass m ε}
  {tests : ε → Expr → Expr → Prop} {bodies : ε → List Stmt → List Stmt → Prop}
  {handlers : ε → List Handler → List Handler → Prop}

/-- A pass that keeps a relation where there is no class. -/
structure Relates (judge : Judgement m) (shape : Shape) (pass : Pass m ε)
    (tests : ε → Expr → Expr → Prop) (bodies : ε → List Stmt → List Stmt → Prop)
    (handlers : ε → List Handler → List Handler → Prop) : Prop where
  congruence : ∀ env, Congruence (tests env) (bodies env) (handlers env)
  noClasses : shape.classes = false
  test : ∀ env test, test.isPlain = true → judge.Gives (tests env test) (pass.test env test)
  simple : ∀ env stmt, stmt.isSimple = true → stmt.isPlain shape = true →
    judge.Gives (bodies env [stmt]) (pass.simple env stmt)
  function : ∀ env next decorators position ident params result body,
    Stmt.isPlain shape (.function decorators position ident params result body) = true →
    (∀ inner, judge.Gives (bodies inner body) (pass.body inner body)) →
    judge.Gives (bodies env [.function decorators position ident params result body])
      (pass.stmt env next (.function decorators position ident params result body))

mutual

theorem stmt_relates (relates : Relates judge shape pass tests bodies handlers) :
    ∀ (env : ε) (next : Option Stmt) (stmt : Stmt), stmt.isPlain shape = true →
      judge.Gives (bodies env [stmt]) (pass.stmt env next stmt)
  | env, _, .conditional position test body elsePosition orelse, plain => by
    have parts : (test.isPlain = true ∧ Stmt.arePlain shape body = true) ∧
        Stmt.arePlain shape orelse = true := by
      simpa [Stmt.isPlain] using plain
    rw [Pass.stmt]
    refine judge.bind (relates.test env test parts.1.1) fun test' testGiven => ?_
    refine judge.bind (body_relates relates env body parts.1.2) fun body' bodyGiven => ?_
    refine judge.bind (body_relates relates env orelse parts.2) fun orelse' orelseGiven => ?_
    exact judge.pure ((relates.congruence env).conditional testGiven bodyGiven orelseGiven)
  | env, _, .whileLoop position test body orelse, plain => by
    have parts : (test.isPlain = true ∧ Stmt.arePlain shape body = true) ∧
        Stmt.arePlain shape orelse = true := by
      simpa [Stmt.isPlain] using plain
    rw [Pass.stmt]
    refine judge.bind (relates.test env test parts.1.1) fun test' testGiven => ?_
    refine judge.bind (body_relates relates env body parts.1.2) fun body' bodyGiven => ?_
    refine judge.bind (body_relates relates env orelse parts.2) fun orelse' orelseGiven => ?_
    exact judge.pure ((relates.congruence env).whileLoop testGiven bodyGiven orelseGiven)
  | env, _, .tryBlock position body caught orelse final, plain => by
    have parts : ((Stmt.arePlain shape body = true ∧ Stmt.areHandlersPlain shape caught = true) ∧
        Stmt.arePlain shape orelse = true) ∧ Stmt.arePlain shape final = true := by
      simpa [Stmt.isPlain] using plain
    rw [Pass.stmt]
    refine judge.bind (body_relates relates env body parts.1.1.1) fun body' bodyGiven => ?_
    refine judge.bind (handlers_relate relates env caught parts.1.1.2) fun caught' caughtGiven => ?_
    refine judge.bind (body_relates relates env orelse parts.1.2) fun orelse' orelseGiven => ?_
    refine judge.bind (body_relates relates env final parts.2) fun final' finalGiven => ?_
    exact judge.pure
      ((relates.congruence env).tryBlock bodyGiven caughtGiven orelseGiven finalGiven)
  | env, next, .function decorators position ident params result body, plain =>
    relates.function env next decorators position ident params result body plain
      fun inner => body_relates relates inner body (Stmt.body_of_isPlain plain)
  | _, _, .classDef .., plain => by
    simp [Stmt.isPlain, relates.noClasses] at plain
  | env, _, .expression value, plain => relates.simple env (.expression value) rfl plain
  | env, _, .assign targets value, plain => relates.simple env (.assign targets value) rfl plain
  | env, _, .delete position targets, plain =>
    relates.simple env (.delete position targets) rfl plain
  | env, _, .branch position kind, plain => relates.simple env (.branch position kind) rfl plain
  | env, _, .returns position result, plain =>
    relates.simple env (.returns position result) rfl plain
  | env, _, .raises position exception cause, plain =>
    relates.simple env (.raises position exception cause) rfl plain
  | env, _, .declare position declaration names, plain =>
    relates.simple env (.declare position declaration names) rfl plain
  | env, _, .importFrom position source level names closing, plain =>
    relates.simple env (.importFrom position source level names closing) rfl plain

/-- A pass that changes tests, statements without a body and functions as it should
does so to whole bodies. -/
theorem body_relates (relates : Relates judge shape pass tests bodies handlers) :
    ∀ (env : ε) (body : List Stmt), Stmt.arePlain shape body = true →
      judge.Gives (bodies env body) (pass.body env body)
  | env, [], _ => judge.pure (relates.congruence env).nil
  | env, first :: rest, plain => by
    have parts := Bool.and_eq_true_iff.mp plain
    rw [Pass.body]
    refine judge.bind (stmt_relates relates env rest.head? first parts.1) fun here given => ?_
    refine judge.bind (body_relates relates env rest parts.2) fun others restGiven => ?_
    exact judge.pure ((relates.congruence env).append given restGiven)

theorem handlers_relate (relates : Relates judge shape pass tests bodies handlers) :
    ∀ (env : ε) (caught : List Handler), Stmt.areHandlersPlain shape caught = true →
      judge.Gives (handlers env caught) (pass.handlers env caught)
  | env, [], _ => judge.pure (relates.congruence env).handlersNil
  | env, .mk position none none body :: rest, plain => by
    have parts : Stmt.arePlain shape body = true ∧ Stmt.areHandlersPlain shape rest = true := by
      simpa [Stmt.areHandlersPlain] using plain
    rw [Pass.handlers]
    refine judge.bind (@Judgement.pure _ _ judge _ (· = none) none rfl) ?_
    rintro _ rfl
    refine judge.bind (body_relates relates env body parts.1) fun body' bodyGiven => ?_
    refine judge.bind (handlers_relate relates env rest parts.2) fun rest' restGiven => ?_
    exact judge.pure ((relates.congruence env).handlersCons bodyGiven restGiven)

end

end Pass
end Unsugar
