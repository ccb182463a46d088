import Unsugar.Desugar
import Unsugar.Proofs.Definition.Closure
import Unsugar.Proofs.Explicit.Definition
import Unsugar.Proofs.Grammar.Statement
import Unsugar.Proofs.Hints
import Unsugar.Proofs.Lowering.Passes
import Unsugar.Proofs.Refusal.Hints
import Unsugar.Proofs.Refusal.Private
import Unsugar.Proofs.Scope.Order

/-! The output of the transformation. Whether names are held in cells or addressed by depth, no
declaration is left, and what stands for a name is a name or a call; reserved names stay as they
are. So the output is in explicit form, whatever the options are, as long as no decorated function
has a reserved name once private names are renamed. -/

namespace Unsugar

open Judgement (ofDesugar ofDesugar_lenient ofTraced ofTraced_lenient)
open Stmt (areExplicit)

variable {form : Form}

/-! ## Reserved names -/

/-- No function or class takes a reserved name from the globals. -/
theorem collect_reserved {kind : ScopeKind} (inside : kind ≠ .moduleScope) (params : List Param)
    (body : List Stmt) {name : String} (reserved : isReserved name = true) :
    (collect kind params body).binding? name ≠ some .global := by
  obtain ⟨mentionsOf, _, notes⟩ := Collector.exists_mentions kind
  have confines := Names.ofOutline_confines
    (.mk kind "" (Collector.paramNames params) (body.flatMap mentionsOf) [] []) inside reserved
  rw [collect_of_notes (notes body) "" params [] [], confines.binding]
  split <;> simp

/-- A body that takes no reserved name from the globals. -/
def ScopeInfo.IsConfined (info : ScopeInfo) : Prop :=
  info.kind ≠ .moduleScope → ∀ name, isReserved name = true → info.binding? name ≠ some .global

/-- A scope in which no body takes a reserved name from the globals. -/
inductive Scope.IsConfined : Scope → Prop
  | mk {info : ScopeInfo} {children : List Scope} :
    info.IsConfined → (∀ scope ∈ children, scope.IsConfined) → (Scope.mk info children).IsConfined

namespace Scope

variable {scope : Scope}

theorem IsConfined.info (confined : scope.IsConfined) : scope.info.IsConfined := by
  cases confined
  assumption

theorem IsConfined.children (confined : scope.IsConfined) :
    ∀ inner ∈ scope.children, inner.IsConfined := by
  cases confined
  assumption

theorem child_isConfined (outer : Enclosing) (kind : ScopeKind) (name : String)
    (params : List Param) (body : List Stmt) :
    (child outer kind name params body).IsConfined := by
  intro inside reservedName reserved
  have captured := Names.capture_binding? (collect kind params body) outer reservedName
  simp only [reserved, Bool.not_true, Bool.and_false, Bool.false_and, Bool.false_eq_true, if_false,
    Option.or_none] at captured
  change (Names.capture outer (collect kind params body)).binding? reservedName ≠ some .global
  rw [captured]
  exact collect_reserved inside params body reserved

mutual

theorem ofStmt_isConfined : ∀ (outer : Enclosing) (stmt : Stmt),
    ∀ scope ∈ ofStmt outer stmt, scope.IsConfined
  | outer, .function _ _ ident params _ body => by
    refine List.forall_mem_singleton.mpr (.mk (child_isConfined _ _ _ _ _) ?_)
    exact ofBody_isConfined _ body
  | outer, .classDef _ _ ident _ body => by
    refine List.forall_mem_singleton.mpr (.mk (child_isConfined _ _ _ _ _) ?_)
    exact ofBody_isConfined _ body
  | outer, .conditional _ _ body _ orelse | outer, .whileLoop _ _ body orelse
  | outer, .forLoop _ _ _ body orelse =>
    List.forall_mem_append.mpr ⟨ofBody_isConfined outer body, ofBody_isConfined outer orelse⟩
  | outer, .tryBlock _ body handlers orelse final => by
    simp only [ofStmt, List.forall_mem_append]
    exact ⟨⟨⟨ofBody_isConfined outer body, ofHandlers_isConfined outer handlers⟩,
      ofBody_isConfined outer orelse⟩, ofBody_isConfined outer final⟩
  | outer, .withBlock _ _ body => ofBody_isConfined outer body
  | _, .expression .. | _, .assign .. | _, .augAssign .. | _, .annAssign .. | _, .delete ..
  | _, .branch .. | _, .returns .. | _, .raises .. | _, .declare .. | _, .asserts ..
  | _, .imports .. | _, .importFrom .. => by simp [ofStmt]

theorem ofBody_isConfined : ∀ (outer : Enclosing) (body : List Stmt),
    ∀ scope ∈ ofBody outer body, scope.IsConfined
  | _, [] => by simp [ofBody]
  | outer, first :: rest =>
    List.forall_mem_append.mpr ⟨ofStmt_isConfined outer first, ofBody_isConfined outer rest⟩

theorem ofHandlers_isConfined : ∀ (outer : Enclosing) (handlers : List Handler),
    ∀ scope ∈ ofHandlers outer handlers, scope.IsConfined
  | _, [] => by simp [ofHandlers]
  | outer, .mk _ _ _ body :: rest =>
    List.forall_mem_append.mpr ⟨ofBody_isConfined outer body, ofHandlers_isConfined outer rest⟩

end

theorem ofModule_isConfined (body : List Stmt) : (ofModule body).IsConfined :=
  .mk (fun inside => absurd rfl inside) (ofBody_isConfined _ body)

end Scope

/-! ## Closures -/

/-- A body whose scope, and those after it, are confined. -/
structure Opened.IsConfined (opened : Opened) : Prop where
  scope : opened.scope.IsConfined
  later : ∀ scope ∈ opened.later, scope.IsConfined

namespace Closure

variable {place : Place}

/-- What a computation gives that goes through confined scopes. -/
abbrev ofConfined : Judgement (Descent Desugar) :=
  ofDesugar.keeping (∀ scope ∈ ·, Scope.IsConfined scope)

theorem enter_isConfined {around : Opened} (confined : around.IsConfined) :
    ofConfined.Gives Opened.IsConfined (Descent.enter around) := by
  intro scopes each
  cases scopes with
  | nil => exact ofDesugar.pure ⟨⟨confined.scope, by simp⟩, each⟩
  | cons scope later =>
    obtain ⟨here, others⟩ := List.forall_mem_cons.mp each
    exact ofDesugar.pure ⟨⟨here, others⟩, here.children⟩

theorem leave_isConfined {opened : Opened} (confined : opened.IsConfined) :
    ofConfined.Gives (fun _ => True) (Descent.leave opened) :=
  fun _ _ => ofDesugar.pure ⟨trivial, confined.later⟩

theorem storage_of_isReserved (confined : place.opened.IsConfined) {name : String}
    (reserved : isReserved name = true) : place.storage name = .plain := by
  unfold Place.storage
  dsimp only
  split
  · rfl
  · rename_i inside
    exact if_neg (confined.scope.info inside name reserved)

theorem load_standsFor (confined : place.opened.IsConfined) (position : Position) (id : String) :
    (Expr.name position id).StandsFor form (place.load position id) := by
  refine ⟨?_, ?_, fun reserved => ?_⟩
  · unfold Place.load
    split <;> simp [Expr.isLowered, Expr.globals]
  · unfold Place.load
    split <;> exact fun starred => starred
  · rw [Place.load, storage_of_isReserved confined reserved]
    exact reserved

theorem cellArguments_standFor {callee argument after : Expr} {arguments : List Expr} {slot : Nat}
    (reply : (place.cellArguments callee arguments)[slot]? = some (some after)) :
    argument.StandsFor form after := by
  unfold Place.cellArguments at reply
  split at reply
  · dsimp only at reply
    split at reply
    · match slot, reply with
      | 2, reply =>
        cases reply
        exact ⟨rfl, fun starred => (by cases starred), fun _ => isReserved_cellName _⟩
    · cases reply
  · cases reply

theorem visitor_settles (confined : place.opened.IsConfined) :
    place.visitor.Settles ofConfined form where
  expr expr lowered := by
    match expr with
    | .name position id =>
      refine ofConfined.pure ?_
      rintro _ ⟨⟩
      exact load_standsFor confined position id
    | .call callee [] closing =>
      change ofConfined.Gives _ (pure (if place.asksForLocals callee then _ else _))
      split
      · refine ofConfined.pure ?_
        rintro _ ⟨⟩
        exact .of_lowered (by simp) rfl rfl
      · exact Expr.pass_settles
    | .call _ (_ :: _) _ | .literal .. | .keyword .. | .starred .. | .member .. | .list ..
    | .tuple .. | .set .. | .dict .. | .entry .. | .yield .. => exact Expr.pass_settles
  target target := by
    cases target with
    | name position id =>
      change ofConfined.Gives _ (if place.storage id = .plain then _ else _)
      split
      · refine ofConfined.pure ?_
        rintro _ ⟨⟩
        exact ⟨_, _, _, _, rfl, rfl⟩
      · exact fun _ _ _ _ => trivial
    | _ =>
      refine ofConfined.pure ?_
      rintro _ ⟨⟩
  arguments _ _ _ _ _ _ reply := cellArguments_standFor reply

theorem ofStmt_explicit (confined : place.opened.IsConfined) {stmt : Stmt}
    (simple : stmt.isSimple = true) (explicit : stmt.isExplicit form .expanded = true) :
    ofConfined.Gives (areExplicit form .final · = true) (ofStmt place stmt) := by
  have settles := @visitor_settles form place confined
  have revised (silent : ∀ position declaration idents,
      stmt ≠ .declare position declaration idents) :
      ofConfined.Gives (areExplicit form .final · = true)
        (do return [← stmt.reviseSimple place.visitor]) := by
    have final : stmt.isExplicit form .final = true :=
      Stmt.isExplicit_of_isSimple simple explicit fun _ _ _ declares =>
        absurd declares (silent _ _ _)
    exact ofConfined.bind (Stmt.reviseSimple_settles settles stmt simple final) fun _ given =>
      ofConfined.pure ((Stmt.areExplicit_singleton _).trans given)
  cases stmt with
  | declare => exact ofConfined.pure rfl
  | assign targets value =>
    obtain ⟨target, rfl, assigned, lowered⟩ := Stmt.assign_of_isExplicit explicit
    cases target with
    | name position id =>
      refine ofConfined.bind (Expr.revise_settles settles value lowered) fun value' stands => ?_
      split <;> exact ofConfined.pure (by
        simp [Stmt.isExplicit, Stmt.isAssigned, Expr.globals, stands.lowered])
    | member => exact revised (by simp)
    | _ => cases assigned
  | delete position targets =>
    obtain ⟨target, rfl, deleted⟩ := Stmt.delete_of_isExplicit explicit
    cases target with
    | name start id =>
      simp only [ofStmt]
      split
      · exact ofConfined.pure (by simp [Expr.globals])
      · refine ofConfined.pure ?_
        exact (Stmt.areExplicit_singleton _).trans (isReserved_cellName id)
      · exact ofConfined.pure rfl
    | member => exact revised (by simp)
    | _ => cases deleted
  | _ => exact revised (by simp)

theorem makeCells_explicit {stage : Stage} (place : Place) :
    areExplicit form stage (makeCells place) = true := by
  refine Stmt.areExplicit_iff.mpr (List.forall_mem_map.mpr fun name _ => ?_)
  split <;> simp

/-- The pass over names leaves no declaration. -/
theorem pass_settles :
    pass.Settles ofConfined form .expanded .final (·.opened.IsConfined) where
  test place confined test lowered := fun scopes each =>
    ofDesugar_lenient.imp (Expr.revise_settles (visitor_settles confined) test lowered scopes each)
      fun _ given => ⟨given.1.lowered, given.2⟩
  simple _ confined stmt simple explicit := ofStmt_explicit confined simple explicit
  function place confined next decorators position ident params result body explicit below := by
    obtain ⟨kept, decoratorsLowered, paramsExplicit, unhinted, _⟩ :=
      Stmt.isExplicit_function.mp explicit
    have settles := @visitor_settles form place confined
    have entered : ofConfined.Gives (fun entered => ∃ decorators' params' opened,
        entered = (⟨decorators', position, ident, params', result⟩, some (.ofOpened opened)) ∧
        (Expr.areLowered form decorators' = true ∧ (decorators = [] → decorators' = [])) ∧
        params'.all (·.isExplicit form) = true ∧ opened.IsConfined)
        (pass.enterFunction place ⟨decorators, position, ident, params, result⟩ body) := by
      refine ofConfined.bind (Expr.reviseList_gives_lowered settles decoratorsLowered)
        fun decorators' revised => ?_
      refine ofConfined.bind (Expr.reviseParams_settles settles params paramsExplicit)
        fun params' explicit' => ?_
      refine ofConfined.bind (enter_isConfined confined) fun opened inside => ofConfined.pure ?_
      exact ⟨_, _, _, rfl, revised, explicit', inside⟩
    rw [Pass.stmt]
    refine ofConfined.bind entered ?_
    rintro _ ⟨decorators', params', opened, rfl, revised, paramsExplicit', inside⟩
    refine ofConfined.bind (below (.ofOpened opened) inside) fun after afterExplicit => ?_
    refine ofConfined.bind (leave_isConfined inside) fun _ _ => ofConfined.pure ?_
    have bare : decorators' = [] := revised.2 (kept.resolve_right fun decorated => by
      cases decorated.1)
    exact (Stmt.areExplicit_singleton _).trans (Stmt.isExplicit_function.mpr
      ⟨.inl bare, revised.1, paramsExplicit', unhinted, Stmt.areExplicit_orPass
        (Stmt.areExplicit_insertAt _ (makeCells_explicit _) afterExplicit)⟩)
  classDef _ _ _ _ _ _ _ _ explicit _ := by
    cases (Stmt.isExplicit_classDef.mp explicit).1

end Closure

theorem resolveClosures_explicit {scope : Scope} (confined : scope.IsConfined)
    {body : List Stmt} (explicit : areExplicit form .expanded body = true) :
    ofDesugar.Gives (areExplicit form .final · = true) (resolveClosures scope body) := by
  have opened : (Opened.ofModule scope).IsConfined := ⟨confined, by simp [Opened.ofModule]⟩
  refine ofDesugar.bind (Pass.body_settles Closure.pass_settles (.ofOpened (.ofModule scope))
    opened body explicit scope.children confined.children) fun _ given => ?_
  exact ofDesugar.pure given.1

/-! ## Names addressed by depth -/

namespace Address

theorem address_standsFor (place : Place) (position : Position) (id : String) :
    (Expr.name position id).StandsFor form (.name position (place.address id)) := by
  refine ⟨rfl, fun starred => starred, fun reserved => ?_⟩
  have reserved : isReserved id = true := reserved
  have exempt : place.isExempt id = true := by simp [Place.isExempt, reserved]
  simp [Place.address, exempt, Expr.isReservedPath, reserved]

theorem visitor_settles (place : Place) : place.visitor.Settles .ofId form where
  expr expr lowered := by
    match expr with
    | .name position id =>
      rintro _ ⟨⟩
      exact address_standsFor place position id
    | .call .. | .literal .. | .keyword .. | .starred .. | .member .. | .list .. | .tuple ..
    | .set .. | .dict .. | .entry .. | .yield .. => exact Expr.pass_settles
  target target := by
    cases target with
    | name position id =>
      rintro _ ⟨⟩
      exact ⟨_, _, _, _, rfl, rfl⟩
    | _ =>
      intro _ reply
      cases reply
  arguments _ _ _ _ _ _ reply := by cases reply

theorem simple_explicit (place : Place) {stmt : Stmt} (simple : stmt.isSimple = true)
    (explicit : stmt.isExplicit form .expanded = true) :
    areExplicit form .final (pass.simple place stmt) = true := by
  have revised (silent : ∀ position declaration idents,
      stmt ≠ .declare position declaration idents) :
      areExplicit form .final [Id.run (stmt.reviseSimple place.visitor)] = true := by
    have final : stmt.isExplicit form .final = true :=
      Stmt.isExplicit_of_isSimple simple explicit fun _ _ _ declares =>
        absurd declares (silent _ _ _)
    exact (Stmt.areExplicit_singleton _).trans
      (@Stmt.reviseSimple_settles _ _ .ofId _ _ _ (visitor_settles place) stmt simple final)
  cases stmt with
  | declare => rfl
  | _ => exact revised (by simp)

theorem params_explicit (place : Place) {params : List Param}
    (explicit : params.all (·.isExplicit form) = true) :
    (params.map place.addressDefault).all (·.isExplicit form) = true := by
  rw [List.all_map, List.all_eq_true]
  intro param member
  have parts := Bool.and_eq_true_iff.mp (List.all_eq_true.mp explicit param member)
  obtain ⟨kind, position, ident, hint, default⟩ := param
  exact Bool.and_eq_true_iff.mpr ⟨parts.1,
    @Expr.reviseOption_settles _ _ .ofId _ _ (visitor_settles place) default parts.2⟩

theorem pass_settles : pass.Settles .ofId form .expanded .final (fun _ => True) where
  test place _ test lowered :=
    (@Expr.revise_settles _ _ .ofId _ _ (visitor_settles place) test lowered).lowered
  simple place _ _ simple explicit := simple_explicit place simple explicit
  function place _ next decorators position ident params result body explicit below := by
    obtain ⟨kept, decoratorsLowered, paramsExplicit, unhinted, _⟩ :=
      Stmt.isExplicit_function.mp explicit
    have revised := @Expr.reviseList_gives_lowered _ _ .ofId _ _ (visitor_settles place) _
      decoratorsLowered
    have bare := revised.2 (kept.resolve_right fun decorated => by cases decorated.1)
    have inside := below (place.inside ⟨Id.run (Expr.reviseList place.visitor decorators),
      position, ⟨ident.position, place.address ident.name⟩, params.map place.addressDefault,
      result⟩ body) trivial
    exact (Stmt.areExplicit_singleton _).trans (Stmt.isExplicit_function.mpr
      ⟨.inl bare, revised.1, params_explicit place paramsExplicit, unhinted, inside⟩)
  classDef _ _ _ _ _ _ _ _ explicit _ := by
    cases (Stmt.isExplicit_classDef.mp explicit).1

end Address

theorem addressNames_explicit {body : List Stmt}
    (explicit : areExplicit form .expanded body = true) :
    areExplicit form .final (addressNames body) = true :=
  Pass.body_settles Address.pass_settles _ trivial body explicit

/-! ## Decorated functions -/

namespace Stmt

mutual

/-- The names of the decorated functions in a statement. -/
def decorated : Stmt → List String
  | conditional _ _ body _ orelse | whileLoop _ _ body orelse | forLoop _ _ _ body orelse =>
    decoratedInBody body ++ decoratedInBody orelse
  | tryBlock _ body handlers orelse final =>
    decoratedInBody body ++ decoratedInHandlers handlers ++ decoratedInBody orelse ++
      decoratedInBody final
  | withBlock _ _ body => decoratedInBody body
  | function decorators _ ident _ _ body =>
    (if decorators.isEmpty then [] else [ident.name]) ++ decoratedInBody body
  | classDef _ _ _ _ body => decoratedInBody body
  | _ => []

def decoratedInBody : List Stmt → List String
  | [] => []
  | first :: rest => decorated first ++ decoratedInBody rest

def decoratedInHandlers : List Handler → List String
  | [] => []
  | .mk _ _ _ body :: rest => decoratedInBody body ++ decoratedInHandlers rest

end

mutual

theorem isOrderly_of_isWellFormed : ∀ stmt : Stmt, stmt.isWellFormed = true →
    (∀ name ∈ decorated stmt, isReserved name = false) → stmt.isOrderly = true
  | .conditional _ _ body _ orelse, valid, clear | .whileLoop _ _ body orelse, valid, clear
  | .forLoop _ _ _ body orelse, valid, clear => by
    simp only [isWellFormed, Bool.and_eq_true] at valid
    obtain ⟨first, second⟩ := List.forall_mem_append.mp clear
    exact Bool.and_eq_true_iff.mpr ⟨areOrderly_of_areWellFormed body valid.1.2 first,
      areOrderly_of_areWellFormed orelse valid.2 second⟩
  | .tryBlock _ body handlers orelse final, valid, clear => by
    simp only [isWellFormed, Bool.and_eq_true] at valid
    simp only [decorated, List.forall_mem_append] at clear
    simp [isOrderly, valid.1.1.1.1, areOrderly_of_areWellFormed body valid.1.1.1.2 clear.1.1.1,
      areHandlersOrderly_of_areWellFormed handlers valid.1.1.2 clear.1.1.2,
      areOrderly_of_areWellFormed orelse valid.1.2 clear.1.2,
      areOrderly_of_areWellFormed final valid.2 clear.2]
  | .withBlock _ _ body, valid, clear =>
    areOrderly_of_areWellFormed body (Bool.and_eq_true_iff.mp valid).2 clear
  | .function decorators _ ident _ _ body, valid, clear => by
    obtain ⟨here, inner⟩ := List.forall_mem_append.mp clear
    have bodyOrderly := areOrderly_of_areWellFormed body (Bool.and_eq_true_iff.mp valid).2 inner
    refine Bool.and_eq_true_iff.mpr ⟨?_, bodyOrderly⟩
    cases decorators with
    | nil => rfl
    | cons => simpa using here
  | .classDef _ _ _ _ body, valid, clear =>
    areOrderly_of_areWellFormed body (Bool.and_eq_true_iff.mp valid).2 clear
  | .expression .., _, _ | .assign .., _, _ | .augAssign .., _, _ | .annAssign .., _, _
  | .delete .., _, _ | .branch .., _, _ | .returns .., _, _ | .raises .., _, _
  | .declare .., _, _ | .asserts .., _, _ | .imports .., _, _ | .importFrom .., _, _ => rfl

theorem areOrderly_of_areWellFormed : ∀ body : List Stmt, areWellFormed body = true →
    (∀ name ∈ decoratedInBody body, isReserved name = false) → areOrderly body = true
  | [], _, _ => rfl
  | first :: rest, valid, clear => by
    have parts := Bool.and_eq_true_iff.mp valid
    obtain ⟨here, later⟩ := List.forall_mem_append.mp clear
    exact Bool.and_eq_true_iff.mpr ⟨isOrderly_of_isWellFormed first parts.1 here,
      areOrderly_of_areWellFormed rest parts.2 later⟩

theorem areHandlersOrderly_of_areWellFormed : ∀ handlers : List Handler,
    areHandlersWellFormed handlers = true →
    (∀ name ∈ decoratedInHandlers handlers, isReserved name = false) →
    areHandlersOrderly handlers = true
  | [], _, _ => rfl
  | .mk _ _ _ body :: rest, valid, clear => by
    simp only [areHandlersWellFormed, Bool.and_eq_true] at valid
    obtain ⟨here, later⟩ := List.forall_mem_append.mp clear
    exact Bool.and_eq_true_iff.mpr ⟨areOrderly_of_areWellFormed body valid.1.2 here,
      areHandlersOrderly_of_areWellFormed rest valid.2 later⟩

end

end Stmt

/-! ## Lowering -/

theorem lowerModule_explicit (options : Options) {source : List Stmt}
    (fits : Stmt.hintsFitBody ⟨options, false⟩ source = true)
    (orderly : Stmt.areOrderly source = true) :
    ofDesugar.Gives (areExplicit ⟨options, false⟩ .lowered · = true)
      (Lowering.lowerModule options source) := by
  intro context steps
  have loweredOrderly := Lowering.lowerModule_orderly options orderly context steps
  simp only [StateT.run]
  revert loweredOrderly
  rcases run : Lowering.lowerModule options source context steps with
    ⟨failure | ⟨lowered, after⟩, later⟩ <;> intro loweredOrderly
  · trivial
  · exact Stmt.areExplicit_of_areLowered rfl lowered
      (Lowering.areLowered_of_lowerUntilDone _ fits run) loweredOrderly.1

/-! ## The last changes -/

namespace Finish

variable {stage : Stage}

theorem areExplicit_refill {body kept : List Stmt}
    (explicit : areExplicit form stage kept = true) :
    areExplicit form stage (refill body kept) = true := by
  unfold refill
  split
  · rfl
  · exact Stmt.areExplicit_orPass explicit

mutual

theorem isExplicit_stripStmt : ∀ stmt : Stmt, stmt.isExplicit form stage = true →
    (stripStmt stmt).isExplicit form stage = true
  | .conditional _ _ body _ orelse, explicit | .whileLoop _ _ body orelse, explicit => by
    simp only [Stmt.isExplicit, Bool.and_eq_true] at explicit
    simp [stripStmt, Stmt.isExplicit, explicit,
      areExplicit_refill (areExplicit_strip body explicit.1.2),
      areExplicit_refill (areExplicit_strip orelse explicit.2)]
  | .tryBlock _ body handlers orelse final, explicit => by
    simp only [Stmt.isExplicit, Bool.and_eq_true, decide_eq_true_eq] at explicit
    have caught := areHandlersExplicit_strip handlers explicit.1.1.2
    simp [stripStmt, Stmt.isExplicit, caught, explicit.1.1.1.1,
      areExplicit_refill (areExplicit_strip body explicit.1.1.1.2),
      areExplicit_refill (areExplicit_strip orelse explicit.1.2),
      areExplicit_refill (areExplicit_strip final explicit.2)]
  | .function _ _ _ _ _ body, explicit => by
    obtain ⟨kept, decorators, params, unhinted, bodyExplicit⟩ :=
      Stmt.isExplicit_function.mp explicit
    exact Stmt.isExplicit_function.mpr ⟨kept, decorators, params, unhinted,
      areExplicit_refill (areExplicit_strip body bodyExplicit)⟩
  | .classDef _ _ _ _ body, explicit => by
    obtain ⟨kept, decorators, bases, bodyExplicit⟩ := Stmt.isExplicit_classDef.mp explicit
    exact Stmt.isExplicit_classDef.mpr ⟨kept, decorators, bases,
      areExplicit_refill (areExplicit_strip body bodyExplicit)⟩
  | .expression .., explicit | .assign .., explicit | .delete .., explicit
  | .branch .., explicit | .returns .., explicit | .raises .., explicit
  | .declare .., explicit | .importFrom .., explicit => explicit

theorem areExplicit_strip : ∀ body : List Stmt, areExplicit form stage body = true →
    areExplicit form stage (strip body) = true
  | [], _ => rfl
  | first :: rest, explicit => by
    have parts := Bool.and_eq_true_iff.mp explicit
    rw [strip]
    split
    · exact areExplicit_strip rest parts.2
    · exact Bool.and_eq_true_iff.mpr
        ⟨isExplicit_stripStmt first parts.1, areExplicit_strip rest parts.2⟩

theorem areHandlersExplicit_strip : ∀ handlers : List Handler,
    Stmt.areHandlersExplicit form stage handlers = true →
    Stmt.areHandlersExplicit form stage (stripHandlers handlers) = true ∧
      (stripHandlers handlers).length = handlers.length
  | [], _ => ⟨rfl, rfl⟩
  | .mk _ _ _ body :: rest, explicit => by
    simp only [Stmt.areHandlersExplicit, Bool.and_eq_true] at explicit
    have others := areHandlersExplicit_strip rest explicit.2
    refine ⟨?_, congrArg (· + 1) others.2⟩
    simp [stripHandlers, Stmt.areHandlersExplicit, explicit.1.1, others.1,
      areExplicit_refill (areExplicit_strip body explicit.1.2)]

end

theorem truthPass_settles : truthPass.Settles .ofId form stage stage (fun _ => True) where
  test _ _ test lowered := by
    change (truth test).isLowered form = true
    unfold truth
    split
    · exact lowered
    · split
      · exact lowered
      · simpa using lowered
  simple _ _ stmt _ explicit := (Stmt.areExplicit_singleton stmt).trans explicit
  function _ _ next decorators position ident params result body explicit below := by
    obtain ⟨kept, decoratorsLowered, paramsExplicit, unhinted, _⟩ :=
      Stmt.isExplicit_function.mp explicit
    exact (Stmt.areExplicit_singleton _).trans (Stmt.isExplicit_function.mpr
      ⟨kept, decoratorsLowered, paramsExplicit, unhinted, below () trivial⟩)
  classDef _ _ next decorators position ident bases body explicit below := by
    obtain ⟨kept, decoratorsLowered, basesLowered, _⟩ := Stmt.isExplicit_classDef.mp explicit
    exact (Stmt.areExplicit_singleton _).trans (Stmt.isExplicit_classDef.mpr
      ⟨kept, decoratorsLowered, basesLowered, below () trivial⟩)

end Finish

theorem cleanUpGlobals_explicit {stage : Stage} {body : List Stmt}
    (explicit : areExplicit form stage body = true) :
    areExplicit form stage (cleanUpGlobals body) = true := by
  unfold cleanUpGlobals
  split
  · exact explicit
  · simp [explicit, Expr.globals]

theorem bindSupport_explicit {stage : Stage} {body : List Stmt}
    (explicit : areExplicit form stage body = true) :
    areExplicit form stage (bindSupport body) = true := by
  unfold bindSupport
  split
  · exact explicit
  · exact Stmt.areExplicit_insertAt _ rfl explicit

theorem finish_explicit (options : Options) {stage : Stage} {body : List Stmt}
    (explicit : areExplicit form stage body = true) :
    areExplicit form stage (Desugar.finish options body) = true := by
  have optional : ∀ (choice : Bool) {before after : List Stmt},
      areExplicit form stage before = true → areExplicit form stage after = true →
      areExplicit form stage (if choice then after else before) = true := by
    intro choice before after beforeExplicit afterExplicit
    cases choice
    · exact beforeExplicit
    · exact afterExplicit
  have stripped : areExplicit form stage (stripPasses body) = true :=
    Finish.areExplicit_strip body explicit
  have tested := optional options.truthy stripped
    (Pass.body_settles Finish.truthPass_settles () trivial _ stripped)
  have cleaned := optional options.cleanupGlobals tested (cleanUpGlobals_explicit tested)
  exact optional options.injectImport cleaned (bindSupport_explicit cleaned)

/-! ## Modules -/

namespace Desugar

theorem scopes_confined (body : List Stmt) :
    ofDesugar.Gives Scope.IsConfined (scopes body) := by
  unfold scopes
  dsimp only
  split
  · exact ofDesugar.pure (Scope.ofModule_isConfined body)
  · exact fun _ _ => trivial

theorem resolveNames_explicit (options : Options) {body : List Stmt}
    (explicit : areExplicit form .expanded body = true) :
    ofDesugar.Gives (areExplicit form .final · = true) (resolveNames options body) := by
  unfold resolveNames
  split
  · refine ofDesugar_lenient.skip _ fun _ => ofDesugar_lenient.skip _ fun _ => ?_
    exact ofDesugar.pure (addressNames_explicit explicit)
  · refine ofDesugar_lenient.skip _ fun _ => ?_
    exact ofDesugar.bind (scopes_confined body) fun _ confined =>
      resolveClosures_explicit confined explicit

theorem module_explicit (options : Options) (file : String) {body : List Stmt}
    (orderly : Stmt.areOrderly (manglePrivate (takeHints body).2) = true) :
    ofDesugar.Gives (areExplicit ⟨options, false⟩ .final · = true)
      (Desugar.module options file body) := by
  unfold Desugar.module
  refine ofDesugar_lenient.skip _ fun _ => ofDesugar_lenient.skip _ fun _ => ?_
  refine ofDesugar_lenient.skip _ fun _ => ?_
  refine ofDesugar.bind (lowerModule_explicit options (manglePrivate_takeHints_fits body) orderly)
    fun lowered loweredExplicit => ?_
  refine ofDesugar_lenient.skip _ fun _ => ofDesugar_lenient.skip _ fun scope => ?_
  refine ofDesugar.bind (renameFunctions_explicit scope loweredExplicit) fun _ renamed => ?_
  refine ofDesugar.bind (expandClasses_explicit scope renamed) fun _ expanded => ?_
  refine ofDesugar.bind (resolveNames_explicit options expanded) fun _ resolved => ?_
  exact ofDesugar.pure (finish_explicit options resolved)

end Desugar

theorem Result.make_explicit {options : Options} {file : String} {source : List UInt8}
    {check : List Stmt → Traced Unit} {body : List Stmt} (enabled : isDisabled source = false)
    (orderly : Stmt.areOrderly (manglePrivate (takeHints body).2) = true) :
    ofTraced.Gives (fun result => areExplicit ⟨options, false⟩ .final result.body = true)
      (Result.make options file source check body) := by
  simp only [Result.make, enabled, Bool.false_eq_true, if_false]
  split
  · exact fun _ => trivial
  · refine ofTraced.bind (Desugar.module_explicit options file orderly _) ?_
    rintro ⟨transformed, context⟩ explicit
    exact ofTraced_lenient.skip _ fun _ => ofTraced_lenient.skip _ fun _ =>
      ofTraced.pure explicit

/-- The output is in explicit form: where a source is transformed, no operator, subscript,
conditional, lambda, comprehension or formatted string is left, nothing is starred in a display,
no function has a decorator or a hint, and no statement but the plainest. A function whose name
is reserved keeps its decorators, so once private names are renamed no decorated one may be. -/
theorem desugar_reaches_explicit_form {options : Options} {file : String} {source : List UInt8}
    {steps later : List Step} {result : Result} {body : List Stmt}
    (transformed : desugar options file source steps = (.ok result, later))
    (enabled : isDisabled source = false)
    (read : parseModule file (Text.decode source) = .ok body)
    (clear : ∀ name ∈ Stmt.decoratedInBody (manglePrivate (takeHints body).2),
      isReserved name = false) :
    areExplicit ⟨options, false⟩ .final result.body = true := by
  have valid : Stmt.areWellFormed (manglePrivate (takeHints body).2) = true :=
    (areWellFormed_manglePrivate _).trans (takeHints_taken (parseModule_wellFormed read) options).1
  have orderly := Stmt.areOrderly_of_areWellFormed _ valid clear
  have explicit : ofTraced.Gives
      (fun result => areExplicit ⟨options, false⟩ .final result.body = true)
      (desugar options file source) := by
    rw [desugar, read]
    exact Result.make_explicit enabled orderly
  have ended := explicit steps
  rw [transformed] at ended
  exact ended

/-- A class whose decorated method has a reserved name once private names are renamed. -/
def reservedMethod : List Stmt :=
  [.classDef [] .unknown ⟨.unknown, "dp"⟩ []
    [.function [.ofName "d"] .unknown ⟨.unknown, "__m"⟩ [] none [.pass]]]

/-- Its decorator stays. -/
theorem reservedMethod_not_explicit :
    (Desugar.module .standard "m.py" reservedMethod (.ofModule reservedMethod) []).1.toOption.any
      (fun made => !areExplicit ⟨.standard, false⟩ .final made.1) = true := by
  decide +kernel

end Unsugar
