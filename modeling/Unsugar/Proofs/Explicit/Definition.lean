import Unsugar.Definition.Class
import Unsugar.Proofs.Docstring.Module
import Unsugar.Proofs.Explicit.Form

/-! Definitions made explicit. The pass over functions leaves no decorator, the pass over
classes no class, and what they put in their places is explicit. -/

namespace Unsugar
namespace Definition

open Judgement (ofDesugar ofDesugar_lenient)
open Stmt (areExplicit)

variable {form : Form} {stage : Stage}

/-! ## Decorators -/

/-- Saved decorators are explicit, and so is what is left of them. -/
theorem saveDecorators_explicit (stage : Stage) {decorators : List Expr}
    (lowered : Expr.areLowered form decorators = true) :
    ofDesugar.Gives (fun saved => areExplicit form stage saved.1 = true ∧
      Expr.areLowered form saved.2 = true) (saveDecorators decorators) := by
  induction decorators with
  | nil => exact ofDesugar.pure ⟨rfl, rfl⟩
  | cons first rest induction =>
    have parts := Bool.and_eq_true_iff.mp lowered
    unfold saveDecorators
    split
    · refine ofDesugar.bind (induction parts.2) fun saved given => ?_
      exact ofDesugar.pure ⟨given.1, by simp [parts.1, given.2]⟩
    · refine ofDesugar_lenient.skip _ fun name => ?_
      refine ofDesugar.bind (induction parts.2) fun saved given => ?_
      exact ofDesugar.pure ⟨by simp [parts.1, given.1], by simp [given.2]⟩

theorem isLowered_decorate {decorators : List Expr} {value : Expr}
    (lowered : Expr.areLowered form decorators = true)
    (valueLowered : value.isLowered form = true) :
    (decorate decorators value).isLowered form = true := by
  induction decorators with
  | nil => exact valueLowered
  | cons first rest induction =>
    have parts := Bool.and_eq_true_iff.mp lowered
    simpa [decorate, parts.1] using induction parts.2

/-! ## Functions -/

theorem isLowered_updated (generated qualname name : String) :
    (updated generated qualname name).isLowered form = true := by
  simp [updated]

/-- A definition is entered as it is, and its body always is. -/
theorem enter_gives {α : Type} (around : Opened) (head : α) :
    ofDescent.Gives (fun entered => ∃ inner, entered = (head, some inner))
      (do return (head, some (← Descent.enter around))) :=
  ofDescent_lenient.skip _ fun opened => ofDescent.pure ⟨opened, rfl⟩

theorem generatedFunction_explicit {head : FunctionHead} {body : List Stmt} {qualname : String}
    {next : Option Stmt} (explicit : (head.withBody body).isExplicit form stage = true) :
    ofDesugar.Gives (areExplicit form stage · = true)
      (generatedFunction head body qualname next) := by
  unfold generatedFunction
  dsimp only
  split
  · exact ofDesugar.pure (by simpa using explicit)
  · exact ofDesugar_lenient.skip _ fun _ => ofDesugar.pure (by simp [explicit, isLowered_updated])

theorem sourceFunction_explicit {head : FunctionHead} {body : List Stmt} {qualname : String}
    (decorators : Expr.areLowered form head.decorators = true)
    (params : head.params.all (·.isExplicit form) = true) (result : head.result = none)
    (bodyExplicit : areExplicit form stage body = true) :
    ofDesugar.Gives (areExplicit form stage · = true) (sourceFunction head body qualname) := by
  unfold sourceFunction
  refine ofDesugar_lenient.skip _ fun generated => ofDesugar_lenient.skip _ fun _ => ?_
  refine ofDesugar.bind (saveDecorators_explicit stage decorators)
    fun saved given => ?_
  refine ofDesugar_lenient.skip _ fun _ => ofDesugar.pure ?_
  have bare : Stmt.isExplicit form stage (.function [] head.position
      ⟨head.ident.position, generated⟩ head.params head.result body) = true :=
    Stmt.isExplicit_function.mpr ⟨.inl rfl, rfl, params, result, bodyExplicit⟩
  have stored := isLowered_decorate given.2
    (isLowered_updated generated qualname head.ident.name)
  simp [FunctionHead.withBody, given.1, bare, stored]

/-- The pass over functions leaves no decorator. -/
theorem functionPass_settles :
    functionPass.Settles ofDescent form .lowered .named (fun _ => True) where
  test _ _ _ lowered := ofDescent.pure lowered
  simple _ _ stmt simple explicit :=
    ofDescent.pure ((Stmt.areExplicit_singleton stmt).trans
      (Stmt.isExplicit_of_isSimple simple explicit fun _ _ _ _ => rfl))
  function around _ next decorators position ident params result body explicit below := by
    obtain ⟨kept, decoratorsLowered, paramsExplicit, unhinted, _⟩ :=
      Stmt.isExplicit_function.mp explicit
    rw [Pass.stmt]
    refine ofDescent.bind (enter_gives around _) ?_
    rintro _ ⟨opened, rfl⟩
    refine ofDescent.bind (below opened trivial) fun after bodyExplicit => ?_
    refine ofDescent_lenient.skip _ fun _ => ?_
    split
    · rename_i reserved
      refine Judgement.lift (generatedFunction_explicit (Stmt.isExplicit_function.mpr ?_))
      refine ⟨.inl (kept.resolve_right fun user => ?_), decoratorsLowered, paramsExplicit,
        unhinted, bodyExplicit⟩
      simp [user.2] at reserved
    · exact Judgement.lift
        (sourceFunction_explicit decoratorsLowered paramsExplicit unhinted bodyExplicit)
  classDef around _ next decorators position ident bases body explicit below := by
    obtain ⟨_, decoratorsLowered, basesLowered, _⟩ := Stmt.isExplicit_classDef.mp explicit
    rw [Pass.stmt]
    refine ofDescent.bind (enter_gives around _) ?_
    rintro _ ⟨opened, rfl⟩
    refine ofDescent.bind (below opened trivial) fun after bodyExplicit => ?_
    refine ofDescent_lenient.skip _ fun _ => ofDescent.pure ?_
    have kept : Stmt.isExplicit form .named (.classDef decorators position ident bases after) =
        true := Stmt.isExplicit_classDef.mpr ⟨rfl, decoratorsLowered, basesLowered, bodyExplicit⟩
    simpa [ClassHead.withBody] using kept

/-! ## Methods -/

theorem superVisitor_settles (self : Option String) :
    (superVisitor self).Settles (.ofState Bool) form where
  expr expr lowered := by
    match expr with
    | .name position id =>
      change (Judgement.ofState Bool).Gives _ (if id == "__class__" then _ else _)
      split
      · rename_i isClass
        rintro _ _ ⟨⟩
        have isClass : id = "__class__" := by simpa using isClass
        exact .of_lowered (Expr.isLowered_of_isReservedPath rfl) rfl (by rw [isClass]; rfl)
      · exact Expr.pass_settles
    | .call callee [] closing =>
      change (Judgement.ofState Bool).Gives _ (if callee.isName "super" then _ else _)
      split
      · cases self <;>
        · rintro _ _ ⟨⟩
          exact .of_lowered (by simp) rfl rfl
      · exact Expr.pass_settles
    | .call _ (_ :: _) _ | .literal .. | .keyword .. | .starred .. | .member .. | .list ..
    | .tuple .. | .set .. | .dict .. | .entry .. | .yield .. => exact Expr.pass_settles
  target _ _ _ reply := by cases reply
  arguments _ _ _ _ _ _ reply := by cases reply

theorem superPass_simple {self : Option String} {stmt : Stmt} (simple : stmt.isSimple = true)
    (explicit : stmt.isExplicit form stage = true) :
    (Judgement.ofState Bool).Gives (areExplicit form stage · = true)
      (superPass.simple (.inside self) stmt) := by
  have revised : (Judgement.ofState Bool).Gives (areExplicit form stage · = true)
      (do return [← stmt.reviseSimple (superVisitor self)]) := fun state => by
    have given := Stmt.reviseSimple_settles (superVisitor_settles self) stmt simple explicit state
    simpa using given
  cases stmt with
  | delete position targets =>
    obtain ⟨target, rfl, deleted⟩ := Stmt.delete_of_isExplicit explicit
    cases target with
    | name start id =>
      change (Judgement.ofState Bool).Gives _ (if id == "__class__" then _ else _)
      split
      · exact fun _ => rfl
      · exact fun _ => rfl
    | member => exact revised
    | _ => cases deleted
  | _ => exact revised

theorem superPass_settles :
    superPass.Settles (.ofState Bool) form .expanded .expanded (fun _ => True) where
  test place _ test lowered := by
    cases place with
    | outside => exact fun _ => lowered
    | inside self =>
      have stands := Expr.revise_settles (superVisitor_settles self) test lowered
      exact fun state => (stands state).lowered
  simple place _ stmt simple explicit := by
    cases place with
    | outside => exact fun _ => (Stmt.areExplicit_singleton stmt).trans explicit
    | inside self => exact superPass_simple simple explicit
  function place _ next decorators position ident params result body explicit below := by
    obtain ⟨kept, decoratorsLowered, paramsExplicit, unhinted, bodyExplicit⟩ :=
      Stmt.isExplicit_function.mp explicit
    have rebuilt : ∀ {params' body'}, params'.all (·.isExplicit form) = true →
        areExplicit form .expanded body' = true → areExplicit form .expanded
          [.function decorators position ident params' result body'] = true := by
      intro params' body' paramsExplicit bodyExplicit
      exact (Stmt.areExplicit_singleton _).trans (Stmt.isExplicit_function.mpr
        ⟨kept, decoratorsLowered, paramsExplicit, unhinted, bodyExplicit⟩)
    cases place with
    | outside =>
      exact fun state => rebuilt paramsExplicit (below (.inside (selfName params)) trivial state)
    | inside self =>
      exact fun state => rebuilt
        (Expr.reviseParams_settles (superVisitor_settles self) params paramsExplicit state)
        bodyExplicit
  classDef _ _ _ _ _ _ _ _ explicit _ := by
    cases (Stmt.isExplicit_classDef.mp explicit).1

/-! ## Names of class bodies -/

theorem classLookup_lowered (info : ScopeInfo) (position : Position) (name : String) :
    (classLookup info position name).isLowered form = true := by
  unfold classLookup
  dsimp only
  split <;> simp [Expr.isLowered, Expr.globals]

theorem namespaceVisitor_settles (info : ScopeInfo) :
    (namespaceVisitor info).Settles .ofId form where
  expr expr lowered := by
    match expr with
    | .name position id =>
      rintro _ ⟨⟩
      split
      · exact .refl rfl
      · rename_i inside
        have user : isReserved id = false := by
          simp only [isOutsideNamespace, Bool.or_eq_true, not_or, Bool.not_eq_true] at inside
          exact inside.1.1
        refine .of_lowered (classLookup_lowered info position id) ?_ user
        unfold classLookup
        dsimp only
        split <;> rfl
    | .call callee (_ :: _) _ => cases callee <;> exact Expr.pass_settles
    | .call callee [] _ =>
      cases callee with
      | name start id =>
        change Judgement.ofId.Gives _ (if (id == "locals" || id == "vars") && !info.binds id then _
          else _)
        split
        · rintro _ ⟨⟩
          exact .of_lowered rfl rfl rfl
        · exact Expr.pass_settles
      | _ => exact Expr.pass_settles
    | .literal .. | .keyword .. | .starred .. | .member .. | .list .. | .tuple .. | .set ..
    | .dict .. | .entry .. | .yield .. => exact Expr.pass_settles
  target target := by
    cases target with
    | name position id =>
      rintro _ ⟨⟩
      exact ⟨_, _, _, _, rfl, rfl⟩
    | _ =>
      intro _ reply
      cases reply
  arguments _ _ _ _ _ _ reply := by cases reply

theorem namespaceStmt_explicit (info : ScopeInfo) {stmt : Stmt} (simple : stmt.isSimple = true)
    (explicit : stmt.isExplicit form stage = true) :
    (namespaceStmt info stmt).isExplicit form stage = true := by
  have below : (Id.run (stmt.reviseSimple (namespaceVisitor info))).isExplicit form stage = true :=
    Stmt.reviseSimple_settles (namespaceVisitor_settles info) stmt simple explicit
  unfold namespaceStmt
  dsimp only
  split
  · rename_i position id value targets value' revised
    rw [revised] at below
    obtain ⟨_, _, _, lowered⟩ := Stmt.assign_of_isExplicit below
    split
    · exact revised ▸ below
    · simp [lowered]
  · split
    · exact below
    · simp
  · exact below

theorem namespacePass_settles (info : ScopeInfo) :
    (namespacePass info).Settles .ofId form .expanded .expanded (fun _ => True) where
  test _ _ test lowered :=
    (@Expr.revise_settles _ _ .ofId _ _ (namespaceVisitor_settles info) test lowered).lowered
  simple _ _ stmt simple explicit :=
    (Stmt.areExplicit_singleton _).trans (namespaceStmt_explicit info simple explicit)
  function _ _ next decorators position ident params result body explicit _ := by
    obtain ⟨kept, decoratorsLowered, paramsExplicit, unhinted, bodyExplicit⟩ :=
      Stmt.isExplicit_function.mp explicit
    have params' := @Expr.reviseParams_settles _ _ .ofId _ _ (namespaceVisitor_settles info)
      params paramsExplicit
    exact (Stmt.areExplicit_singleton _).trans (Stmt.isExplicit_function.mpr
      ⟨kept, decoratorsLowered, params', unhinted, bodyExplicit⟩)
  classDef _ _ _ _ _ _ _ _ explicit _ := by
    cases (Stmt.isExplicit_classDef.mp explicit).1

/-! ## Arguments of classes -/

/-- An item that is lowered, and starred only where it is unpacked. -/
def IsItem (form : Form) : Lowering.Item Expr → Prop
  | .plain value => value.isLowered form = true ∧ Lowering.isStarred value = false
  | .unpacked _ _ value => value.isLowered form = true

theorem isItem_itemOf {value : Expr} (lowered : value.isLowered form = true) :
    IsItem form (itemOf value) := by
  cases value with
  | starred => exact lowered
  | _ => exact ⟨lowered, rfl⟩

/-- What the arguments of a class are put together to. -/
theorem isLowered_joined {id combine : String} {empty : Expr} {build : List Expr → Expr}
    (emptyLowered : empty.isLowered form = true)
    (builds : ∀ values, Expr.areLowered form values = true →
      values.any Lowering.isStarred = false → (build values).isLowered form = true)
    {items : List (Lowering.Item Expr)} (each : ∀ item ∈ items, IsItem form item) :
    (Lowering.Item.joined (fun before segment => .supportCall combine [before, segment]) empty
      (Lowering.Item.segments build (fun value => .supportCall id [value]) [] items)).isLowered
      form = true := by
  have gathered : ∀ values, Expr.areLowered form values = true →
      values.any Lowering.isStarred = false →
      ∀ segment ∈ (if values.isEmpty then [] else [build values]),
        segment.isLowered form = true := by
    intro values lowered plain segment member
    split at member
    · cases member
    · rw [List.mem_singleton.mp member]
      exact builds values lowered plain
  have segments : ∀ values, Expr.areLowered form values = true →
      values.any Lowering.isStarred = false →
      ∀ segment ∈ Lowering.Item.segments build (fun value => .supportCall id [value]) values items,
        segment.isLowered form = true := by
    induction items with
    | nil => exact gathered
    | cons item rest induction =>
      obtain ⟨here, later⟩ := List.forall_mem_cons.mp each
      intro values lowered plain
      cases item with
      | plain value =>
        refine induction later _ ?_ ?_
        · refine Expr.areLowered_iff.mpr (List.forall_mem_append.mpr
            ⟨Expr.areLowered_iff.mp lowered, ?_⟩)
          simpa using here.1
        · simp [plain, here.2]
      | unpacked position op value =>
        refine List.forall_mem_append.mpr ⟨gathered values lowered plain, ?_⟩
        refine List.forall_mem_cons.mpr ⟨?_, induction later [] rfl rfl⟩
        have value : value.isLowered form = true := here
        simpa using value
  have all := segments [] rfl rfl
  revert all
  cases Lowering.Item.segments build (fun value => .supportCall id [value]) [] items with
  | nil => exact fun _ => emptyLowered
  | cons first rest =>
    intro all
    obtain ⟨here, later⟩ := List.forall_mem_cons.mp all
    refine List.foldlRecOn (motive := fun joined : Expr => joined.isLowered form = true) rest _
      here ?_
    intro before lowered segment member
    simpa using ⟨lowered, later segment member⟩

theorem isLowered_basesOf {arguments : List Expr}
    (lowered : Expr.areLowered form arguments = true) :
    (basesOf arguments).isLowered form = true := by
  have each := Expr.areLowered_iff.mp lowered
  refine isLowered_joined rfl (fun values lowered plain => ?_) ?_
  · simp [Expr.tupleOf, Expr.isLowered, lowered, plain]
  · exact List.forall_mem_map.mpr fun value member =>
      isItem_itemOf (each value (List.mem_filter.mp member).1)

theorem isLowered_keywordsOf {arguments : List Expr}
    (lowered : Expr.areLowered form arguments = true) :
    (keywordsOf arguments).isLowered form = true := by
  have each := Expr.areLowered_iff.mp lowered
  refine isLowered_joined rfl (fun values lowered plain => ?_) ?_
  · simp [Expr.dictOf, Expr.isLowered, lowered, plain]
  · refine List.forall_mem_map.mpr fun value member => isItem_itemOf ?_
    have valueLowered := each value (List.mem_filter.mp member).1
    cases value <;> exact valueLowered

/-! ## Classes -/

theorem areExplicit_namespaceBody (qualname : String) {body : List Stmt}
    (explicit : areExplicit form stage body = true) :
    areExplicit form stage (namespaceBody qualname body) = true := by
  unfold namespaceBody
  dsimp only
  split
  · simp_all [setEntryOf, Expr.isLowered]
  · simp [setEntryOf, explicit]

theorem classDefinition_explicit {info : ScopeInfo} {head : ClassHead} {body : List Stmt}
    (decorators : Expr.areLowered form head.decorators = true)
    (bases : Expr.areLowered form head.bases = true)
    (bodyExplicit : areExplicit form .expanded body = true) :
    ofDesugar.Gives (areExplicit form .expanded · = true) (classDefinition info head body) := by
  have methods := Pass.body_settles superPass_settles .outside trivial body bodyExplicit false
  have named := Pass.body_settles (namespacePass_settles info) () trivial _ methods
  have filled := areExplicit_namespaceBody info.qualname named
  rw [classDefinition]
  refine ofDesugar_lenient.skip _ fun generated => ?_
  refine ofDesugar.bind (saveDecorators_explicit .expanded decorators)
    fun saved given => ?_
  refine ofDesugar_lenient.skip _ fun _ => ofDesugar.pure ?_
  have fills : Stmt.isExplicit form .expanded (.function [] head.position
      ⟨head.ident.position, generated⟩ [.plain namespaceParam, .plain cellParam] none _) = true :=
    Stmt.isExplicit_function.mpr ⟨.inl rfl, rfl, rfl, rfl, filled⟩
  have created : (Expr.supportCall "create_class" [.ofText head.ident.name, .ofName generated,
      basesOf head.bases, keywordsOf head.bases,
      .ofBool (Id.run ((superPass.body .outside body).run false)).2]).isLowered form = true := by
    simp [isLowered_basesOf bases, isLowered_keywordsOf bases]
  have stored := isLowered_decorate given.2 created
  simp only [Stmt.areExplicit_append, given.1, FunctionHead.withBody, Stmt.areExplicit_cons,
    Stmt.isExplicit_store, Stmt.isExplicit_drop, Stmt.areExplicit_nil, Bool.and_true,
    Bool.true_and, Bool.and_eq_true]
  exact ⟨fills, stored⟩

/-- The pass over classes leaves no class. -/
theorem classPass_settles :
    classPass.Settles ofDescent form .named .expanded (fun _ => True) where
  test _ _ _ lowered := ofDescent.pure lowered
  simple _ _ stmt simple explicit :=
    ofDescent.pure ((Stmt.areExplicit_singleton stmt).trans
      (Stmt.isExplicit_of_isSimple simple explicit fun _ _ _ _ => rfl))
  function around _ next decorators position ident params result body explicit below := by
    obtain ⟨kept, decoratorsLowered, paramsExplicit, unhinted, _⟩ :=
      Stmt.isExplicit_function.mp explicit
    rw [Pass.stmt]
    refine ofDescent.bind (enter_gives around _) ?_
    rintro _ ⟨opened, rfl⟩
    refine ofDescent.bind (below opened trivial) fun after bodyExplicit => ?_
    refine ofDescent_lenient.skip _ fun _ => ofDescent.pure ?_
    exact (Stmt.areExplicit_singleton _).trans (Stmt.isExplicit_function.mpr
      ⟨kept, decoratorsLowered, paramsExplicit, unhinted, bodyExplicit⟩)
  classDef around _ next decorators position ident bases body explicit below := by
    obtain ⟨_, decoratorsLowered, basesLowered, _⟩ := Stmt.isExplicit_classDef.mp explicit
    rw [Pass.stmt]
    refine ofDescent.bind (enter_gives around _) ?_
    rintro _ ⟨opened, rfl⟩
    refine ofDescent.bind (below opened trivial) fun after bodyExplicit => ?_
    refine ofDescent_lenient.skip _ fun _ => Judgement.lift ?_
    exact classDefinition_explicit decoratorsLowered basesLowered bodyExplicit

end Definition

theorem renameFunctions_explicit {form : Form} (scope : Scope) {body : List Stmt}
    (explicit : Stmt.areExplicit form .lowered body = true) :
    Judgement.ofDesugar.Gives (Stmt.areExplicit form .named · = true)
      (renameFunctions scope body) :=
  Judgement.ofDesugar.bind
    (Pass.body_settles Definition.functionPass_settles _ trivial body explicit scope.children)
    fun _ given => Judgement.ofDesugar.pure given

theorem expandClasses_explicit {form : Form} (scope : Scope) {body : List Stmt}
    (explicit : Stmt.areExplicit form .named body = true) :
    Judgement.ofDesugar.Gives (Stmt.areExplicit form .expanded · = true)
      (expandClasses scope body) :=
  Judgement.ofDesugar.bind
    (Pass.body_settles Definition.classPass_settles _ trivial body explicit scope.children)
    fun _ given => Judgement.ofDesugar.pure given

end Unsugar
