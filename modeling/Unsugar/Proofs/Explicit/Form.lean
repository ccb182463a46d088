import Unsugar.Proofs.Lowering.OrderlyStatement
import Unsugar.Proofs.Tree.Revision

/-! The explicit form. What is left of a module is made of names, constants, displays,
attributes and calls, in a few kinds of statements. Passes that make the definitions of a
module explicit keep to that form if they do so to expressions and definitions. -/

namespace Unsugar

/-! ## Form -/

/-- How far the definitions of a module are made explicit: whether there may be decorated
functions, as far as their names are not reserved, classes, and declarations of names. -/
structure Stage where
  decorated : Bool
  classes : Bool
  declares : Bool

namespace Stage

/-- Nothing is explicit but statements and expressions. -/
def lowered : Stage := ⟨true, true, true⟩

/-- Functions are explicit, too. -/
def named : Stage := ⟨false, true, true⟩

/-- So are classes. -/
def expanded : Stage := ⟨false, false, true⟩

/-- So is where each name lives. -/
def final : Stage := ⟨false, false, false⟩

end Stage

/-- Whether a parameter has no hint, and a lowered default if any. -/
def Param.isExplicit (form : Form) (param : Param) : Bool :=
  param.hint.isNone && param.isLowered form

namespace Stmt

/-- Whether a target is a name, or an attribute that is stored by an assignment. -/
def isAssigned (form : Form) : Expr → Bool
  | .name .. => true
  | .member object _ _ => form.keepsMember object && object.isLowered form
  | _ => false

/-- Whether a target is a name, or an attribute of something generated. -/
def isDeleted : Expr → Bool
  | .name .. => true
  | .member object _ _ => object.isReservedPath
  | _ => false

mutual

/-- Whether a statement is explicit as far as a stage demands: an expression, an assignment
to one name or attribute, the deletion of one, a jump, an import that stays, a test, a loop
with a test, a `try` with one bare handler at most, or a function without hints. -/
def isExplicit (form : Form) (stage : Stage) : Stmt → Bool
  | expression value => value.isLowered form
  | assign [target] value => isAssigned form target && value.isLowered form
  | delete _ [target] => isDeleted target
  | branch .. => true
  | returns _ result => Expr.isLoweredOption form result
  | raises _ exception none => Expr.isLoweredOption form exception
  | declare .. => stage.declares
  | importFrom _ source level names _ => form.keepsImport source level names
  | conditional _ test body _ orelse | whileLoop _ test body orelse =>
    test.isLowered form && areExplicit form stage body && areExplicit form stage orelse
  | tryBlock _ body handlers orelse final =>
    decide (handlers.length ≤ 1) && areExplicit form stage body &&
      areHandlersExplicit form stage handlers && areExplicit form stage orelse &&
      areExplicit form stage final
  | function decorators _ ident params result body =>
    (decorators.isEmpty || stage.decorated && !isReserved ident.name) &&
      Expr.areLowered form decorators && params.all (·.isExplicit form) && result.isNone &&
      areExplicit form stage body
  | classDef decorators _ _ bases body =>
    stage.classes && Expr.areLowered form decorators && Expr.areLowered form bases &&
      areExplicit form stage body
  | _ => false

def areExplicit (form : Form) (stage : Stage) : List Stmt → Bool
  | [] => true
  | first :: rest => isExplicit form stage first && areExplicit form stage rest

def areHandlersExplicit (form : Form) (stage : Stage) : List Handler → Bool
  | [] => true
  | .mk _ type ident body :: rest =>
    type.isNone && ident.isNone && areExplicit form stage body &&
      areHandlersExplicit form stage rest

end

variable {form : Form} {stage : Stage}

@[simp] theorem areExplicit_nil : areExplicit form stage [] = true := rfl

@[simp] theorem areExplicit_cons (first : Stmt) (rest : List Stmt) :
    areExplicit form stage (first :: rest) =
      (first.isExplicit form stage && areExplicit form stage rest) := rfl

theorem areExplicit_singleton (stmt : Stmt) :
    areExplicit form stage [stmt] = stmt.isExplicit form stage := by
  simp

@[simp] theorem areExplicit_append (first second : List Stmt) :
    areExplicit form stage (first ++ second) =
      (areExplicit form stage first && areExplicit form stage second) := by
  induction first with
  | nil => rfl
  | cons stmt rest induction => simp [induction, Bool.and_assoc]

theorem areExplicit_iff {body : List Stmt} :
    areExplicit form stage body = true ↔ ∀ stmt ∈ body, stmt.isExplicit form stage = true := by
  induction body with
  | nil => simp
  | cons first rest induction => simp [induction]

@[simp] theorem isExplicit_store (name : String) (value : Expr) :
    (store name value).isExplicit form stage = value.isLowered form := rfl

@[simp] theorem isExplicit_perform (id : String) (arguments : List Expr) :
    (perform id arguments).isExplicit form stage = Expr.areLowered form arguments :=
  Expr.isLowered_supportCall id arguments

@[simp] theorem isExplicit_pass : pass.isExplicit form stage = true := rfl

@[simp] theorem isExplicit_drop (name : String) : (drop name).isExplicit form stage = true := rfl

theorem areExplicit_orPass {body : List Stmt} (explicit : areExplicit form stage body = true) :
    areExplicit form stage (orPass body) = true := by
  unfold orPass
  split
  · rfl
  · exact explicit

theorem areExplicit_insertAt {added body : List Stmt} (place : Nat)
    (addedExplicit : areExplicit form stage added = true)
    (explicit : areExplicit form stage body = true) :
    areExplicit form stage (insertAt place added body) = true := by
  rw [← List.take_append_drop place body, areExplicit_append, Bool.and_eq_true] at explicit
  simp [insertAt, explicit, addedExplicit]

/-- What holds of a definition's head: nothing in it depends on the body. -/
theorem isExplicit_function {decorators : List Expr} {position : Position} {ident : Ident}
    {params : List Param} {result : Option Expr} {body : List Stmt} :
    isExplicit form stage (function decorators position ident params result body) = true ↔
      (decorators = [] ∨ stage.decorated = true ∧ isReserved ident.name = false) ∧
        Expr.areLowered form decorators = true ∧ params.all (·.isExplicit form) = true ∧
        result = none ∧ areExplicit form stage body = true := by
  simp [isExplicit, and_assoc]

theorem isExplicit_classDef {decorators : List Expr} {position : Position} {ident : Ident}
    {bases : List Expr} {body : List Stmt} :
    isExplicit form stage (classDef decorators position ident bases body) = true ↔
      stage.classes = true ∧ Expr.areLowered form decorators = true ∧
        Expr.areLowered form bases = true ∧ areExplicit form stage body = true := by
  simp [isExplicit, and_assoc]

theorem assign_of_isExplicit {targets : List Expr} {value : Expr}
    (explicit : isExplicit form stage (assign targets value) = true) :
    ∃ target, targets = [target] ∧ isAssigned form target = true ∧ value.isLowered form = true :=
  match targets, explicit with
  | [target], explicit => ⟨target, rfl, Bool.and_eq_true_iff.mp explicit⟩

theorem delete_of_isExplicit {position : Position} {targets : List Expr}
    (explicit : isExplicit form stage (delete position targets) = true) :
    ∃ target, targets = [target] ∧ isDeleted target = true :=
  match targets, explicit with
  | [target], explicit => ⟨target, rfl, explicit⟩

/-- A statement without a body depends on the stage only where it declares names. -/
theorem isExplicit_of_isSimple {stage' : Stage} : ∀ {stmt : Stmt}, stmt.isSimple = true →
    stmt.isExplicit form stage = true →
    (∀ position declaration idents, stmt = .declare position declaration idents →
      stage.declares = stage'.declares) → stmt.isExplicit form stage' = true
  | .declare .., _, explicit, same => (same _ _ _ rfl).symm.trans explicit
  | .assign [_] _, _, explicit, _ | .delete _ [_], _, explicit, _
  | .raises _ _ none, _, explicit, _ | .expression .., _, explicit, _ | .branch .., _, explicit, _
  | .returns .., _, explicit, _ | .importFrom .., _, explicit, _ => explicit

/-! ## Lowered modules -/

mutual

theorem isExplicit_of_isLowered (unhinted : form.hinted = false) : ∀ stmt : Stmt,
    stmt.isLowered form = true → stmt.isOrderly = true → stmt.isExplicit form .lowered = true
  | .conditional _ _ body _ orelse, lowered, orderly
  | .whileLoop _ _ body orelse, lowered, orderly => by
    simp only [isLowered, isOrderly, Bool.and_eq_true] at lowered orderly
    simp [isExplicit, lowered, areExplicit_of_areLowered unhinted body lowered.1.2 orderly.1,
      areExplicit_of_areLowered unhinted orelse lowered.2 orderly.2]
  | .tryBlock _ body handlers orelse final, lowered, orderly => by
    simp only [isLowered, isOrderly, Bool.and_eq_true] at lowered orderly
    have caught := areHandlersExplicit_of_areLowered unhinted handlers lowered.1.1.2
      orderly.1.1.2
    have few := Lowering.length_le_one_of_bare (Bool.not_eq_true _ ▸ caught.2) orderly.1.1.1.1
    simp [isExplicit, few, caught.1,
      areExplicit_of_areLowered unhinted body lowered.1.1.1 orderly.1.1.1.2,
      areExplicit_of_areLowered unhinted orelse lowered.1.2 orderly.1.2,
      areExplicit_of_areLowered unhinted final lowered.2 orderly.2]
  | .function decorators _ ident params result body, lowered, orderly => by
    simp only [isLowered, isOrderly, Form.keepsHints, unhinted, Bool.false_or,
      Bool.and_eq_true] at lowered orderly
    have bodyExplicit := areExplicit_of_areLowered unhinted body lowered.2 orderly.2
    refine isExplicit_function.mpr
      ⟨by simpa [Stage.lowered] using orderly.1, lowered.1.1.2, ?_, ?_, bodyExplicit⟩
    · simp only [List.all_eq_true, Param.isExplicit, Bool.and_eq_true] at lowered ⊢
      exact fun param member => ⟨lowered.1.1.1.1 param member, lowered.1.2 param member⟩
    · simpa using lowered.1.1.1.2
  | .classDef _ _ _ _ body, lowered, orderly => by
    simp only [isLowered, Bool.and_eq_true] at lowered
    have bodyExplicit := areExplicit_of_areLowered unhinted body lowered.2 orderly
    exact isExplicit_classDef.mpr ⟨rfl, lowered.1.1, lowered.1.2, bodyExplicit⟩
  | .assign .., lowered, _ => by
    obtain ⟨_, ⟨_, _, rfl⟩ | ⟨_, _, _, rfl, _⟩⟩ := assign_of_isLowered lowered <;> exact lowered
  | .delete .., lowered, _ => by
    obtain ⟨_, _, rfl⟩ | ⟨_, _, _, rfl, _⟩ := delete_of_isLowered lowered <;> exact lowered
  | .expression _, lowered, _ | .branch .., lowered, _ | .returns .., lowered, _
  | .raises _ _ none, lowered, _ | .importFrom .., lowered, _ => lowered
  | .declare .., _, _ => rfl

theorem areExplicit_of_areLowered (unhinted : form.hinted = false) : ∀ body : List Stmt,
    areLowered form body = true → areOrderly body = true → areExplicit form .lowered body = true
  | [], _, _ => rfl
  | first :: rest, lowered, orderly => by
    have parts := Bool.and_eq_true_iff.mp lowered
    have orderlyParts := Bool.and_eq_true_iff.mp orderly
    simp [isExplicit_of_isLowered unhinted first parts.1 orderlyParts.1,
      areExplicit_of_areLowered unhinted rest parts.2 orderlyParts.2]

theorem areHandlersExplicit_of_areLowered (unhinted : form.hinted = false) :
    ∀ handlers : List Handler, areHandlersLowered form handlers = true →
      areHandlersOrderly handlers = true →
      areHandlersExplicit form .lowered handlers = true ∧ handlers.any Lowering.isTyped = false
  | [], _, _ => ⟨rfl, rfl⟩
  | .mk _ type ident body :: rest, lowered, orderly => by
    simp only [areHandlersLowered, areHandlersOrderly, Bool.and_eq_true] at lowered orderly
    have bodyExplicit := areExplicit_of_areLowered unhinted body lowered.1.2 orderly.1
    have restExplicit := areHandlersExplicit_of_areLowered unhinted rest lowered.2 orderly.2
    have untyped : type = none := by simpa using lowered.1.1.1
    subst untyped
    exact ⟨by simp [areHandlersExplicit, lowered, bodyExplicit, restExplicit.1], restExplicit.2⟩

end

end Stmt

/-! ## Expressions -/

/-- A lowered expression that may stand where another one stood. -/
structure Expr.StandsFor (form : Form) (before after : Expr) : Prop where
  lowered : after.isLowered form = true
  starred : Lowering.isStarred after = true → Lowering.isStarred before = true
  reserved : before.isReservedPath = true → after.isReservedPath = true

section Visitor

variable {m : Type → Type} [Monad m] {judge : Judgement m} {form : Form} {visitor : Visitor m}

/-- A visitor that replaces lowered expressions by lowered ones, and names that are bound by
names. -/
structure Visitor.Settles (judge : Judgement m) (form : Form) (visitor : Visitor m) : Prop where
  expr : ∀ expr : Expr, expr.isLowered form = true →
    judge.Gives (fun reply => ∀ after ∈ reply, expr.StandsFor form after) (visitor.expr expr)
  target : ∀ target, judge.Gives (fun reply => ∀ after ∈ reply, ∃ position id position' id',
    target = .name position id ∧ after = .name position' id') (visitor.target target)
  arguments : ∀ (callee : Expr) (arguments : List Expr) (place : Nat) (argument after : Expr),
    arguments[place]? = some argument →
    (visitor.arguments callee arguments)[place]? = some (some after) →
    argument.StandsFor form after

namespace Expr

theorem StandsFor.refl {expr : Expr} (lowered : expr.isLowered form = true) :
    expr.StandsFor form expr :=
  ⟨lowered, id, id⟩

/-- What is neither a starred expression nor a path is replaced by any lowered expression that
is no starred one. -/
theorem StandsFor.of_lowered {before after : Expr} (lowered : after.isLowered form = true)
    (plain : Lowering.isStarred after = false) (unreserved : before.isReservedPath = false) :
    before.StandsFor form after :=
  ⟨lowered, fun starred => by simp [plain] at starred, fun reserved => by
    simp [unreserved] at reserved⟩

theorem areLowered_of_standFor {items items' : List Expr}
    (stand : List.Forall₂ (StandsFor form) items items') : areLowered form items' = true := by
  induction stand with
  | nil => rfl
  | cons here _ induction => simp [here.lowered, induction]

theorem any_isStarred_of_standFor {items items' : List Expr}
    (stand : List.Forall₂ (StandsFor form) items items')
    (plain : items.any Lowering.isStarred = false) : items'.any Lowering.isStarred = false := by
  induction stand with
  | nil => rfl
  | @cons before after _ _ here _ induction =>
    simp only [List.any_cons, Bool.or_eq_false_iff] at plain ⊢
    refine ⟨?_, induction plain.2⟩
    cases starred : Lowering.isStarred after with
    | false => rfl
    | true => simpa [here.starred starred] using plain.1

/-- A display whose items are replaced. -/
theorem standFor_display (build : List Expr → Position → Expr) {items items' : List Expr}
    {closing : Position}
    (builds : ∀ items closing, (build items closing).isLowered form =
      (!items.any Lowering.isStarred && areLowered form items))
    (plain : ∀ items closing, Lowering.isStarred (build items closing) = false)
    (unreserved : ∀ items closing, (build items closing).isReservedPath = false)
    (lowered : (build items closing).isLowered form = true)
    (stand : List.Forall₂ (StandsFor form) items items') :
    (build items closing).StandsFor form (build items' closing) := by
  refine .of_lowered ?_ (plain _ _) (unreserved _ _)
  rw [builds, Bool.and_eq_true] at lowered
  rw [builds, any_isStarred_of_standFor stand (by simpa using lowered.1),
    areLowered_of_standFor stand]
  rfl

/-- A visitor may leave an expression to what is below it. -/
theorem pass_settles {expr : Expr} :
    judge.Gives (fun reply => ∀ after ∈ reply, expr.StandsFor form after) (pure none) :=
  judge.pure fun _ reply => by cases reply

theorem orRevise_settles {expr : Expr} {found : m (Option Expr)} {below : m Expr}
    (reply : judge.Gives (fun reply => ∀ after ∈ reply, expr.StandsFor form after) found)
    (rest : judge.Gives (expr.StandsFor form) below) :
    judge.Gives (expr.StandsFor form) (orRevise found below) := by
  refine judge.bind reply fun reply given => ?_
  cases reply with
  | none => exact rest
  | some after => exact judge.pure (given after rfl)

mutual

theorem revise_settles (settles : visitor.Settles judge form) : ∀ expr : Expr,
    expr.isLowered form = true → judge.Gives (expr.StandsFor form) (expr.revise visitor)
  | .name .., lowered | .literal .., lowered => by
    rw [revise]
    exact orRevise_settles (settles.expr _ lowered) (judge.pure (.refl lowered))
  | .call callee arguments _, lowered => by
    have parts := Bool.and_eq_true_iff.mp lowered
    rw [revise]
    refine orRevise_settles (settles.expr _ lowered) ?_
    refine judge.bind (revise_settles settles callee parts.1) fun callee' calleeStands => ?_
    refine judge.bind (reviseArguments_settles settles _ arguments parts.2
      (settles.arguments callee arguments)) fun arguments' stand => judge.pure ?_
    exact .of_lowered (by simp [isLowered, calleeStands.lowered, areLowered_of_standFor stand])
      rfl rfl
  | .keyword _ _ value, lowered => by
    rw [revise]
    refine orRevise_settles (settles.expr _ lowered) ?_
    exact judge.bind (revise_settles settles value lowered) fun _ stands =>
      judge.pure (.of_lowered stands.lowered rfl rfl)
  | .starred _ _ value, lowered => by
    rw [revise]
    refine orRevise_settles (settles.expr _ lowered) ?_
    exact judge.bind (revise_settles settles value lowered) fun _ stands =>
      judge.pure ⟨stands.lowered, fun _ => rfl, fun reserved => by cases reserved⟩
  | .member object _ _, lowered => by
    have parts := Bool.and_eq_true_iff.mp lowered
    rw [revise]
    refine orRevise_settles (settles.expr _ lowered) ?_
    refine judge.bind (revise_settles settles object parts.2) fun object' stands => judge.pure ?_
    refine ⟨?_, fun starred => (by cases starred), stands.reserved⟩
    simp only [isLowered, stands.lowered, Bool.and_true, Form.keepsMember,
      Bool.or_eq_true] at parts ⊢
    exact parts.1.imp_right stands.reserved
  | .list _ items _, lowered => by
    rw [revise]
    refine orRevise_settles (settles.expr _ lowered) ?_
    exact judge.bind (reviseList_settles settles items (Bool.and_eq_true_iff.mp lowered).2)
      fun items' stand => judge.pure (standFor_display (fun items => .list _ items)
        (fun _ _ => rfl) (fun _ _ => rfl) (fun _ _ => rfl) lowered stand)
  | .tuple _ items _, lowered => by
    rw [revise]
    refine orRevise_settles (settles.expr _ lowered) ?_
    exact judge.bind (reviseList_settles settles items (Bool.and_eq_true_iff.mp lowered).2)
      fun items' stand => judge.pure (standFor_display (fun items => .tuple _ items)
        (fun _ _ => rfl) (fun _ _ => rfl) (fun _ _ => rfl) lowered stand)
  | .set _ items _, lowered => by
    rw [revise]
    refine orRevise_settles (settles.expr _ lowered) ?_
    exact judge.bind (reviseList_settles settles items (Bool.and_eq_true_iff.mp lowered).2)
      fun items' stand => judge.pure (standFor_display (fun items => .set _ items)
        (fun _ _ => rfl) (fun _ _ => rfl) (fun _ _ => rfl) lowered stand)
  | .dict _ items _, lowered => by
    rw [revise]
    refine orRevise_settles (settles.expr _ lowered) ?_
    exact judge.bind (reviseList_settles settles items (Bool.and_eq_true_iff.mp lowered).2)
      fun items' stand => judge.pure (standFor_display (fun items => .dict _ items)
        (fun _ _ => rfl) (fun _ _ => rfl) (fun _ _ => rfl) lowered stand)
  | .entry key value, lowered => by
    have parts := Bool.and_eq_true_iff.mp lowered
    rw [revise]
    refine orRevise_settles (settles.expr _ lowered) ?_
    refine judge.bind (revise_settles settles key parts.1) fun key' keyStands => ?_
    refine judge.bind (revise_settles settles value parts.2) fun value' stands => judge.pure ?_
    exact .of_lowered (by simp [isLowered, keyStands.lowered, stands.lowered]) rfl rfl
  | .yield _ _ value, lowered => by
    rw [revise]
    refine orRevise_settles (settles.expr _ lowered) ?_
    exact judge.bind (reviseOption_settles settles value lowered) fun _ given =>
      judge.pure (.of_lowered given rfl rfl)

theorem reviseOption_settles (settles : visitor.Settles judge form) : ∀ value : Option Expr,
    isLoweredOption form value = true →
    judge.Gives (isLoweredOption form · = true) (reviseOption visitor value)
  | none, _ => judge.pure rfl
  | some value, lowered =>
    judge.bind (revise_settles settles value lowered) fun _ stands => judge.pure stands.lowered

theorem reviseList_settles (settles : visitor.Settles judge form) : ∀ items : List Expr,
    areLowered form items = true →
    judge.Gives (List.Forall₂ (StandsFor form) items) (reviseList visitor items)
  | [], _ => judge.pure .nil
  | first :: rest, lowered => by
    have parts := Bool.and_eq_true_iff.mp lowered
    refine judge.bind (revise_settles settles first parts.1) fun _ here => ?_
    exact judge.bind (reviseList_settles settles rest parts.2) fun _ later =>
      judge.pure (.cons here later)

theorem reviseArguments_settles (settles : visitor.Settles judge form) :
    ∀ (replaced : List (Option Expr)) (items : List Expr), areLowered form items = true →
      (∀ (place : Nat) (argument after : Expr), items[place]? = some argument →
        replaced[place]? = some (some after) → argument.StandsFor form after) →
      judge.Gives (List.Forall₂ (StandsFor form) items) (reviseArguments visitor replaced items)
  | _, [], _, _ => judge.pure .nil
  | replaced, first :: rest, lowered, replies => by
    have parts := Bool.and_eq_true_iff.mp lowered
    have here : judge.Gives (first.StandsFor form)
        (orRevise (pure (replaced.head?.getD none)) (revise visitor first)) := by
      refine orRevise_settles (judge.pure fun after reply => ?_)
        (revise_settles settles first parts.1)
      refine replies 0 first after rfl ?_
      cases replaced with
      | nil => cases reply
      | cons => exact congrArg some reply
    have later := reviseArguments_settles settles replaced.tail rest parts.2
      fun place argument after found reply => replies (place + 1) argument after found
        (by simpa using reply)
    rw [reviseArguments]
    refine judge.bind here fun _ here => ?_
    exact judge.bind later fun _ later => judge.pure (.cons here later)

end

theorem reviseParams_settles (settles : visitor.Settles judge form) : ∀ params : List Param,
    params.all (·.isExplicit form) = true →
    judge.Gives (·.all (·.isExplicit form) = true) (reviseParams visitor params)
  | [], _ => judge.pure rfl
  | .mk kind position ident none default :: rest, explicit => by
    have parts := Bool.and_eq_true_iff.mp explicit
    rw [reviseParams]
    refine judge.bind (@Judgement.pure _ _ judge _ (· = none) none rfl) ?_
    rintro _ rfl
    refine judge.bind (reviseOption_settles settles default parts.1) fun default' lowered => ?_
    refine judge.bind (reviseParams_settles settles rest parts.2) fun rest' restExplicit => ?_
    exact judge.pure (Bool.and_eq_true_iff.mpr ⟨lowered, restExplicit⟩)

/-- Decorators and bases, once they are revised. -/
theorem reviseList_gives_lowered (settles : visitor.Settles judge form) {items : List Expr}
    (lowered : areLowered form items = true) :
    judge.Gives (fun items' => areLowered form items' = true ∧ (items = [] → items' = []))
      (reviseList visitor items) := by
  cases items with
  | nil => exact judge.pure ⟨rfl, fun _ => rfl⟩
  | cons first rest =>
    have parts := Bool.and_eq_true_iff.mp lowered
    refine judge.bind (revise_settles settles first parts.1) fun _ here => ?_
    refine judge.bind (reviseList_settles settles rest parts.2) fun _ later => judge.pure ?_
    exact ⟨areLowered_of_standFor (.cons here later), fun empty => by cases empty⟩

end Expr

/-! ## Statements -/

namespace Stmt

variable {stage : Stage}

/-- A name or an attribute that is bound or deleted, and what stands for it. -/
inductive TargetStands (form : Form) : Expr → Expr → Prop where
  | name {position position' : Position} {id id' : String} :
    TargetStands form (.name position id) (.name position' id')
  | member {object object' : Expr} {position : Position} {id : String} :
    object.StandsFor form object' →
    TargetStands form (.member object position id) (.member object' position id)

theorem TargetStands.isAssigned {target target' : Expr} (stands : TargetStands form target target')
    (assigned : isAssigned form target = true) : isAssigned form target' = true := by
  cases stands with
  | name => rfl
  | member object =>
    simp only [Stmt.isAssigned, Form.keepsMember, object.lowered, Bool.and_true, Bool.and_eq_true,
      Bool.or_eq_true] at assigned ⊢
    exact assigned.1.imp_right object.reserved

theorem TargetStands.isDeleted {target target' : Expr} (stands : TargetStands form target target')
    (deleted : isDeleted target = true) : isDeleted target' = true := by
  cases stands with
  | name => rfl
  | member object => exact object.reserved deleted

/-- What a visitor makes of a target. -/
theorem reviseTargets_settles (settles : visitor.Settles judge form) {target : Expr}
    (kept : isAssigned form target = true ∨ isDeleted target = true) :
    judge.Gives (fun targets => ∃ target', targets = [target'] ∧ TargetStands form target target')
      (Expr.reviseTargets visitor [target]) := by
  have here : judge.Gives (TargetStands form target) (Expr.reviseTarget visitor target) := by
    cases target with
    | name position id =>
      change judge.Gives _ (orRevise (visitor.target (.name position id)) (pure _))
      refine judge.bind (settles.target _) fun reply given => ?_
      cases reply with
      | none => exact judge.pure .name
      | some after =>
        obtain ⟨_, _, _, _, _, rfl⟩ := given after rfl
        exact judge.pure .name
    | member object position id =>
      have lowered : object.isLowered form = true :=
        kept.elim (fun assigned => (Bool.and_eq_true_iff.mp assigned).2)
          Expr.isLowered_of_isReservedPath
      rw [Expr.reviseTarget]
      refine judge.bind (settles.target _) fun reply given => ?_
      cases reply with
      | none => exact judge.bind (Expr.revise_settles settles object lowered) fun _ stands =>
          judge.pure (.member stands)
      | some after =>
        obtain ⟨_, _, _, _, named, _⟩ := given after rfl
        cases named
    | _ => simp [isAssigned, isDeleted] at kept
  rw [Expr.reviseTargets]
  refine judge.bind here fun target' given => ?_
  refine judge.bind (@Judgement.pure _ _ judge _ (· = []) [] rfl) ?_
  rintro _ rfl
  exact judge.pure ⟨target', rfl, given⟩

/-- A statement without a body, once it is revised. -/
theorem reviseSimple_settles (settles : visitor.Settles judge form) : ∀ stmt : Stmt,
    stmt.isSimple = true → stmt.isExplicit form stage = true →
    judge.Gives (·.isExplicit form stage = true) (stmt.reviseSimple visitor)
  | .expression value, _, explicit =>
    judge.bind (Expr.revise_settles settles value explicit) fun _ stands =>
      judge.pure stands.lowered
  | .assign targets value, _, explicit => by
    obtain ⟨target, rfl, assigned, lowered⟩ := assign_of_isExplicit explicit
    refine judge.bind (Expr.revise_settles settles value lowered) fun value' valueStands => ?_
    refine judge.bind (reviseTargets_settles settles (.inl assigned)) ?_
    rintro _ ⟨target', rfl, stands⟩
    exact judge.pure (Bool.and_eq_true_iff.mpr ⟨stands.isAssigned assigned, valueStands.lowered⟩)
  | .delete position targets, _, explicit => by
    obtain ⟨target, rfl, deleted⟩ := delete_of_isExplicit explicit
    refine judge.bind (reviseTargets_settles settles (.inr deleted)) ?_
    rintro _ ⟨target', rfl, stands⟩
    exact judge.pure (stands.isDeleted deleted)
  | .returns position result, _, explicit =>
    judge.bind (Expr.reviseOption_settles settles result explicit) fun _ given => judge.pure given
  | .raises position exception none, _, explicit => by
    refine judge.bind (Expr.reviseOption_settles settles exception explicit) fun _ given => ?_
    refine judge.bind (@Judgement.pure _ _ judge _ (· = none) none rfl) ?_
    rintro _ rfl
    exact judge.pure given
  | .branch .., _, explicit | .declare .., _, explicit | .importFrom .., _, explicit =>
    judge.pure explicit

end Stmt
end Visitor

/-! ## Passes -/

namespace Pass

open Stmt (areExplicit)

variable {m : Type → Type} [Monad m] {judge : Judgement m} {form : Form} {before after : Stage}
  {ε : Type} {good : ε → Prop} {pass : Pass m ε}

/-- A pass that takes explicit modules from one stage to another, in environments that are
good. -/
structure Settles (judge : Judgement m) (form : Form) (before after : Stage) (good : ε → Prop)
    (pass : Pass m ε) : Prop where
  test : ∀ env, good env → ∀ test : Expr, test.isLowered form = true →
    judge.Gives (·.isLowered form = true) (pass.test env test)
  simple : ∀ env, good env → ∀ stmt : Stmt, stmt.isSimple = true →
    stmt.isExplicit form before = true →
    judge.Gives (areExplicit form after · = true) (pass.simple env stmt)
  function : ∀ env, good env → ∀ next decorators position ident params result body,
    Stmt.isExplicit form before (.function decorators position ident params result body) = true →
    (∀ inner, good inner → judge.Gives (areExplicit form after · = true) (pass.body inner body)) →
    judge.Gives (areExplicit form after · = true)
      (pass.stmt env next (.function decorators position ident params result body))
  classDef : ∀ env, good env → ∀ next decorators position ident bases body,
    Stmt.isExplicit form before (.classDef decorators position ident bases body) = true →
    (∀ inner, good inner → judge.Gives (areExplicit form after · = true) (pass.body inner body)) →
    judge.Gives (areExplicit form after · = true)
      (pass.stmt env next (.classDef decorators position ident bases body))

mutual

theorem stmt_settles (settles : Settles judge form before after good pass) :
    ∀ (env : ε), good env → ∀ (next : Option Stmt) (stmt : Stmt),
      stmt.isExplicit form before = true →
      judge.Gives (areExplicit form after · = true) (pass.stmt env next stmt)
  | env, isGood, _, .conditional _ test body _ orelse, explicit
  | env, isGood, _, .whileLoop _ test body orelse, explicit => by
    simp only [Stmt.isExplicit, Bool.and_eq_true] at explicit
    rw [Pass.stmt]
    refine judge.bind (settles.test env isGood test explicit.1.1) fun test' lowered => ?_
    refine judge.bind (body_settles settles env isGood body explicit.1.2) fun _ bodyExplicit => ?_
    refine judge.bind (body_settles settles env isGood orelse explicit.2)
      fun _ orelseExplicit => judge.pure ?_
    simp [Stmt.isExplicit, lowered, bodyExplicit, orelseExplicit]
  | env, isGood, _, .tryBlock _ body handlers orelse final, explicit => by
    simp only [Stmt.isExplicit, Bool.and_eq_true, decide_eq_true_eq] at explicit
    rw [Pass.stmt]
    refine judge.bind (body_settles settles env isGood body explicit.1.1.1.2)
      fun _ bodyExplicit => ?_
    refine judge.bind (handlers_settle settles env isGood handlers explicit.1.1.2)
      fun handlers' caught => ?_
    refine judge.bind (body_settles settles env isGood orelse explicit.1.2)
      fun _ orelseExplicit => ?_
    refine judge.bind (body_settles settles env isGood final explicit.2)
      fun _ finalExplicit => judge.pure ?_
    have few : handlers'.length ≤ 1 := Nat.le_trans (Nat.le_of_eq caught.2) explicit.1.1.1.1
    simp [Stmt.isExplicit, few, bodyExplicit, caught.1, orelseExplicit, finalExplicit]
  | env, isGood, next, .function decorators position ident params result body, explicit =>
    settles.function env isGood next decorators position ident params result body explicit
      fun inner innerGood => body_settles settles inner innerGood body
        (Stmt.isExplicit_function.mp explicit).2.2.2.2
  | env, isGood, next, .classDef decorators position ident bases body, explicit =>
    settles.classDef env isGood next decorators position ident bases body explicit
      fun inner innerGood => body_settles settles inner innerGood body
        (Stmt.isExplicit_classDef.mp explicit).2.2.2
  | env, isGood, _, .expression value, explicit =>
    settles.simple env isGood (.expression value) rfl explicit
  | env, isGood, _, .assign targets value, explicit =>
    settles.simple env isGood (.assign targets value) rfl explicit
  | env, isGood, _, .delete position targets, explicit =>
    settles.simple env isGood (.delete position targets) rfl explicit
  | env, isGood, _, .branch position kind, explicit =>
    settles.simple env isGood (.branch position kind) rfl explicit
  | env, isGood, _, .returns position result, explicit =>
    settles.simple env isGood (.returns position result) rfl explicit
  | env, isGood, _, .raises position exception cause, explicit =>
    settles.simple env isGood (.raises position exception cause) rfl explicit
  | env, isGood, _, .declare position declaration names, explicit =>
    settles.simple env isGood (.declare position declaration names) rfl explicit
  | env, isGood, _, .importFrom position source level names closing, explicit =>
    settles.simple env isGood (.importFrom position source level names closing) rfl explicit

/-- A pass that takes tests, statements without a body and definitions to the next stage takes
whole bodies there. -/
theorem body_settles (settles : Settles judge form before after good pass) :
    ∀ (env : ε), good env → ∀ body : List Stmt, areExplicit form before body = true →
      judge.Gives (areExplicit form after · = true) (pass.body env body)
  | _, _, [], _ => judge.pure rfl
  | env, isGood, first :: rest, explicit => by
    have parts := Bool.and_eq_true_iff.mp explicit
    rw [Pass.body]
    refine judge.bind (stmt_settles settles env isGood rest.head? first parts.1)
      fun _ hereExplicit => ?_
    refine judge.bind (body_settles settles env isGood rest parts.2)
      fun _ laterExplicit => judge.pure ?_
    simp [hereExplicit, laterExplicit]

theorem handlers_settle (settles : Settles judge form before after good pass) :
    ∀ (env : ε), good env → ∀ handlers : List Handler,
      Stmt.areHandlersExplicit form before handlers = true →
      judge.Gives (fun after' => Stmt.areHandlersExplicit form after after' = true ∧
        after'.length = handlers.length) (pass.handlers env handlers)
  | _, _, [], _ => judge.pure ⟨rfl, rfl⟩
  | env, isGood, .mk position type ident body :: rest, explicit => by
    simp only [Stmt.areHandlersExplicit, Bool.and_eq_true, Option.isNone_iff_eq_none] at explicit
    obtain ⟨⟨⟨rfl, rfl⟩, bodyExplicit⟩, restExplicit⟩ := explicit
    rw [Pass.handlers]
    refine judge.bind (@Judgement.pure _ _ judge _ (· = none) none rfl) ?_
    rintro _ rfl
    refine judge.bind (body_settles settles env isGood body bodyExplicit)
      fun _ bodyExplicit => ?_
    refine judge.bind (handlers_settle settles env isGood rest restExplicit)
      fun _ later => judge.pure ⟨?_, ?_⟩
    · simp [Stmt.areHandlersExplicit, bodyExplicit, later.1]
    · simp [later.2]

end

end Pass
end Unsugar
