import Unsugar.Proofs.Tree.Revision

/-! What a visitor is shown. A visitor that replaces nothing sees every expression and every
target of a module once, in an order that depends on the module alone; whatever it does, it
does along that order. -/

namespace Unsugar

/-- What a visitor is shown: an expression that is evaluated, or one that is bound or
deleted. -/
inductive Shown where
  | expr (value : Expr)
  | target (value : Expr)

namespace Shown

def value : Shown → Expr
  | expr value => value
  | target value => value

end Shown

/-! ## The order of visits -/

namespace Expr

mutual

/-- What a visitor is shown of an expression that is evaluated. -/
def shown : Expr → List Shown
  | .name position id => [.expr (.name position id)]
  | literal position raw value => [.expr (literal position raw value)]
  | fstring position raw parts => .expr (fstring position raw parts) :: shownOfList parts
  | field position value conversion spec =>
    .expr (field position value conversion spec) :: (shown value ++ shownOfOption spec)
  | call callee arguments closing =>
    .expr (call callee arguments closing) :: (shown callee ++ shownOfList arguments)
  | keyword position id value => .expr (keyword position id value) :: shown value
  | starred position op value => .expr (starred position op value) :: shown value
  | member object position id => .expr (member object position id) :: shown object
  | subscript object key closing =>
    .expr (subscript object key closing) :: (shown object ++ shown key)
  | slice position lower upper step =>
    .expr (slice position lower upper step) ::
      (shownOfOption lower ++ (shownOfOption upper ++ shownOfOption step))
  | binary left position op right =>
    .expr (binary left position op right) :: (shown left ++ shown right)
  | logical left position op right =>
    .expr (logical left position op right) :: (shown left ++ shown right)
  | compare left ops rights => .expr (compare left ops rights) :: (shown left ++ shownOfList rights)
  | unary position op operand => .expr (unary position op operand) :: shown operand
  | conditional test whenTrue whenFalse =>
    .expr (conditional test whenTrue whenFalse) ::
      (shown test ++ (shown whenTrue ++ shown whenFalse))
  | lambda position params body =>
    .expr (lambda position params body) :: (shownOfParams params ++ shown body)
  | list opening items closing => .expr (list opening items closing) :: shownOfList items
  | tuple opening items closing => .expr (tuple opening items closing) :: shownOfList items
  | set opening items closing => .expr (set opening items closing) :: shownOfList items
  | dict opening items closing => .expr (dict opening items closing) :: shownOfList items
  | entry key value => .expr (entry key value) :: (shown key ++ shown value)
  | comprehension kind opening body clauses closing =>
    .expr (comprehension kind opening body clauses closing) ::
      (shownOfClauses clauses ++ shown body)
  | named target value => .expr (named target value) :: shown value
  | yield position delegates value => .expr (yield position delegates value) :: shownOfOption value

/-- What a visitor is shown of a binding target. -/
def shownAsTarget : Expr → List Shown
  | tuple opening items closing => .target (tuple opening items closing) :: shownOfTargets items
  | list opening items closing => .target (list opening items closing) :: shownOfTargets items
  | starred position op value => .target (starred position op value) :: shownAsTarget value
  | member object position id => .target (member object position id) :: shown object
  | subscript object key closing =>
    .target (subscript object key closing) :: (shown object ++ shown key)
  | other => [.target other]

def shownOfOption : Option Expr → List Shown
  | none => []
  | some value => shown value

def shownOfList : List Expr → List Shown
  | [] => []
  | first :: rest => shown first ++ shownOfList rest

def shownOfTargets : List Expr → List Shown
  | [] => []
  | first :: rest => shownAsTarget first ++ shownOfTargets rest

def shownOfParams : List Param → List Shown
  | [] => []
  | .mk _ _ _ hint default :: rest =>
    shownOfOption hint ++ (shownOfOption default ++ shownOfParams rest)

def shownOfClauses : List Clause → List Shown
  | [] => []
  | .loop _ target iterable :: rest =>
    shown iterable ++ (shownAsTarget target ++ shownOfClauses rest)
  | .filter _ test :: rest => shown test ++ shownOfClauses rest

end

def shownOfItems : List WithItem → List Shown
  | [] => []
  | ⟨manager, none⟩ :: rest => shown manager ++ shownOfItems rest
  | ⟨manager, some target⟩ :: rest => shown manager ++ (shownAsTarget target ++ shownOfItems rest)

end Expr

namespace Stmt

open Unsugar.Expr (shownOfOption shownOfList shownOfTargets shownOfParams shownOfItems)

mutual

/-- What a visitor is shown of a statement. -/
def shown : Stmt → List Shown
  | expression value => value.shown
  | assign targets value => value.shown ++ shownOfTargets targets
  | augAssign target _ value => target.shownAsTarget ++ value.shown
  | annAssign target hint value => target.shownAsTarget ++ (hint.shown ++ shownOfOption value)
  | delete _ targets => shownOfTargets targets
  | branch .. => []
  | returns _ result => shownOfOption result
  | raises _ exception cause => shownOfOption exception ++ shownOfOption cause
  | declare .. => []
  | asserts _ test message => test.shown ++ shownOfOption message
  | imports .. => []
  | importFrom .. => []
  | conditional _ test body _ orelse => test.shown ++ (shownOfBody body ++ shownOfBody orelse)
  | whileLoop _ test body orelse => test.shown ++ (shownOfBody body ++ shownOfBody orelse)
  | forLoop _ target iterable body orelse =>
    iterable.shown ++ (target.shownAsTarget ++ (shownOfBody body ++ shownOfBody orelse))
  | tryBlock _ body handlers orelse final =>
    shownOfBody body ++ (shownOfHandlers handlers ++ (shownOfBody orelse ++ shownOfBody final))
  | withBlock _ items body => shownOfItems items ++ shownOfBody body
  | function decorators _ _ params result body =>
    shownOfList decorators ++ (shownOfParams params ++ (shownOfOption result ++ shownOfBody body))
  | classDef decorators _ _ bases body =>
    shownOfList decorators ++ (shownOfList bases ++ shownOfBody body)

/-- What a visitor is shown of a body. -/
def shownOfBody : List Stmt → List Shown
  | [] => []
  | first :: rest => shown first ++ shownOfBody rest

def shownOfHandlers : List Handler → List Shown
  | [] => []
  | .mk _ type _ body :: rest => shownOfOption type ++ (shownOfBody body ++ shownOfHandlers rest)

end

end Stmt

/-! ## Watching -/

variable {m : Type → Type} [Monad m]

/-- The visitor that replaces nothing and does something whenever it is shown something. -/
def Visitor.watching (watch : Shown → m Unit) : Visitor m where
  expr value := do
    watch (.expr value)
    return none
  target value := do
    watch (.target value)
    return none

/-- A computation that, but for its value, watches a list of expressions and targets. -/
def Watches {α : Type} (watch : Shown → m Unit) (action : m α) (sights : List Shown) : Prop :=
  (fun _ => ()) <$> action = sights.forM watch

namespace Watches

variable [LawfulMonad m] {α β : Type} {watch : Shown → m Unit} {action : m α}
  {next : α → m β} {first second : List Shown}

theorem nothing (value : α) : Watches watch (pure value) [] := by
  simp [Watches]

theorem bind (here : Watches watch action first)
    (later : ∀ value, Watches watch (next value) second) :
    Watches watch (action >>= next) (first ++ second) := by
  unfold Watches
  calc (fun _ => ()) <$> (action >>= next)
      = action >>= fun value => (fun _ => ()) <$> next value := map_bind ..
    _ = action >>= fun _ => second.forM watch := bind_congr later
    _ = ((fun _ => ()) <$> action) >>= fun _ => second.forM watch :=
      (bind_map_left (fun _ => ()) action fun _ => second.forM watch).symm
    _ = first.forM watch >>= fun _ => second.forM watch := by rw [here]
    _ = (first ++ second).forM watch := List.forM_append.symm

/-- What a value is made into does not matter. -/
theorem give (here : Watches watch action first) (build : α → β) :
    Watches watch (action >>= fun value => pure (build value)) first := by
  have whole := here.bind fun value => nothing (build value)
  rwa [List.append_nil] at whole

theorem map (here : Watches watch action first) (build : α → β) :
    Watches watch (build <$> action) first := by
  rw [map_eq_pure_bind]
  exact here.give build

/-- An expression is shown before what is below it. -/
theorem expr {value : Expr} {below : m Expr} (rest : Watches watch below first) :
    Watches watch (orRevise ((Visitor.watching watch).expr value) below)
      (.expr value :: first) := by
  unfold Watches
  simp only [orRevise, Visitor.watching, bind_assoc, pure_bind, map_bind]
  rw [rest]
  rfl

theorem target {value : Expr} {below : m Expr} (rest : Watches watch below first) :
    Watches watch (orRevise ((Visitor.watching watch).target value) below)
      (.target value :: first) := by
  unfold Watches
  simp only [orRevise, Visitor.watching, bind_assoc, pure_bind, map_bind]
  rw [rest]
  rfl

end Watches

variable [LawfulMonad m]

namespace Expr

mutual

theorem revise_watches (watch : Shown → m Unit) :
    ∀ expr : Expr, Watches watch (expr.revise (.watching watch)) expr.shown
  | .name .. => .expr (.nothing _)
  | .literal .. => .expr (.nothing _)
  | .fstring _ _ parts => .expr ((reviseList_watches watch parts).give _)
  | .field _ value _ spec =>
    .expr ((revise_watches watch value).bind fun _ => (reviseOption_watches watch spec).give _)
  | .call callee arguments _ =>
    .expr ((revise_watches watch callee).bind fun _ =>
      (reviseArguments_watches watch arguments).give _)
  | .keyword _ _ value => .expr ((revise_watches watch value).give _)
  | .starred _ _ value => .expr ((revise_watches watch value).give _)
  | .member object _ _ => .expr ((revise_watches watch object).give _)
  | .subscript object key _ =>
    .expr ((revise_watches watch object).bind fun _ => (revise_watches watch key).give _)
  | .slice _ lower upper step =>
    .expr ((reviseOption_watches watch lower).bind fun _ =>
      (reviseOption_watches watch upper).bind fun _ => (reviseOption_watches watch step).give _)
  | .binary left _ _ right =>
    .expr ((revise_watches watch left).bind fun _ => (revise_watches watch right).give _)
  | .logical left _ _ right =>
    .expr ((revise_watches watch left).bind fun _ => (revise_watches watch right).give _)
  | .compare left _ rights =>
    .expr ((revise_watches watch left).bind fun _ => (reviseList_watches watch rights).give _)
  | .unary _ _ operand => .expr ((revise_watches watch operand).give _)
  | .conditional test whenTrue whenFalse =>
    .expr ((revise_watches watch test).bind fun _ =>
      (revise_watches watch whenTrue).bind fun _ => (revise_watches watch whenFalse).give _)
  | .lambda _ params body =>
    .expr ((reviseParams_watches watch params).bind fun _ => (revise_watches watch body).give _)
  | .list _ items _ => .expr ((reviseList_watches watch items).give _)
  | .tuple _ items _ => .expr ((reviseList_watches watch items).give _)
  | .set _ items _ => .expr ((reviseList_watches watch items).give _)
  | .dict _ items _ => .expr ((reviseList_watches watch items).give _)
  | .entry key value =>
    .expr ((revise_watches watch key).bind fun _ => (revise_watches watch value).give _)
  | .comprehension _ _ body clauses _ =>
    .expr ((reviseClauses_watches watch clauses).bind fun _ => (revise_watches watch body).give _)
  | .named _ value => .expr ((revise_watches watch value).give _)
  | .yield _ _ value => .expr ((reviseOption_watches watch value).give _)

theorem reviseTarget_watches (watch : Shown → m Unit) :
    ∀ target : Expr, Watches watch (target.reviseTarget (.watching watch)) target.shownAsTarget
  | .tuple _ items _ => .target ((reviseTargets_watches watch items).give _)
  | .list _ items _ => .target ((reviseTargets_watches watch items).give _)
  | .starred _ _ value => .target ((reviseTarget_watches watch value).give _)
  | .member object _ _ => .target ((revise_watches watch object).give _)
  | .subscript object key _ =>
    .target ((revise_watches watch object).bind fun _ => (revise_watches watch key).give _)
  | .name .. | .literal .. | .fstring .. | .field .. | .call .. | .keyword .. | .slice ..
  | .binary .. | .logical .. | .compare .. | .unary .. | .conditional .. | .lambda .. | .set ..
  | .dict .. | .entry .. | .comprehension .. | .named .. | .yield .. => .target (.nothing _)

theorem reviseOption_watches (watch : Shown → m Unit) :
    ∀ value : Option Expr,
      Watches watch (reviseOption (.watching watch) value) (shownOfOption value)
  | none => .nothing _
  | some value => (revise_watches watch value).give _

theorem reviseList_watches (watch : Shown → m Unit) :
    ∀ items : List Expr, Watches watch (reviseList (.watching watch) items) (shownOfList items)
  | [] => .nothing _
  | first :: rest =>
    (revise_watches watch first).bind fun _ => (reviseList_watches watch rest).give _

theorem reviseArguments_watches (watch : Shown → m Unit) :
    ∀ items : List Expr,
      Watches watch (reviseArguments (.watching watch) [] items) (shownOfList items)
  | [] => .nothing _
  | first :: rest => by
    have here : orRevise (pure none) (revise (.watching watch) first) =
        revise (.watching watch) first := pure_bind ..
    rw [reviseArguments, List.head?_nil, Option.getD_none, here]
    exact (revise_watches watch first).bind fun _ => (reviseArguments_watches watch rest).give _

theorem reviseTargets_watches (watch : Shown → m Unit) :
    ∀ items : List Expr,
      Watches watch (reviseTargets (.watching watch) items) (shownOfTargets items)
  | [] => .nothing _
  | first :: rest =>
    (reviseTarget_watches watch first).bind fun _ => (reviseTargets_watches watch rest).give _

theorem reviseParams_watches (watch : Shown → m Unit) :
    ∀ params : List Param,
      Watches watch (reviseParams (.watching watch) params) (shownOfParams params)
  | [] => .nothing _
  | .mk _ _ _ hint default :: rest =>
    (reviseOption_watches watch hint).bind fun _ =>
      (reviseOption_watches watch default).bind fun _ => (reviseParams_watches watch rest).give _

theorem reviseClauses_watches (watch : Shown → m Unit) :
    ∀ clauses : List Clause,
      Watches watch (reviseClauses (.watching watch) clauses) (shownOfClauses clauses)
  | [] => .nothing _
  | .loop _ target iterable :: rest =>
    (revise_watches watch iterable).bind fun _ =>
      (reviseTarget_watches watch target).bind fun _ => (reviseClauses_watches watch rest).give _
  | .filter _ test :: rest =>
    (revise_watches watch test).bind fun _ => (reviseClauses_watches watch rest).give _

end

theorem withItems_watches (watch : Shown → m Unit) :
    ∀ items : List WithItem,
      Watches watch (Pass.withItems (.watching watch) items) (shownOfItems items)
  | [] => .nothing _
  | ⟨manager, none⟩ :: rest =>
    (revise_watches watch manager).bind fun _ =>
      (Watches.nothing none).bind fun _ => (withItems_watches watch rest).give _
  | ⟨manager, some target⟩ :: rest =>
    (revise_watches watch manager).bind fun _ =>
      ((reviseTarget_watches watch target).map some).bind fun _ =>
        (withItems_watches watch rest).give _

end Expr

namespace Stmt

open Unsugar.Expr (revise_watches reviseTarget_watches reviseOption_watches reviseList_watches
  reviseTargets_watches reviseParams_watches withItems_watches)

theorem reviseSimple_watches (watch : Shown → m Unit) {stmt : Stmt}
    (simple : stmt.isSimple = true) :
    Watches watch (stmt.reviseSimple (.watching watch)) stmt.shown :=
  match stmt, simple with
  | .expression value, _ => (revise_watches watch value).give _
  | .assign targets value, _ =>
    (revise_watches watch value).bind fun _ => (reviseTargets_watches watch targets).give _
  | .augAssign target _ value, _ =>
    (reviseTarget_watches watch target).bind fun _ => (revise_watches watch value).give _
  | .annAssign target hint value, _ =>
    (reviseTarget_watches watch target).bind fun _ =>
      (revise_watches watch hint).bind fun _ => (reviseOption_watches watch value).give _
  | .delete _ targets, _ => (reviseTargets_watches watch targets).give _
  | .branch .., _ => .nothing _
  | .returns _ result, _ => (reviseOption_watches watch result).give _
  | .raises _ exception cause, _ =>
    (reviseOption_watches watch exception).bind fun _ => (reviseOption_watches watch cause).give _
  | .declare .., _ => .nothing _
  | .asserts _ test message, _ =>
    (revise_watches watch test).bind fun _ => (reviseOption_watches watch message).give _
  | .imports .., _ => .nothing _
  | .importFrom .., _ => .nothing _

mutual

theorem stmt_watches (watch : Shown → m Unit) (next : Option Stmt) :
    ∀ stmt : Stmt, Watches watch ((Pass.everywhere (.watching watch)).stmt () next stmt) stmt.shown
  | .conditional _ test body _ orelse =>
    (revise_watches watch test).bind fun _ =>
      (body_watches watch body).bind fun _ => (body_watches watch orelse).give _
  | .whileLoop _ test body orelse =>
    (revise_watches watch test).bind fun _ =>
      (body_watches watch body).bind fun _ => (body_watches watch orelse).give _
  | .forLoop _ target iterable body orelse =>
    (revise_watches watch iterable).bind fun _ =>
      (reviseTarget_watches watch target).bind fun _ =>
        (body_watches watch body).bind fun _ => (body_watches watch orelse).give _
  | .tryBlock _ body handlers orelse final =>
    (body_watches watch body).bind fun _ =>
      (handlers_watches watch handlers).bind fun _ =>
        (body_watches watch orelse).bind fun _ => (body_watches watch final).give _
  | .withBlock _ items body =>
    (withItems_watches watch items).bind fun _ => (body_watches watch body).give _
  | .function decorators _ _ params result body => by
    simp only [Pass.stmt, Pass.everywhere, bind_assoc, pure_bind]
    exact (reviseList_watches watch decorators).bind fun _ =>
      (reviseParams_watches watch params).bind fun _ =>
        (reviseOption_watches watch result).bind fun _ => (body_watches watch body).give _
  | .classDef decorators _ _ bases body => by
    simp only [Pass.stmt, Pass.everywhere, bind_assoc, pure_bind]
    exact (reviseList_watches watch decorators).bind fun _ =>
      (reviseList_watches watch bases).bind fun _ => (body_watches watch body).give _
  | .expression .. | .assign .. | .augAssign .. | .annAssign .. | .delete .. | .branch ..
  | .returns .. | .raises .. | .declare .. | .asserts .. | .imports .. | .importFrom .. =>
    (reviseSimple_watches watch rfl).give _

/-- A visitor that replaces nothing goes through a body along what it is shown. -/
theorem body_watches (watch : Shown → m Unit) :
    ∀ body : List Stmt,
      Watches watch ((Pass.everywhere (.watching watch)).body () body) (shownOfBody body)
  | [] => .nothing _
  | first :: rest =>
    (stmt_watches watch rest.head? first).bind fun _ => (body_watches watch rest).give _

theorem handlers_watches (watch : Shown → m Unit) :
    ∀ handlers : List Handler,
      Watches watch ((Pass.everywhere (.watching watch)).handlers () handlers)
        (shownOfHandlers handlers)
  | [] => .nothing _
  | .mk _ type _ body :: rest =>
    (reviseOption_watches watch type).bind fun _ =>
      (body_watches watch body).bind fun _ => (handlers_watches watch rest).give _

end

end Stmt
end Unsugar
