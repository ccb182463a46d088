import Unsugar.Closure
import Unsugar.Proofs.Scope.Definitions
import Unsugar.Proofs.Tree.Revision
import Unsugar.Proofs.Tree.Related

/-! Every definition that a pass reaches has its scope. A pass that goes through a module
with its scopes is made to keep a record of the definitions it reaches and of the scopes it
goes on with; the record changes nothing, and it is the one that the tree of scopes
foretells. -/

namespace Unsugar

variable {m : Type → Type} [Monad m]

/-! ## Keeping a record -/

/-- Computations that go through a body and keep a record of the definitions they reach. -/
abbrev Recorded (m : Type → Type) := StateT (List Reach) (Descent m)

/-- The visitor that does the same without an effect on the record. -/
def Visitor.recorded (visitor : Visitor (Descent m)) : Visitor (Recorded m) where
  expr value := liftM (visitor.expr value)
  target value := liftM (visitor.target value)
  arguments := visitor.arguments

/-- The scopes of the definitions still ahead. -/
def Descent.ahead : Descent m (List Scope) :=
  get

namespace Reach

/-- Enters a definition and records it. The scope that is found is the one that is gone on
with, if there is one ahead. -/
def record {α ε : Type} (opened : ε → Opened) (around : ε) (kind : ScopeKind) (position : Position)
    (enter : Descent m (α × Option ε)) : Recorded m (α × Option ε) := do
  let ahead ← (liftM (Descent.ahead : Descent m _) : Recorded m _)
  let (head, inner) ← (liftM enter : Recorded m _)
  let found := if ahead.isEmpty then none else inner.map fun inner => (opened inner).scope
  modify (· ++ [⟨(opened around).scope, kind, position, found⟩])
  return (head, inner)

end Reach

/-- The pass that does the same and keeps a record of the definitions it reaches. -/
def Pass.recorded {ε : Type} (opened : ε → Opened) (pass : Pass (Descent m) ε) :
    Pass (Recorded m) ε where
  visitor env := (pass.visitor env).recorded
  test env expr := liftM (pass.test env expr)
  simple env stmt := liftM (pass.simple env stmt)
  enterFunction env head body :=
    Reach.record opened env .functionScope head.position (pass.enterFunction env head body)
  leaveFunction outer inner next head body := liftM (pass.leaveFunction outer inner next head body)
  enterClass env head :=
    Reach.record opened env .classScope head.position (pass.enterClass env head)
  leaveClass outer inner head body := liftM (pass.leaveClass outer inner head body)

/-! ## Judgements -/

section

variable [LawfulMonad m] {α β : Type} {holds : α → Prop} {result : β → Prop}
  {before middle after : List Scope}

/-- All values of a computation have a property: it is made from one whose values carry
it. -/
def Ensures (holds : α → Prop) (action : m α) : Prop :=
  ∃ core : m {value // holds value}, action = Subtype.val <$> core

namespace Ensures

theorem pure {value : α} (valid : holds value) : Ensures holds (Pure.pure value : m α) :=
  ⟨Pure.pure ⟨value, valid⟩, by simp⟩

theorem any (action : m α) : Ensures (fun _ => True) action :=
  ⟨(fun value => ⟨value, trivial⟩) <$> action, by simp⟩

theorem bind {action : m α} {next : α → m β} (first : Ensures holds action)
    (rest : ∀ value, holds value → Ensures result (next value)) :
    Ensures result (action >>= next) := by
  obtain ⟨core, same⟩ := first
  choose later sames using rest
  refine ⟨core >>= fun value => later value.1 value.2, ?_⟩
  rw [same, map_bind, bind_map_left]
  exact bind_congr fun value => sames value.1 value.2

/-- Whatever a computation gives, what comes after it decides. -/
theorem skip {action : m α} {next : α → m β} (rest : ∀ value, Ensures result (next value)) :
    Ensures result (action >>= next) :=
  (any action).bind fun value _ => rest value

end Ensures

namespace Descent

/-- A computation that leads from some scopes ahead to others, and whose values have a
property. -/
def Leads (holds : α → Prop) (before after : List Scope) (action : Descent m α) : Prop :=
  Ensures (fun result => holds result.1 ∧ result.2 = after) (StateT.run action before)

namespace Leads

theorem pure {value : α} (valid : holds value) :
    Leads holds before before (Pure.pure value : Descent m α) :=
  Ensures.pure ⟨valid, rfl⟩

theorem bind {action : Descent m α} {next : α → Descent m β}
    (first : Leads holds before middle action)
    (rest : ∀ value, holds value → Leads result middle after (next value)) :
    Leads result before after (action >>= next) := by
  unfold Leads
  rw [StateT.run_bind]
  refine Ensures.bind first ?_
  rintro ⟨value, _⟩ ⟨valid, rfl⟩
  exact rest value valid

/-- A computation that does not look at the scopes ahead. -/
theorem lift {action : m α} (given : Ensures holds action) :
    Leads holds before before (liftM action : Descent m α) := by
  change Ensures _ (action >>= fun value => Pure.pure (value, before))
  exact given.bind fun value valid => .pure ⟨valid, rfl⟩

theorem enter {scope : Scope} {later : List Scope} (around : Opened) :
    Leads (· = ⟨scope, around.enclosing, later⟩) (scope :: later) scope.children
      (Descent.enter around : Descent m Opened) := by
  have entered : StateT.run (Descent.enter around : Descent m Opened) (scope :: later) =
      Pure.pure (⟨scope, around.enclosing, later⟩, scope.children) := by
    simp [Descent.enter]
  unfold Leads
  rw [entered]
  exact .pure ⟨rfl, rfl⟩

theorem leave (opened : Opened) :
    Leads (fun _ => True) before opened.later (Descent.leave opened : Descent m Unit) :=
  Ensures.pure ⟨trivial, rfl⟩

/-- The values of a computation that leads from some scopes ahead to others. -/
theorem core {action : Descent m α} (given : Leads holds before after action) :
    ∃ core : m {value // holds value},
      StateT.run action before = (fun value => (value.1, after)) <$> core := by
  obtain ⟨core, same⟩ := given
  refine ⟨(fun result => ⟨result.1.1, result.2.1⟩) <$> core, ?_⟩
  rw [same, ← comp_map]
  congr 1
  funext ⟨⟨value, _⟩, valid, rfl⟩
  rfl

end Leads
end Descent

open Descent (Leads)

/-- A computation that keeps a record and one that does not do the same, and lead from some
scopes ahead to others; the record grows by `entries`, and the values have a property. -/
def Records (holds : α → Prop) (entries : List Reach) (before after : List Scope)
    (recorded : Recorded m α) (action : Descent m α) : Prop :=
  ∃ core : m {value // holds value},
    StateT.run action before = (fun value => (value.1, after)) <$> core ∧
    ∀ log, StateT.run (StateT.run recorded log) before =
      (fun value => ((value.1, log ++ entries), after)) <$> core

namespace Records

variable {entries more : List Reach} {recorded : Recorded m α} {action : Descent m α}
  {next : α → Recorded m β} {later : α → Descent m β}

theorem pure {value : α} (valid : holds value) :
    Records holds [] before before (Pure.pure value) (Pure.pure value : Descent m α) :=
  ⟨Pure.pure ⟨value, valid⟩, by simp, by simp⟩

theorem bind (first : Records holds entries before middle recorded action)
    (rest : ∀ value, holds value → Records result more middle after (next value) (later value)) :
    Records result (entries ++ more) before after (recorded >>= next) (action >>= later) := by
  obtain ⟨core, same, sameRecorded⟩ := first
  choose cores sames samesRecorded using rest
  refine ⟨core >>= fun value => cores value.1 value.2, ?_, fun log => ?_⟩
  · rw [StateT.run_bind, same, map_bind, bind_map_left]
    exact bind_congr fun value => sames value.1 value.2
  · rw [StateT.run_bind, StateT.run_bind, sameRecorded, map_bind, bind_map_left]
    refine bind_congr fun value => ?_
    rw [samesRecorded value.1 value.2, List.append_assoc]

/-- A computation that reaches no definition leaves the record as it is. -/
theorem lift (leads : Leads holds before after action) :
    Records holds [] before after (liftM action) action := by
  obtain ⟨core, same⟩ := leads.core
  refine ⟨core, same, fun log => ?_⟩
  simp [same]

/-- What a value is made into does not matter. -/
theorem give (given : Records holds entries before after recorded action) (build : α → β)
    (implies : ∀ value, holds value → result (build value)) :
    Records result entries before after (recorded >>= fun value => Pure.pure (build value))
      (action >>= fun value => Pure.pure (build value)) := by
  have whole := given.bind fun value valid => pure (implies value valid)
  rwa [List.append_nil] at whole

/-- What a computation does to the scopes ahead, whatever becomes of the record. -/
theorem leads (given : Records holds entries before after recorded action) :
    Leads holds before after action := by
  obtain ⟨core, same, _⟩ := given
  refine ⟨(fun value => ⟨(value.1, after), value.2, rfl⟩) <$> core, ?_⟩
  rw [same, ← comp_map]
  rfl

end Records

/-- Doing the same, with no definition reached and the same scopes ahead. -/
def quietly : MonadRelation (Recorded m) (Descent m) where
  Related recorded action :=
    ∀ ahead, Records (fun _ => True) [] ahead ahead recorded action
  pure _ _ := Records.pure trivial
  bind first rest ahead := Records.bind (first ahead) fun value _ => rest value ahead

/-- What a pass goes on with in a definition that it enters. -/
def Enters {ε : Type} (opened : ε → Opened) (around : ε) (scope : Scope) (later : List Scope)
    (entered : α × Option ε) : Prop :=
  ∃ inner, entered.2 = some inner ∧ opened inner = ⟨scope, (opened around).enclosing, later⟩

/-- The definition that is entered is recorded, with the scope in front. -/
theorem Reach.record_records {ε : Type} {opened : ε → Opened} {around : ε} {kind : ScopeKind}
    {position : Position} {scope : Scope} {later : List Scope} {enter : Descent m (α × Option ε)}
    {holds : α × Option ε → Prop} (leads : Leads holds (scope :: later) scope.children enter)
    (enters : ∀ entered, holds entered → Enters opened around scope later entered) :
    Records holds [⟨(opened around).scope, kind, position, some scope⟩] (scope :: later)
      scope.children (Reach.record opened around kind position enter) enter := by
  obtain ⟨core, same⟩ := leads.core
  refine ⟨core, same, fun log => ?_⟩
  have entered : ∀ value : {value // holds value},
      value.1.2.map (fun inner => (opened inner).scope) = some scope := by
    intro value
    obtain ⟨inner, present, found⟩ := enters value.1 value.2
    rw [present, Option.map_some, found]
  have ahead : StateT.run (Descent.ahead : Descent m _) (scope :: later) =
    Pure.pure (scope :: later, scope :: later) := rfl
  simp [Reach.record, ahead, same, entered]

/-! ## Passes -/

/-- A pass that goes through a module with its scopes. The definitions of a body and those
of what it becomes are linked. -/
structure Follows {ε : Type} (opened : ε → Opened) (pass : Pass (Descent m) ε)
    (links : List DefinitionTree → List DefinitionTree → Prop) : Prop where
  nil : links [] []
  append : ∀ {first first' second second'}, links first first' → links second second' →
    links (first ++ second) (first' ++ second')
  expr : ∀ env value ahead, Leads (fun _ => True) ahead ahead ((pass.visitor env).expr value)
  target : ∀ env value ahead, Leads (fun _ => True) ahead ahead ((pass.visitor env).target value)
  test : ∀ env expr ahead, Leads (fun _ => True) ahead ahead (pass.test env expr)
  simple : ∀ env (stmt : Stmt) ahead, stmt.isSimple = true →
    Leads (fun after => links [] (Stmt.definitionTreesOfBody after)) ahead ahead
      (pass.simple env stmt)
  enterFunction : ∀ env head body scope later,
    Leads (fun entered => entered.1.position = head.position ∧
      Enters opened env scope later entered) (scope :: later) scope.children
      (pass.enterFunction env head body)
  leaveFunction : ∀ outer inner next head trees body ahead,
    links trees (Stmt.definitionTreesOfBody body) →
    Leads (fun after => links [.mk .functionScope head.position trees]
      (Stmt.definitionTreesOfBody after)) ahead (opened inner).later
      (pass.leaveFunction outer inner next head body)
  enterClass : ∀ env head scope later,
    Leads (fun entered => entered.1.position = head.position ∧
      Enters opened env scope later entered) (scope :: later) scope.children
      (pass.enterClass env head)
  leaveClass : ∀ outer inner head trees body ahead,
    links trees (Stmt.definitionTreesOfBody body) →
    Leads (fun after => links [.mk .classScope head.position trees]
      (Stmt.definitionTreesOfBody after)) ahead (opened inner).later
      (pass.leaveClass outer inner head body)

variable {ε : Type} {opened : ε → Opened} {pass : Pass (Descent m) ε}
  {links : List DefinitionTree → List DefinitionTree → Prop}

namespace Follows

open Stmt Scope

theorem visitor (follows : Follows opened pass links) (env : ε) :
    (pass.visitor env).recorded.Related quietly (pass.visitor env) where
  expr value ahead := .lift (follows.expr env value ahead)
  target value ahead := .lift (follows.target env value ahead)
  arguments := rfl

/-- A body becomes another one with linked definitions. -/
abbrev Becomes (links : List DefinitionTree → List DefinitionTree → Prop)
    (trees : List DefinitionTree) (after : List Stmt) : Prop :=
  links trees (definitionTreesOfBody after)

theorem single_becomes {trees : List DefinitionTree} {stmt : Stmt}
    (linked : links trees (definitionTrees stmt)) : Becomes links trees [stmt] := by
  simpa [Becomes, definitionTreesOfBody] using linked

theorem simple_records (follows : Follows opened pass links) {env : ε} {next : Option Stmt}
    {stmt : Stmt} {here later : List Scope} (simple : stmt.isSimple = true)
    (step : pass.stmt env next stmt = pass.simple env stmt)
    (stepRecorded : (pass.recorded opened).stmt env next stmt =
      (pass.recorded opened).simple env stmt)
    (none : definitionTrees stmt = []) (serve : ServeAll here (definitionTrees stmt)) :
    Records (Becomes links (definitionTrees stmt))
      (reaches (opened env).scope here (definitionTrees stmt)) (here ++ later) later
      ((pass.recorded opened).stmt env next stmt) (pass.stmt env next stmt) := by
  rw [none] at serve ⊢
  rw [step, stepRecorded, serve.eq_nil, reaches_nil]
  exact .lift (follows.simple env stmt later simple)

mutual

/-- Going through a statement, a pass reaches its definitions, each with its scope, and uses
up the scopes. -/
theorem stmt_records (follows : Follows opened pass links) :
    ∀ (env : ε) (next : Option Stmt) (stmt : Stmt) (here later : List Scope),
      ServeAll here (definitionTrees stmt) →
      Records (Becomes links (definitionTrees stmt))
        (reaches (opened env).scope here (definitionTrees stmt)) (here ++ later) later
        ((pass.recorded opened).stmt env next stmt) (pass.stmt env next stmt)
  | env, _, .conditional position test body elsePosition orelse, here, later, serve => by
    obtain ⟨first, second, rfl, firstServe, secondServe⟩ := serve.split
    rw [definitionTrees, reaches_append firstServe, Pass.stmt, Pass.stmt, List.append_assoc]
    refine (Records.lift (follows.test env test _)).bind fun test' _ => ?_
    refine (body_records follows env body first _ firstServe).bind fun body' linked => ?_
    refine (body_records follows env orelse second _ secondServe).give _ fun orelse' others => ?_
    exact single_becomes (follows.append linked others)
  | env, _, .whileLoop position test body orelse, here, later, serve => by
    obtain ⟨first, second, rfl, firstServe, secondServe⟩ := serve.split
    rw [definitionTrees, reaches_append firstServe, Pass.stmt, Pass.stmt, List.append_assoc]
    refine (Records.lift (follows.test env test _)).bind fun test' _ => ?_
    refine (body_records follows env body first _ firstServe).bind fun body' linked => ?_
    refine (body_records follows env orelse second _ secondServe).give _ fun orelse' others => ?_
    exact single_becomes (follows.append linked others)
  | env, _, .forLoop position target iterable body orelse, here, later, serve => by
    obtain ⟨first, second, rfl, firstServe, secondServe⟩ := serve.split
    rw [definitionTrees, reaches_append firstServe, Pass.stmt, Pass.stmt, List.append_assoc]
    refine (Expr.revise_related (follows.visitor env) iterable _).bind fun iterable' _ => ?_
    refine (Expr.reviseTarget_related (follows.visitor env) target _).bind fun target' _ => ?_
    refine (body_records follows env body first _ firstServe).bind fun body' linked => ?_
    refine (body_records follows env orelse second _ secondServe).give _ fun orelse' others => ?_
    exact single_becomes (follows.append linked others)
  | env, _, .tryBlock position body handlers orelse final, here, later, serve => by
    obtain ⟨most, fourth, rfl, mostServe, fourthServe⟩ := serve.split
    obtain ⟨both, third, rfl, bothServe, thirdServe⟩ := mostServe.split
    obtain ⟨first, second, rfl, firstServe, secondServe⟩ := bothServe.split
    have reached : reaches (opened env).scope (first ++ second ++ third ++ fourth)
        (definitionTrees (.tryBlock position body handlers orelse final)) =
        reaches (opened env).scope first (definitionTreesOfBody body) ++
          (reaches (opened env).scope second (definitionTreesOfHandlers handlers) ++
            (reaches (opened env).scope third (definitionTreesOfBody orelse) ++
              reaches (opened env).scope fourth (definitionTreesOfBody final))) := by
      rw [definitionTrees, reaches_append mostServe, reaches_append bothServe,
        reaches_append firstServe, List.append_assoc, List.append_assoc]
    have ahead : first ++ second ++ third ++ fourth ++ later =
        first ++ (second ++ (third ++ (fourth ++ later))) := by
      simp only [List.append_assoc]
    rw [reached, ahead, Pass.stmt, Pass.stmt]
    refine (body_records follows env body first _ firstServe).bind fun body' linked => ?_
    refine (handlers_record follows env handlers second _ secondServe).bind
      fun handlers' handled => ?_
    refine (body_records follows env orelse third _ thirdServe).bind fun orelse' others => ?_
    refine (body_records follows env final fourth _ fourthServe).give _ fun final' last => ?_
    exact single_becomes
      (follows.append (follows.append (follows.append linked handled) others) last)
  | env, _, .withBlock position items body, here, later, serve => by
    rw [Pass.stmt, Pass.stmt]
    refine (Pass.withItems_related (follows.visitor env) items _).bind fun items' _ => ?_
    exact (body_records follows env body here _ serve).give _ fun body' linked =>
      single_becomes linked
  | env, next, .function decorators position ident params result body, here, later, serve => by
    obtain ⟨scope, rfl, serves⟩ := serve.single
    rw [definitionTrees, reaches_single, Pass.stmt, Pass.stmt]
    refine (Reach.record_records (follows.enterFunction env _ body scope later)
      fun _ => And.right).bind ?_
    rintro ⟨head, _⟩ ⟨place, inner, rfl, found⟩
    have inside := body_records follows inner body scope.children [] serves.children
    rw [found, List.append_nil] at inside
    rw [← List.append_nil (reaches scope _ _)]
    refine inside.bind fun body' linked => ?_
    have left := follows.leaveFunction env inner next head _ body' [] linked
    rw [place, found] at left
    exact .lift left
  | env, _, .classDef decorators position ident bases body, here, later, serve => by
    obtain ⟨scope, rfl, serves⟩ := serve.single
    rw [definitionTrees, reaches_single, Pass.stmt, Pass.stmt]
    refine (Reach.record_records (follows.enterClass env _ scope later) fun _ => And.right).bind ?_
    rintro ⟨head, _⟩ ⟨place, inner, rfl, found⟩
    have inside := body_records follows inner body scope.children [] serves.children
    rw [found, List.append_nil] at inside
    rw [← List.append_nil (reaches scope _ _)]
    refine inside.bind fun body' linked => ?_
    have left := follows.leaveClass env inner head _ body' [] linked
    rw [place, found] at left
    exact .lift left
  | _, _, .expression .., _, _, serve => simple_records follows rfl rfl rfl rfl serve
  | _, _, .assign .., _, _, serve => simple_records follows rfl rfl rfl rfl serve
  | _, _, .augAssign .., _, _, serve => simple_records follows rfl rfl rfl rfl serve
  | _, _, .annAssign .., _, _, serve => simple_records follows rfl rfl rfl rfl serve
  | _, _, .delete .., _, _, serve => simple_records follows rfl rfl rfl rfl serve
  | _, _, .branch .., _, _, serve => simple_records follows rfl rfl rfl rfl serve
  | _, _, .returns .., _, _, serve => simple_records follows rfl rfl rfl rfl serve
  | _, _, .raises .., _, _, serve => simple_records follows rfl rfl rfl rfl serve
  | _, _, .declare .., _, _, serve => simple_records follows rfl rfl rfl rfl serve
  | _, _, .asserts .., _, _, serve => simple_records follows rfl rfl rfl rfl serve
  | _, _, .imports .., _, _, serve => simple_records follows rfl rfl rfl rfl serve
  | _, _, .importFrom .., _, _, serve => simple_records follows rfl rfl rfl rfl serve

theorem body_records (follows : Follows opened pass links) :
    ∀ (env : ε) (body : List Stmt) (here later : List Scope),
      ServeAll here (definitionTreesOfBody body) →
      Records (Becomes links (definitionTreesOfBody body))
        (reaches (opened env).scope here (definitionTreesOfBody body)) (here ++ later) later
        ((pass.recorded opened).body env body) (pass.body env body)
  | env, [], here, later, serve => by
    rw [serve.eq_nil, reaches_nil]
    exact .pure follows.nil
  | env, first :: rest, here, later, serve => by
    obtain ⟨front, back, rfl, frontServe, backServe⟩ := serve.split
    rw [definitionTreesOfBody, reaches_append frontServe, Pass.body, Pass.body, List.append_assoc]
    refine (stmt_records follows env _ first front _ frontServe).bind fun here' linked => ?_
    refine (body_records follows env rest back _ backServe).give _ fun rest' others => ?_
    rw [Becomes, definitionTreesOfBody_append]
    exact follows.append linked others

theorem handlers_record (follows : Follows opened pass links) :
    ∀ (env : ε) (handlers : List Handler) (here later : List Scope),
      ServeAll here (definitionTreesOfHandlers handlers) →
      Records (fun after => links (definitionTreesOfHandlers handlers)
          (definitionTreesOfHandlers after))
        (reaches (opened env).scope here (definitionTreesOfHandlers handlers)) (here ++ later) later
        ((pass.recorded opened).handlers env handlers) (pass.handlers env handlers)
  | env, [], here, later, serve => by
    rw [serve.eq_nil, reaches_nil]
    exact .pure follows.nil
  | env, .mk position type ident body :: rest, here, later, serve => by
    obtain ⟨front, back, rfl, frontServe, backServe⟩ := serve.split
    rw [definitionTreesOfHandlers, reaches_append frontServe, Pass.handlers, Pass.handlers,
      List.append_assoc]
    refine (Expr.reviseOption_related (follows.visitor env) type _).bind fun type' _ => ?_
    refine (body_records follows env body front _ frontServe).bind fun body' linked => ?_
    refine (handlers_record follows env rest back _ backServe).give _ fun rest' others => ?_
    exact follows.append linked others

end

end Follows
end
end Unsugar
