import Unsugar.Proofs.Scope.Binding

/-! What holds of collecting the names of a body, whatever the body is made of. All that
collecting does is to note bindings, uses and declarations one at a time, so a judgement
that holds of each such step, and of steps put together, holds of it. -/

namespace Unsugar

/-! ## Declarations -/

namespace Stmt

mutual

/-- The names that a statement declares, in order. Those that a definition in it declares
are left out. -/
def declarations : Stmt → List (Declaration × String)
  | declare _ declaration idents => idents.map fun ident => (declaration, ident.name)
  | conditional _ _ body _ orelse => declarationsOfBody body ++ declarationsOfBody orelse
  | whileLoop _ _ body orelse => declarationsOfBody body ++ declarationsOfBody orelse
  | forLoop _ _ _ body orelse => declarationsOfBody body ++ declarationsOfBody orelse
  | tryBlock _ body handlers orelse final =>
    declarationsOfBody body ++ (declarationsOfHandlers handlers ++
      (declarationsOfBody orelse ++ declarationsOfBody final))
  | withBlock _ _ body => declarationsOfBody body
  | _ => []

def declarationsOfBody : List Stmt → List (Declaration × String)
  | [] => []
  | first :: rest => declarations first ++ declarationsOfBody rest

def declarationsOfHandlers : List Handler → List (Declaration × String)
  | [] => []
  | .mk _ _ _ body :: rest => declarationsOfBody body ++ declarationsOfHandlers rest

end

end Stmt

/-! ## Judgements -/

namespace Collector

variable {α β : Type} {kind : ScopeKind}

/-- A judgement on collectors and the declarations that they follow, for a body of a kind,
that holds of each step of collecting and of collectors put together. -/
structure Closed (kind : ScopeKind)
    (holds : {α : Type} → List (Declaration × String) → Collector α → Prop) : Prop where
  pure : ∀ {α : Type} (value : α), holds [] (Pure.pure value)
  bind : ∀ {α β : Type} {first second : List (Declaration × String)} {collector : Collector α}
    {next : α → Collector β}, holds first collector → (∀ value, holds second (next value)) →
      holds (first ++ second) (collector >>= next)
  binds : ∀ name, holds [] (Collector.bind name)
  uses : ∀ name, holds [] (Collector.use name)
  defines : ∀ name, holds [] (do
    Collector.bind name
    modify fun names => { names with functions := insertNew name names.functions })
  declares : ∀ declaration (idents : List Ident),
    holds (idents.map fun ident => (declaration, ident.name))
      (modify fun names => idents.foldl (Names.declare kind declaration) names)

variable {holds : {α : Type} → List (Declaration × String) → Collector α → Prop}

-- Theorems about collectors take the judgement also where they need it only through
-- others.
set_option linter.unusedSectionVars false

namespace Closed

variable (closed : Closed kind @holds)

include closed

/-- A collector that follows no declarations, and then another one. -/
theorem seq {declared : List (Declaration × String)} {collector : Collector α}
    {next : α → Collector β} (first : holds [] collector)
    (rest : ∀ value, holds declared (next value)) : holds declared (collector >>= next) :=
  closed.bind first rest

theorem forM {items : List α} {collector : α → Collector Unit}
    (each : ∀ item, holds [] (collector item)) : holds [] (items.forM collector) := by
  induction items with
  | nil => exact closed.pure ()
  | cons first rest induction => exact closed.seq (each first) fun _ => induction

theorem ite {condition : Prop} [Decidable condition] {declared : List (Declaration × String)}
    {first second : Collector α} (whenTrue : holds declared first)
    (whenFalse : holds declared second) :
    holds declared (if condition then first else second) := by
  split
  · exact whenTrue
  · exact whenFalse

end Closed

variable (closed : Closed kind @holds)

include closed

/-! ## Expressions -/

mutual

theorem free_closed (exports : Bool) : ∀ (hidden : List String) (value : Expr),
    holds [] (free exports hidden value)
  | hidden, .name _ id => by
    rw [free]
    exact closed.ite (closed.seq (closed.uses id) fun _ => closed.pure hidden) (closed.pure hidden)
  | hidden, .named target value => by
    rw [free]
    split
    · exact closed.seq (closed.binds target.name) fun _ => free_closed exports _ value
    · exact closed.ite (closed.seq (closed.uses target.name) fun _ =>
      free_closed exports hidden value)
        (free_closed exports hidden value)
  | hidden, .lambda _ params body =>
    closed.seq (freeDefaults_closed exports hidden params) fun after =>
      closed.seq (free_closed false _ body) fun _ => closed.pure after
  | hidden, .literal .. => closed.pure hidden
  | hidden, .fstring _ _ parts => freeList_closed exports hidden parts
  | hidden, .field _ value _ spec =>
    closed.seq (free_closed exports hidden value) fun hidden =>
      freeOption_closed exports hidden spec
  | hidden, .call callee arguments _ =>
    closed.seq (free_closed exports hidden callee) fun hidden =>
      freeList_closed exports hidden arguments
  | hidden, .keyword _ _ value => free_closed exports hidden value
  | hidden, .starred _ _ value => free_closed exports hidden value
  | hidden, .member object _ _ => free_closed exports hidden object
  | hidden, .subscript object key _ =>
    closed.seq (free_closed exports hidden object) fun hidden => free_closed exports hidden key
  | hidden, .slice _ lower upper step =>
    closed.seq (freeOption_closed exports hidden lower) fun hidden =>
      closed.seq (freeOption_closed exports hidden upper) fun hidden =>
        freeOption_closed exports hidden step
  | hidden, .binary left _ _ right =>
    closed.seq (free_closed exports hidden left) fun hidden => free_closed exports hidden right
  | hidden, .logical left _ _ right =>
    closed.seq (free_closed exports hidden left) fun hidden => free_closed exports hidden right
  | hidden, .compare left _ rights =>
    closed.seq (free_closed exports hidden left) fun hidden => freeList_closed exports hidden rights
  | hidden, .unary _ _ operand => free_closed exports hidden operand
  | hidden, .conditional test whenTrue whenFalse =>
    closed.seq (free_closed exports hidden test) fun hidden =>
      closed.seq (free_closed exports hidden whenTrue) fun hidden =>
        free_closed exports hidden whenFalse
  | hidden, .list _ items _ => freeList_closed exports hidden items
  | hidden, .tuple _ items _ => freeList_closed exports hidden items
  | hidden, .set _ items _ => freeList_closed exports hidden items
  | hidden, .dict _ items _ => freeList_closed exports hidden items
  | hidden, .entry key value =>
    closed.seq (free_closed exports hidden key) fun hidden => free_closed exports hidden value
  | hidden, .comprehension _ _ body clauses _ =>
    closed.seq (free_closed exports hidden body) fun hidden =>
      freeClauses_closed exports hidden clauses
  | hidden, .yield _ _ value => freeOption_closed exports hidden value

theorem freeOption_closed (exports : Bool) : ∀ (hidden : List String) (value : Option Expr),
    holds [] (freeOption exports hidden value)
  | hidden, none => closed.pure hidden
  | hidden, some value => free_closed exports hidden value

theorem freeList_closed (exports : Bool) : ∀ (hidden : List String) (items : List Expr),
    holds [] (freeList exports hidden items)
  | hidden, [] => closed.pure hidden
  | hidden, first :: rest =>
    closed.seq (free_closed exports hidden first) fun hidden => freeList_closed exports hidden rest

theorem freeDefaults_closed (exports : Bool) : ∀ (hidden : List String) (params : List Param),
    holds [] (freeDefaults exports hidden params)
  | hidden, [] => closed.pure hidden
  | hidden, .mk _ _ _ _ default :: rest =>
    closed.seq (freeOption_closed exports hidden default) fun hidden =>
      freeDefaults_closed exports hidden rest

theorem freeClauses_closed (exports : Bool) : ∀ (hidden : List String) (clauses : List Clause),
    holds [] (freeClauses exports hidden clauses)
  | hidden, [] => closed.pure hidden
  | hidden, .loop _ target iterable :: rest =>
    closed.seq (free_closed exports hidden target) fun hidden =>
      closed.seq (free_closed exports hidden iterable) fun hidden =>
        freeClauses_closed exports hidden rest
  | hidden, .filter _ test :: rest =>
    closed.seq (free_closed exports hidden test) fun hidden =>
      freeClauses_closed exports hidden rest

end

theorem laterClauses_closed : ∀ (hidden : List String) (clauses : List Clause),
    holds [] (laterClauses hidden clauses)
  | hidden, [] => closed.pure hidden
  | hidden, .loop _ _ iterable :: rest =>
    closed.seq (free_closed closed true hidden iterable) fun _ => laterClauses_closed _ rest
  | hidden, .filter _ test :: rest =>
    closed.seq (free_closed closed true hidden test) fun _ => laterClauses_closed _ rest

mutual

theorem expr_closed : ∀ value : Expr, holds [] (expr value)
  | .name _ id => closed.uses id
  | .named target value => closed.seq (expr_closed value) fun _ => closed.binds target.name
  | .lambda _ params body =>
    closed.seq (defaults_closed params) fun _ =>
      closed.seq (free_closed closed false _ body) fun _ => closed.pure ()
  | .fstring _ _ parts => closed.seq (freeList_closed closed true [] parts) fun _ => closed.pure ()
  | .comprehension _ _ body clauses _ =>
    closed.seq (firstClause_closed clauses) fun _ =>
      closed.seq (laterClauses_closed closed _ _) fun _ =>
      closed.seq (free_closed closed true _ body) fun _ => closed.pure ()
  | .literal .. => closed.pure ()
  | .field _ value _ spec => closed.seq (expr_closed value) fun _ => optional_closed spec
  | .call callee arguments _ => closed.seq (expr_closed callee) fun _ => exprs_closed arguments
  | .keyword _ _ value => expr_closed value
  | .starred _ _ value => expr_closed value
  | .member object _ _ => expr_closed object
  | .subscript object key _ => closed.seq (expr_closed object) fun _ => expr_closed key
  | .slice _ lower upper step =>
    closed.seq (optional_closed lower) fun _ => closed.seq (optional_closed upper) fun _ =>
      optional_closed step
  | .binary left _ _ right => closed.seq (expr_closed left) fun _ => expr_closed right
  | .logical left _ _ right => closed.seq (expr_closed left) fun _ => expr_closed right
  | .compare left _ rights => closed.seq (expr_closed left) fun _ => exprs_closed rights
  | .unary _ _ operand => expr_closed operand
  | .conditional test whenTrue whenFalse =>
    closed.seq (expr_closed test) fun _ => closed.seq (expr_closed whenTrue) fun _ =>
      expr_closed whenFalse
  | .list _ items _ => exprs_closed items
  | .tuple _ items _ => exprs_closed items
  | .set _ items _ => exprs_closed items
  | .dict _ items _ => exprs_closed items
  | .entry key value => closed.seq (expr_closed key) fun _ => expr_closed value
  | .yield _ _ value => optional_closed value

theorem optional_closed : ∀ value : Option Expr, holds [] (optional value)
  | none => closed.pure ()
  | some value => expr_closed value

theorem exprs_closed : ∀ items : List Expr, holds [] (exprs items)
  | [] => closed.pure ()
  | first :: rest => closed.seq (expr_closed first) fun _ => exprs_closed rest

theorem defaults_closed : ∀ params : List Param, holds [] (defaults params)
  | [] => closed.pure ()
  | .mk _ _ _ _ default :: rest => closed.seq (optional_closed default) fun _ =>
    defaults_closed rest

theorem firstClause_closed : ∀ clauses : List Clause, holds [] (firstClause clauses)
  | .loop _ _ iterable :: _ => closed.seq (expr_closed iterable) fun _ => closed.pure _
  | .filter _ test :: _ => free_closed closed true [] test
  | [] => closed.pure []

end

mutual

theorem target_closed : ∀ value : Expr, holds [] (target value)
  | .name _ id => closed.binds id
  | .tuple _ items _ => targets_closed items
  | .list _ items _ => targets_closed items
  | .starred _ _ value => target_closed value
  | .member object _ _ => expr_closed closed object
  | .subscript object key _ => closed.seq (expr_closed closed object) fun _ =>
    expr_closed closed key
  | .literal .. | .fstring .. | .field .. | .call .. | .keyword .. | .slice .. | .binary ..
  | .logical .. | .compare .. | .unary .. | .conditional .. | .lambda .. | .set .. | .dict ..
  | .entry .. | .comprehension .. | .named .. | .yield .. => closed.pure ()

theorem targets_closed : ∀ items : List Expr, holds [] (targets items)
  | [] => closed.pure ()
  | first :: rest => closed.seq (target_closed first) fun _ => targets_closed rest

end

/-! ## Statements -/

theorem imported_closed (names : List Alias) : holds [] (imported names) :=
  closed.forM fun item => closed.binds item.bound

theorem params_closed (items : List Param) : holds [] (params items) :=
  closed.forM fun param => closed.seq (optional_closed closed param.hint) fun _ =>
    optional_closed closed param.default

theorem withItems_closed (items : List WithItem) : holds [] (withItems items) := by
  refine closed.forM fun item => closed.seq (expr_closed closed item.manager) fun _ => ?_
  split
  · exact target_closed closed _
  · exact closed.pure ()

theorem helperDeclarations_closed (scope : ScopeKind) (body : List Stmt) :
    holds [] (helperDeclarations scope body) := by
  unfold helperDeclarations
  refine closed.ite (closed.forM fun stmt => ?_) (closed.pure ())
  split
  · exact closed.forM fun ident => closed.binds ident.name
  · exact closed.pure ()

theorem functionHead_closed (scope : ScopeKind) (decorators : List Expr) (ident : Ident)
    (parameters : List Param) (result : Option Expr) (body : List Stmt) :
    holds [] (functionHead scope decorators ident parameters result body) := by
  refine closed.seq (exprs_closed closed decorators) fun _ =>
    closed.seq (params_closed closed parameters) fun _ =>
      closed.seq (optional_closed closed result) fun _ => ?_
  have lends : holds [] (if beginsWithText "_dp_" ident.name then helperDeclarations scope body
      else Pure.pure ()) :=
    closed.ite (helperDeclarations_closed closed scope body) (closed.pure ())
  have named := closed.seq (closed.defines ident.name) fun _ => lends
  rw [bind_assoc] at named
  exact named

theorem classHead_closed (decorators : List Expr) (ident : Ident) (bases : List Expr) :
    holds [] (classHead decorators ident bases) :=
  closed.seq (exprs_closed closed decorators) fun _ =>
    closed.seq (exprs_closed closed bases) fun _ =>
    closed.binds ident.name

theorem handlerNames_closed (handlers : List Handler) : holds [] (handlerNames handlers) := by
  refine closed.forM fun handler => ?_
  split
  · exact closed.binds _
  · exact closed.pure ()

mutual

theorem stmt_closed : ∀ statement : Stmt, holds statement.declarations (stmt kind statement)
  | .expression value => expr_closed closed value
  | .assign left value =>
    closed.seq (expr_closed closed value) fun _ => targets_closed closed left
  | .augAssign left _ value =>
    closed.seq (target_closed closed left) fun _ => expr_closed closed value
  | .annAssign left hint value =>
    closed.seq (target_closed closed left) fun _ => closed.seq (expr_closed closed hint) fun _ =>
      optional_closed closed value
  | .delete _ items => targets_closed closed items
  | .branch .. => closed.pure ()
  | .returns _ result => optional_closed closed result
  | .raises _ exception cause =>
    closed.seq (optional_closed closed exception) fun _ => optional_closed closed cause
  | .declare _ declaration idents => closed.declares declaration idents
  | .asserts _ test message =>
    closed.seq (expr_closed closed test) fun _ => optional_closed closed message
  | .imports _ names => imported_closed closed names
  | .importFrom _ _ _ names _ => closed.ite (closed.pure ()) (imported_closed closed names)
  | .conditional _ test body _ orelse =>
    closed.seq (expr_closed closed test) fun _ =>
      closed.bind (stmts_closed body) fun _ => stmts_closed orelse
  | .whileLoop _ test body orelse =>
    closed.seq (expr_closed closed test) fun _ =>
      closed.bind (stmts_closed body) fun _ => stmts_closed orelse
  | .forLoop _ bound iterable body orelse =>
    closed.seq (expr_closed closed iterable) fun _ =>
      closed.seq (target_closed closed bound) fun _ =>
      closed.bind (stmts_closed body) fun _ => stmts_closed orelse
  | .tryBlock _ body handlers orelse final =>
    closed.seq (handlerNames_closed closed handlers) fun _ =>
      closed.bind (stmts_closed body) fun _ => closed.bind (handlerBodies_closed handlers) fun _ =>
        closed.bind (stmts_closed orelse) fun _ => stmts_closed final
  | .withBlock _ items body =>
    closed.seq (withItems_closed closed items) fun _ => stmts_closed body
  | .function decorators _ ident parameters result body =>
    functionHead_closed closed kind decorators ident parameters result body
  | .classDef decorators _ ident bases _ => classHead_closed closed decorators ident bases

theorem stmts_closed : ∀ body : List Stmt, holds (Stmt.declarationsOfBody body) (stmts kind body)
  | [] => closed.pure ()
  | first :: rest => closed.bind (stmt_closed first) fun _ => stmts_closed rest

theorem handlerBodies_closed : ∀ handlers : List Handler,
    holds (Stmt.declarationsOfHandlers handlers) (handlerBodies kind handlers)
  | [] => closed.pure ()
  | .mk _ type _ body :: rest =>
    closed.seq (optional_closed closed type) fun _ => closed.bind (stmts_closed body) fun _ =>
      handlerBodies_closed rest

end

end Collector

/-! ## Kept properties -/

/-- A property of names that each step of collecting in a body of a kind keeps. -/
structure Names.Kept (kind : ScopeKind) (holds : Names → Prop) : Prop where
  bind : ∀ names name, holds names → holds (names.bind name .own)
  use : ∀ names name, holds names → holds (names.use name)
  define : ∀ (names : Names) (functions : List String), holds names → holds { names with functions }
  declare : ∀ names declaration ident, holds names → holds (names.declare kind declaration ident)

/-- A collector that keeps a property of the names collected so far. -/
def Collector.Keeps {α : Type} (holds : Names → Prop) (collector : Collector α) : Prop :=
  ∀ names, holds names → holds (collector.run names).2

theorem Names.Kept.closed {kind : ScopeKind} {holds : Names → Prop} (kept : Names.Kept kind holds) :
    Collector.Closed kind fun _ collector => collector.Keeps holds where
  pure _ _ valid := valid
  bind first rest names valid := rest _ _ (first names valid)
  binds name names valid := kept.bind names name valid
  uses name names valid := kept.use names name valid
  defines name names valid := kept.define _ _ (kept.bind names name valid)
  declares declaration idents _ valid :=
    List.foldlRecOn idents _ valid fun names valid ident _ =>
      kept.declare names declaration ident valid

/-- What holds of a body about which nothing is known, and is kept by its parameters and
by each step of collecting, holds of the names of the body. -/
theorem collect_keeps {kind : ScopeKind} {holds : Names → Prop} (kept : Names.Kept kind holds)
    (params : List Param) (body : List Stmt) (empty : holds {})
    (param : ∀ (names : Names) (params : List String), holds names → holds { names with params }) :
    holds (collect kind params body) := by
  refine Collector.stmts_closed kept.closed body _ ?_
  refine List.foldlRecOn params _ empty fun names valid item _ => ?_
  unfold Names.addParam
  split
  · exact kept.bind _ _ (param names _ valid)
  · exact valid

end Unsugar
