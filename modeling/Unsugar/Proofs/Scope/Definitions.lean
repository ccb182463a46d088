import Mathlib.Data.List.Forall2
import Unsugar.Scope.Tree

/-! The definitions of a body, and the scopes that belong to them: each scope in the tree
of a body belongs to one definition, and they stand in the same order. -/

namespace Unsugar

/-! ## Definitions of a body -/

/-- A function or class by its kind and place, and the definitions in its body, in source
order. -/
inductive DefinitionTree where
  | mk (kind : ScopeKind) (position : Position) (inner : List DefinitionTree)

namespace Stmt

mutual

/-- The functions and classes that a statement defines in the body where it stands, in source
order. -/
def definitions : Stmt → List Stmt
  | .function decorators position ident params result body =>
    [.function decorators position ident params result body]
  | .classDef decorators position ident bases body =>
    [.classDef decorators position ident bases body]
  | .conditional _ _ body _ orelse => definitionsOfBody body ++ definitionsOfBody orelse
  | .whileLoop _ _ body orelse => definitionsOfBody body ++ definitionsOfBody orelse
  | .forLoop _ _ _ body orelse => definitionsOfBody body ++ definitionsOfBody orelse
  | .tryBlock _ body handlers orelse final =>
    definitionsOfBody body ++ definitionsOfHandlers handlers ++ definitionsOfBody orelse ++
      definitionsOfBody final
  | .withBlock _ _ body => definitionsOfBody body
  | _ => []

def definitionsOfBody : List Stmt → List Stmt
  | [] => []
  | first :: rest => definitions first ++ definitionsOfBody rest

def definitionsOfHandlers : List Handler → List Stmt
  | [] => []
  | .mk _ _ _ body :: rest => definitionsOfBody body ++ definitionsOfHandlers rest

end

mutual

/-- The definitions of a statement, with those inside them. -/
def definitionTrees : Stmt → List DefinitionTree
  | .function _ position _ _ _ body => [.mk .functionScope position (definitionTreesOfBody body)]
  | .classDef _ position _ _ body => [.mk .classScope position (definitionTreesOfBody body)]
  | .conditional _ _ body _ orelse => definitionTreesOfBody body ++ definitionTreesOfBody orelse
  | .whileLoop _ _ body orelse => definitionTreesOfBody body ++ definitionTreesOfBody orelse
  | .forLoop _ _ _ body orelse => definitionTreesOfBody body ++ definitionTreesOfBody orelse
  | .tryBlock _ body handlers orelse final =>
    definitionTreesOfBody body ++ definitionTreesOfHandlers handlers ++
      definitionTreesOfBody orelse ++ definitionTreesOfBody final
  | .withBlock _ _ body => definitionTreesOfBody body
  | _ => []

def definitionTreesOfBody : List Stmt → List DefinitionTree
  | [] => []
  | first :: rest => definitionTrees first ++ definitionTreesOfBody rest

def definitionTreesOfHandlers : List Handler → List DefinitionTree
  | [] => []
  | .mk _ _ _ body :: rest => definitionTreesOfBody body ++ definitionTreesOfHandlers rest

end

@[simp] theorem definitionTreesOfBody_append (first second : List Stmt) :
    definitionTreesOfBody (first ++ second) =
      definitionTreesOfBody first ++ definitionTreesOfBody second := by
  induction first with
  | nil => rfl
  | cons stmt rest induction => simp [definitionTreesOfBody, induction]

mutual

/-- The trees of a statement are those of its definitions. -/
theorem definitionTrees_eq :
    ∀ stmt : Stmt, definitionTrees stmt = (definitions stmt).flatMap definitionTrees
  | .function .. => by simp [definitions]
  | .classDef .. => by simp [definitions]
  | .conditional _ _ body _ orelse => by
    simp only [definitionTrees, definitions, List.flatMap_append]
    rw [definitionTreesOfBody_eq body, definitionTreesOfBody_eq orelse]
  | .whileLoop _ _ body orelse => by
    simp only [definitionTrees, definitions, List.flatMap_append]
    rw [definitionTreesOfBody_eq body, definitionTreesOfBody_eq orelse]
  | .forLoop _ _ _ body orelse => by
    simp only [definitionTrees, definitions, List.flatMap_append]
    rw [definitionTreesOfBody_eq body, definitionTreesOfBody_eq orelse]
  | .tryBlock _ body handlers orelse final => by
    simp only [definitionTrees, definitions, List.flatMap_append]
    rw [definitionTreesOfBody_eq body, definitionTreesOfHandlers_eq handlers,
      definitionTreesOfBody_eq orelse, definitionTreesOfBody_eq final]
  | .withBlock _ _ body => definitionTreesOfBody_eq body
  | .expression .. | .assign .. | .augAssign .. | .annAssign .. | .delete .. | .branch ..
  | .returns .. | .raises .. | .declare .. | .asserts .. | .imports .. | .importFrom .. => rfl

theorem definitionTreesOfBody_eq :
    ∀ body : List Stmt,
      definitionTreesOfBody body = (definitionsOfBody body).flatMap definitionTrees
  | [] => rfl
  | first :: rest => by
    rw [definitionTreesOfBody, definitionsOfBody, List.flatMap_append, definitionTrees_eq first,
      definitionTreesOfBody_eq rest]

theorem definitionTreesOfHandlers_eq :
    ∀ handlers : List Handler,
      definitionTreesOfHandlers handlers = (definitionsOfHandlers handlers).flatMap definitionTrees
  | [] => rfl
  | .mk _ _ _ body :: rest => by
    rw [definitionTreesOfHandlers, definitionsOfHandlers, List.flatMap_append,
      definitionTreesOfBody_eq body, definitionTreesOfHandlers_eq rest]

end

end Stmt

/-! ## Scopes of definitions -/

namespace Scope

open Stmt

/-- Whether a scope is the one that a definition opens. -/
def IsOpenedBy (outer : Enclosing) (scope : Scope) (definition : Stmt) : Prop :=
  ofStmt outer definition = [scope]

mutual

theorem ofStmt_opened (outer : Enclosing) :
    ∀ stmt : Stmt, List.Forall₂ (IsOpenedBy outer) (ofStmt outer stmt) (definitions stmt)
  | .function .. => .cons rfl .nil
  | .classDef .. => .cons rfl .nil
  | .conditional _ _ body _ orelse =>
    List.rel_append (ofBody_opened outer body) (ofBody_opened outer orelse)
  | .whileLoop _ _ body orelse =>
    List.rel_append (ofBody_opened outer body) (ofBody_opened outer orelse)
  | .forLoop _ _ _ body orelse =>
    List.rel_append (ofBody_opened outer body) (ofBody_opened outer orelse)
  | .tryBlock _ body handlers orelse final =>
    List.rel_append (List.rel_append (List.rel_append (ofBody_opened outer body)
      (ofHandlers_opened outer handlers)) (ofBody_opened outer orelse)) (ofBody_opened outer final)
  | .withBlock _ _ body => ofBody_opened outer body
  | .expression .. | .assign .. | .augAssign .. | .annAssign .. | .delete .. | .branch ..
  | .returns .. | .raises .. | .declare .. | .asserts .. | .imports .. | .importFrom .. => .nil

/-- The scopes of a body are those that its definitions open, one for each, in source
order. -/
theorem ofBody_opened (outer : Enclosing) :
    ∀ body : List Stmt,
      List.Forall₂ (IsOpenedBy outer) (ofBody outer body) (definitionsOfBody body)
  | [] => .nil
  | first :: rest => List.rel_append (ofStmt_opened outer first) (ofBody_opened outer rest)

theorem ofHandlers_opened (outer : Enclosing) :
    ∀ handlers : List Handler,
      List.Forall₂ (IsOpenedBy outer) (ofHandlers outer handlers) (definitionsOfHandlers handlers)
  | [] => .nil
  | .mk _ _ _ body :: rest =>
    List.rel_append (ofBody_opened outer body) (ofHandlers_opened outer rest)

end

mutual

/-- Whether a scope is the tree of scopes for a definition and those inside it. -/
def Serves : Scope → DefinitionTree → Prop
  | mk info children, .mk kind _ inner => info.kind = kind ∧ ServeAll children inner

def ServeAll : List Scope → List DefinitionTree → Prop
  | [], trees => trees = []
  | first :: rest, trees => ∃ tree others, trees = tree :: others ∧
      Serves first tree ∧ ServeAll rest others

end

theorem ServeAll.append :
    ∀ {first second : List Scope} {trees others : List DefinitionTree},
      ServeAll first trees → ServeAll second others → ServeAll (first ++ second) (trees ++ others)
  | [], _, _, _, rfl, back => back
  | _ :: _, _, _, _, ⟨tree, _, rfl, serves, later⟩, back =>
    ⟨tree, _, rfl, serves, later.append back⟩

/-- Scopes for two lists of definitions are those for the first and those for the second. -/
theorem ServeAll.split {first second : List DefinitionTree} :
    ∀ {scopes : List Scope}, ServeAll scopes (first ++ second) →
      ∃ here later, scopes = here ++ later ∧ ServeAll here first ∧ ServeAll later second := by
  induction first with
  | nil => exact fun serve => ⟨[], _, rfl, rfl, serve⟩
  | cons tree rest induction =>
    intro scopes serve
    cases scopes with
    | nil => cases serve
    | cons scope scopes =>
      obtain ⟨_, _, same, serves, others⟩ := serve
      obtain ⟨rfl, rfl⟩ := List.cons.inj same
      obtain ⟨here, later, rfl, hereServe, laterServe⟩ := induction others
      exact ⟨scope :: here, later, rfl, ⟨tree, rest, rfl, serves, hereServe⟩, laterServe⟩

theorem ServeAll.single {scopes : List Scope} {tree : DefinitionTree}
    (serve : ServeAll scopes [tree]) : ∃ scope, scopes = [scope] ∧ Serves scope tree := by
  cases scopes with
  | nil => cases serve
  | cons scope rest =>
    obtain ⟨_, _, same, serves, others⟩ := serve
    obtain ⟨rfl, rfl⟩ := List.cons.inj same
    cases rest with
    | nil => exact ⟨scope, rfl, serves⟩
    | cons => obtain ⟨_, _, ⟨⟩, _⟩ := others

theorem ServeAll.eq_nil {scopes : List Scope} (serve : ServeAll scopes []) : scopes = [] := by
  cases scopes with
  | nil => rfl
  | cons => obtain ⟨_, _, ⟨⟩, _⟩ := serve

theorem Serves.children {scope : Scope} {kind : ScopeKind} {position : Position}
    {inner : List DefinitionTree} (serves : Serves scope (.mk kind position inner)) :
    ServeAll scope.children inner := by
  cases scope
  exact serves.2

mutual

theorem ofStmt_serve (outer : Enclosing) :
    ∀ stmt : Stmt, ServeAll (ofStmt outer stmt) (definitionTrees stmt)
  | .function _ _ _ _ _ body => ⟨_, _, rfl, ⟨rfl, ofBody_serve _ body⟩, rfl⟩
  | .classDef _ _ _ _ body => ⟨_, _, rfl, ⟨rfl, ofBody_serve _ body⟩, rfl⟩
  | .conditional _ _ body _ orelse => (ofBody_serve outer body).append (ofBody_serve outer orelse)
  | .whileLoop _ _ body orelse => (ofBody_serve outer body).append (ofBody_serve outer orelse)
  | .forLoop _ _ _ body orelse => (ofBody_serve outer body).append (ofBody_serve outer orelse)
  | .tryBlock _ body handlers orelse final =>
    (((ofBody_serve outer body).append (ofHandlers_serve outer handlers)).append
      (ofBody_serve outer orelse)).append (ofBody_serve outer final)
  | .withBlock _ _ body => ofBody_serve outer body
  | .expression .. | .assign .. | .augAssign .. | .annAssign .. | .delete .. | .branch ..
  | .returns .. | .raises .. | .declare .. | .asserts .. | .imports .. | .importFrom .. => rfl

/-- The scopes of a body serve its definitions and those inside them. -/
theorem ofBody_serve (outer : Enclosing) :
    ∀ body : List Stmt, ServeAll (ofBody outer body) (definitionTreesOfBody body)
  | [] => rfl
  | first :: rest => (ofStmt_serve outer first).append (ofBody_serve outer rest)

theorem ofHandlers_serve (outer : Enclosing) :
    ∀ handlers : List Handler,
      ServeAll (ofHandlers outer handlers) (definitionTreesOfHandlers handlers)
  | [] => rfl
  | .mk _ _ _ body :: rest => (ofBody_serve outer body).append (ofHandlers_serve outer rest)

end

/-! ## Reaching definitions -/

mutual

/-- The scopes inside a scope, in source order, each before those inside it. -/
def inside : Scope → List Scope
  | mk _ children => insideAll children

/-- Some scopes and those inside them. -/
def insideAll : List Scope → List Scope
  | [] => []
  | first :: rest => first :: (inside first ++ insideAll rest)

end

theorem inside_eq (scope : Scope) : scope.inside = insideAll scope.children := by
  cases scope
  rfl

end Scope

/-- A definition that is reached, in the body of the scope `around`, and the scope that is
found for it, if there is one. -/
structure Reach where
  around : Scope
  kind : ScopeKind
  position : Position
  found : Option Scope

namespace Scope

mutual

/-- A definition that finds a scope, and those inside it. -/
def reachesWith (around scope : Scope) : DefinitionTree → List Reach
  | .mk kind position inner =>
    ⟨around, kind, position, some scope⟩ :: reaches scope scope.children inner

/-- The definitions of a body in source order, each before those inside it. The first finds
the first child of the scope around it, the second the second one, and so on. -/
def reaches (around : Scope) : List Scope → List DefinitionTree → List Reach
  | scope :: scopes, tree :: trees => reachesWith around scope tree ++ reaches around scopes trees
  | _, _ => []

end

theorem reaches_nil (around : Scope) (trees : List DefinitionTree) :
    reaches around [] trees = [] := by
  cases trees <;> rfl

theorem reaches_single (around scope : Scope) (kind : ScopeKind) (position : Position)
    (inner : List DefinitionTree) :
    reaches around [scope] [.mk kind position inner] =
      [⟨around, kind, position, some scope⟩] ++ reaches scope scope.children inner := by
  rw [reaches, reaches_nil, List.append_nil]
  rfl

theorem reaches_append {around : Scope} :
    ∀ {first second : List Scope} {trees others : List DefinitionTree}, ServeAll first trees →
      reaches around (first ++ second) (trees ++ others) =
        reaches around first trees ++ reaches around second others
  | [], _, _, _, rfl => by rw [reaches_nil, List.nil_append, List.nil_append, List.nil_append]
  | _ :: _, _, _, _, ⟨.mk _ _ _, _, rfl, _, later⟩ => by
    simp only [List.cons_append, reaches, reaches_append later, List.append_assoc]

mutual

theorem found_of_serves {around : Scope} :
    ∀ {scope : Scope} {tree : DefinitionTree}, Serves scope tree →
      (reachesWith around scope tree).map (·.found) = (scope :: scope.inside).map some
  | .mk info children, .mk kind position inner, ⟨_, serve⟩ => by
    have below : (reaches (mk info children) children inner).map (·.found) =
        (insideAll children).map some := found_of_serveAll serve
    exact congrArg (some (mk info children) :: ·) below

/-- Each scope inside is found once, in source order, and no definition is without one. -/
theorem found_of_serveAll {around : Scope} :
    ∀ {scopes : List Scope} {trees : List DefinitionTree}, ServeAll scopes trees →
      (reaches around scopes trees).map (·.found) = (insideAll scopes).map some
  | [], _, rfl => by rw [reaches_nil]; rfl
  | _ :: _, _, ⟨tree, _, rfl, serves, later⟩ => by
    rw [reaches, List.map_append, found_of_serves serves, found_of_serveAll later, insideAll,
      ← List.map_append, List.cons_append]

end

mutual

theorem children_of_serves {around : Scope} :
    ∀ {scope : Scope} {tree : DefinitionTree}, Serves scope tree → scope ∈ around.children →
      ∀ reach ∈ reachesWith around scope tree,
        ∃ child ∈ reach.around.children, reach.found = some child
  | .mk info children, .mk _ _ _, ⟨_, serve⟩, here, reach, member => by
    rcases List.mem_cons.mp member with rfl | below
    · exact ⟨mk info children, here, rfl⟩
    · have within : children ⊆ (mk info children).children := List.Subset.refl children
      exact children_of_serveAll serve within reach below

/-- A definition finds a child of the scope that it is reached in. -/
theorem children_of_serveAll {around : Scope} :
    ∀ {scopes : List Scope} {trees : List DefinitionTree}, ServeAll scopes trees →
      scopes ⊆ around.children → ∀ reach ∈ reaches around scopes trees,
        ∃ child ∈ reach.around.children, reach.found = some child
  | [], _, rfl, _, reach, member => by
    rw [reaches_nil] at member
    cases member
  | _ :: _, _, ⟨_, _, rfl, serves, later⟩, within, reach, member => by
    have here := List.cons_subset.mp within
    rcases List.mem_append.mp member with first | rest
    · exact children_of_serves serves here.1 reach first
    · exact children_of_serveAll later here.2 reach rest

end

/-- The definitions of a module, reached from its scope. -/
def reachesOfModule (body : List Stmt) : List Reach :=
  reaches (ofModule body) (ofModule body).children (Stmt.definitionTreesOfBody body)

/-- What the definitions of a module find are the scopes inside its own, each once and in
source order, and each is a child of the scope where it is looked for. -/
theorem found_ofModule (body : List Stmt) :
    (reachesOfModule body).map (·.found) = (ofModule body).inside.map some ∧
      ∀ reach ∈ reachesOfModule body,
        ∃ child ∈ reach.around.children, reach.found = some child := by
  have serve : ServeAll (ofModule body).children (Stmt.definitionTreesOfBody body) :=
    ofBody_serve _ body
  refine ⟨?_, children_of_serveAll serve (List.Subset.refl _)⟩
  rw [inside_eq]
  exact found_of_serveAll serve

end Scope
end Unsugar
