import Unsugar.Tree.Visitor

/-! Revisions in two monads. Two visitors that do related things to each expression and
target do related things to a whole tree, however the monads differ. -/

namespace Unsugar

variable {m n : Type → Type} [Monad m] [Monad n]

/-- A way to relate computations in two monads that give the same values. -/
structure MonadRelation (m n : Type → Type) [Monad m] [Monad n] where
  Related : {α : Type} → m α → n α → Prop
  pure : ∀ {α : Type} (value : α), Related (Pure.pure value) (Pure.pure value)
  bind : ∀ {α β : Type} {first : m α} {second : n α} {next : α → m β} {later : α → n β},
    Related first second → (∀ value, Related (next value) (later value)) →
    Related (first >>= next) (second >>= later)

/-- Two visitors that do related things. -/
structure Visitor.Related (relation : MonadRelation m n) (first : Visitor m)
    (second : Visitor n) : Prop where
  expr : ∀ value, relation.Related (first.expr value) (second.expr value)
  target : ∀ value, relation.Related (first.target value) (second.target value)
  arguments : first.arguments = second.arguments

variable {relation : MonadRelation m n} {first : Visitor m} {second : Visitor n}

namespace MonadRelation

variable {α β : Type} {one : m α} {other : n α}

/-- What a value is made into does not matter. -/
theorem give (related : relation.Related one other) (build : α → β) :
    relation.Related (one >>= fun value => Pure.pure (build value))
      (other >>= fun value => Pure.pure (build value)) :=
  relation.bind related fun value => relation.pure (build value)

theorem map [LawfulMonad m] [LawfulMonad n] (related : relation.Related one other)
    (build : α → β) : relation.Related (build <$> one) (build <$> other) := by
  rw [map_eq_pure_bind, map_eq_pure_bind]
  exact relation.give related build

theorem reply {found : m (Option Expr)} {found' : n (Option Expr)} {below : m Expr}
    {below' : n Expr} (here : relation.Related found found')
    (rest : relation.Related below below') :
    relation.Related (orRevise found below) (orRevise found' below') := by
  refine relation.bind here fun answer => ?_
  cases answer with
  | none => exact rest
  | some replacement => exact relation.pure replacement

end MonadRelation

open MonadRelation

/-! ## Expressions -/

namespace Expr

mutual

theorem revise_related (visitors : first.Related relation second) :
    ∀ expr : Expr, relation.Related (expr.revise first) (expr.revise second)
  | .name .. => reply (visitors.expr _) (relation.pure _)
  | .literal .. => reply (visitors.expr _) (relation.pure _)
  | .fstring _ _ parts => reply (visitors.expr _) (give (reviseList_related visitors parts) _)
  | .field _ value _ spec =>
    reply (visitors.expr _) <| relation.bind (revise_related visitors value) fun _ =>
      give (reviseOption_related visitors spec) _
  | .call callee arguments _ => by
    have same : first.arguments callee arguments = second.arguments callee arguments := by
      rw [visitors.arguments]
    rw [revise, revise, same]
    exact reply (visitors.expr _) <| relation.bind (revise_related visitors callee) fun _ =>
      give (reviseArguments_related visitors _ arguments) _
  | .keyword _ _ value => reply (visitors.expr _) (give (revise_related visitors value) _)
  | .starred _ _ value => reply (visitors.expr _) (give (revise_related visitors value) _)
  | .member object _ _ => reply (visitors.expr _) (give (revise_related visitors object) _)
  | .subscript object key _ =>
    reply (visitors.expr _) <| relation.bind (revise_related visitors object) fun _ =>
      give (revise_related visitors key) _
  | .slice _ lower upper step =>
    reply (visitors.expr _) <| relation.bind (reviseOption_related visitors lower) fun _ =>
      relation.bind (reviseOption_related visitors upper) fun _ =>
        give (reviseOption_related visitors step) _
  | .binary left _ _ right =>
    reply (visitors.expr _) <| relation.bind (revise_related visitors left) fun _ =>
      give (revise_related visitors right) _
  | .logical left _ _ right =>
    reply (visitors.expr _) <| relation.bind (revise_related visitors left) fun _ =>
      give (revise_related visitors right) _
  | .compare left _ rights =>
    reply (visitors.expr _) <| relation.bind (revise_related visitors left) fun _ =>
      give (reviseList_related visitors rights) _
  | .unary _ _ operand => reply (visitors.expr _) (give (revise_related visitors operand) _)
  | .conditional test whenTrue whenFalse =>
    reply (visitors.expr _) <| relation.bind (revise_related visitors test) fun _ =>
      relation.bind (revise_related visitors whenTrue) fun _ =>
        give (revise_related visitors whenFalse) _
  | .lambda _ params body =>
    reply (visitors.expr _) <| relation.bind (reviseParams_related visitors params) fun _ =>
      give (revise_related visitors body) _
  | .list _ items _ => reply (visitors.expr _) (give (reviseList_related visitors items) _)
  | .tuple _ items _ => reply (visitors.expr _) (give (reviseList_related visitors items) _)
  | .set _ items _ => reply (visitors.expr _) (give (reviseList_related visitors items) _)
  | .dict _ items _ => reply (visitors.expr _) (give (reviseList_related visitors items) _)
  | .entry key value =>
    reply (visitors.expr _) <| relation.bind (revise_related visitors key) fun _ =>
      give (revise_related visitors value) _
  | .comprehension _ _ body clauses _ =>
    reply (visitors.expr _) <| relation.bind (reviseClauses_related visitors clauses) fun _ =>
      give (revise_related visitors body) _
  | .named _ value => reply (visitors.expr _) (give (revise_related visitors value) _)
  | .yield _ _ value => reply (visitors.expr _) (give (reviseOption_related visitors value) _)

theorem reviseTarget_related (visitors : first.Related relation second) :
    ∀ target : Expr, relation.Related (target.reviseTarget first) (target.reviseTarget second)
  | .tuple _ items _ => reply (visitors.target _) (give (reviseTargets_related visitors items) _)
  | .list _ items _ => reply (visitors.target _) (give (reviseTargets_related visitors items) _)
  | .starred _ _ value =>
    reply (visitors.target _) (give (reviseTarget_related visitors value) _)
  | .member object _ _ => reply (visitors.target _) (give (revise_related visitors object) _)
  | .subscript object key _ =>
    reply (visitors.target _) <| relation.bind (revise_related visitors object) fun _ =>
      give (revise_related visitors key) _
  | .name .. | .literal .. | .fstring .. | .field .. | .call .. | .keyword .. | .slice ..
  | .binary .. | .logical .. | .compare .. | .unary .. | .conditional .. | .lambda .. | .set ..
  | .dict .. | .entry .. | .comprehension .. | .named .. | .yield .. =>
    reply (visitors.target _) (relation.pure _)

theorem reviseOption_related (visitors : first.Related relation second) :
    ∀ value : Option Expr, relation.Related (reviseOption first value) (reviseOption second value)
  | none => relation.pure _
  | some value => give (revise_related visitors value) _

theorem reviseList_related (visitors : first.Related relation second) :
    ∀ items : List Expr, relation.Related (reviseList first items) (reviseList second items)
  | [] => relation.pure _
  | value :: rest =>
    relation.bind (revise_related visitors value) fun _ =>
      give (reviseList_related visitors rest) _

theorem reviseArguments_related (visitors : first.Related relation second) :
    ∀ (replaced : List (Option Expr)) (items : List Expr),
      relation.Related (reviseArguments first replaced items)
        (reviseArguments second replaced items)
  | _, [] => relation.pure _
  | _, value :: rest =>
    relation.bind (reply (relation.pure _) (revise_related visitors value)) fun _ =>
      give (reviseArguments_related visitors _ rest) _

theorem reviseTargets_related (visitors : first.Related relation second) :
    ∀ items : List Expr, relation.Related (reviseTargets first items) (reviseTargets second items)
  | [] => relation.pure _
  | value :: rest =>
    relation.bind (reviseTarget_related visitors value) fun _ =>
      give (reviseTargets_related visitors rest) _

theorem reviseParams_related (visitors : first.Related relation second) :
    ∀ params : List Param,
      relation.Related (reviseParams first params) (reviseParams second params)
  | [] => relation.pure _
  | .mk _ _ _ hint default :: rest =>
    relation.bind (reviseOption_related visitors hint) fun _ =>
      relation.bind (reviseOption_related visitors default) fun _ =>
        give (reviseParams_related visitors rest) _

theorem reviseClauses_related (visitors : first.Related relation second) :
    ∀ clauses : List Clause,
      relation.Related (reviseClauses first clauses) (reviseClauses second clauses)
  | [] => relation.pure _
  | .loop _ target iterable :: rest =>
    relation.bind (revise_related visitors iterable) fun _ =>
      relation.bind (reviseTarget_related visitors target) fun _ =>
        give (reviseClauses_related visitors rest) _
  | .filter _ test :: rest =>
    relation.bind (revise_related visitors test) fun _ =>
      give (reviseClauses_related visitors rest) _

end

end Expr

/-! ## Statements -/

theorem Pass.withItems_related [LawfulMonad m] [LawfulMonad n]
    (visitors : first.Related relation second) :
    ∀ items : List WithItem,
      relation.Related (Pass.withItems first items) (Pass.withItems second items)
  | [] => relation.pure _
  | ⟨manager, none⟩ :: rest =>
    relation.bind (Expr.revise_related visitors manager) fun _ =>
      relation.bind (relation.pure none) fun _ => give (withItems_related visitors rest) _
  | ⟨manager, some target⟩ :: rest =>
    relation.bind (Expr.revise_related visitors manager) fun _ =>
      relation.bind (relation.map (Expr.reviseTarget_related visitors target) some) fun _ =>
        give (withItems_related visitors rest) _

open Unsugar.Expr in
theorem Stmt.reviseSimple_related (visitors : first.Related relation second) :
    ∀ stmt : Stmt, relation.Related (stmt.reviseSimple first) (stmt.reviseSimple second)
  | .expression value => give (revise_related visitors value) _
  | .assign targets value =>
    relation.bind (revise_related visitors value) fun _ =>
      give (reviseTargets_related visitors targets) _
  | .augAssign target _ value =>
    relation.bind (reviseTarget_related visitors target) fun _ =>
      give (revise_related visitors value) _
  | .annAssign target hint value =>
    relation.bind (reviseTarget_related visitors target) fun _ =>
      relation.bind (revise_related visitors hint) fun _ =>
        give (reviseOption_related visitors value) _
  | .delete _ targets => give (reviseTargets_related visitors targets) _
  | .returns _ result => give (reviseOption_related visitors result) _
  | .raises _ exception cause =>
    relation.bind (reviseOption_related visitors exception) fun _ =>
      give (reviseOption_related visitors cause) _
  | .asserts _ test message =>
    relation.bind (revise_related visitors test) fun _ =>
      give (reviseOption_related visitors message) _
  | .branch .. | .declare .. | .imports .. | .importFrom .. | .conditional .. | .whileLoop ..
  | .forLoop .. | .tryBlock .. | .withBlock .. | .function .. | .classDef .. => relation.pure _

end Unsugar
