import Unsugar.Proofs.Scope.Renaming
import Unsugar.Tree.Same

/-! Renaming the identifiers of a tree. The names in the renamed tree are the new ones, in
the order of the old ones; a renaming that changes none of them leaves the tree alone; and
two renamed trees are the same exactly if they are once all names are forgotten, and have
the same names, in order. -/

namespace Unsugar

open Collector (written? writtenAmong)

/-- Gives names anew and changes nothing else. -/
@[reducible] def LeafMap.naming (rename : String → String) : LeafMap := { name := rename }

/-! ## The names of a renamed statement -/

section Names

open Collector

variable (leaves : LeafMap)

theorem writtenAmong_flatMap {α : Type} {change : α → α} {walk : α → List Visit}
    (each : ∀ item, writtenAmong (walk (change item)) =
      (writtenAmong (walk item)).map leaves.name) (items : List α) :
    writtenAmong ((items.map change).flatMap walk) =
      (writtenAmong (items.flatMap walk)).map leaves.name := by
  induction items with
  | nil => rfl
  | cons first rest induction => simp [each, induction]

theorem Alias.writtenAmong_walk (depth : Nat) (item : Alias) :
    writtenAmong ((leaves.item item).walk (fun _ => true) depth) =
      (writtenAmong (item.walk (fun _ => true) depth)).map leaves.name := by
  simp [Alias.walk, written?, LeafMap.item]

theorem WithItem.writtenAmong_walk (depth : Nat) (item : WithItem) :
    writtenAmong ((item.mapLeaves leaves).walk (fun _ => true) depth) =
      (writtenAmong (item.walk (fun _ => true) depth)).map leaves.name := by
  simp [WithItem.walk, WithItem.mapLeaves, Collector.writtenAmong_walk, writtenAmong_walkOption]

end Names

namespace Stmt

open Collector

variable (leaves : LeafMap)

mutual

theorem writtenAmong_walk : ∀ (stmt : Stmt) (depth : Nat),
    writtenAmong ((stmt.mapLeaves (fun _ => leaves) leaves).walk (fun _ => true) depth) =
      (writtenAmong (stmt.walk (fun _ => true) depth)).map leaves.name
  | .expression value, _ => by
    simp [walk, mapLeaves, written?, Collector.writtenAmong_walk]
  | .assign .., _ | .augAssign .., _ | .annAssign .., _ | .delete .., _ | .branch .., _
  | .returns .., _ | .raises .., _ | .asserts .., _ => by
    simp [walk, mapLeaves, written?, Collector.writtenAmong_walk, writtenAmong_walkOption,
      writtenAmong_walkList]
  | .declare _ _ names, _ => by
    simp only [walk, mapLeaves, writtenAmong_visit, written?, Option.toList_none, List.nil_append]
    exact writtenAmong_flatMap leaves (fun _ => rfl) names
  | .imports _ names, _ | .importFrom _ _ _ names _, _ => by
    simp only [walk, mapLeaves, writtenAmong_visit, written?, Option.toList_none, List.nil_append]
    exact writtenAmong_flatMap leaves (Alias.writtenAmong_walk leaves _) names
  | .conditional _ test body _ orelse, _ | .whileLoop _ test body orelse, _ => by
    simp [walk, mapLeaves, written?, Collector.writtenAmong_walk, writtenAmong_walkBody body,
      writtenAmong_walkBody orelse]
  | .forLoop _ _ _ body orelse, _ => by
    simp [walk, mapLeaves, written?, Collector.writtenAmong_walk, writtenAmong_walkBody body,
      writtenAmong_walkBody orelse]
  | .tryBlock _ body handlers orelse final, _ => by
    simp [walk, mapLeaves, written?, writtenAmong_walkBody body,
      writtenAmong_walkHandlers handlers, writtenAmong_walkBody orelse,
      writtenAmong_walkBody final]
  | .withBlock _ items body, _ => by
    simp only [walk, mapLeaves, writtenAmong_visit, writtenAmong_append, written?,
      Option.toList_none, List.nil_append, writtenAmong_walkBody body,
      writtenAmong_flatMap leaves (WithItem.writtenAmong_walk leaves _) items, List.map_append]
  | .function _ _ _ _ _ body, _ => by
    simp [walk, mapLeaves, written?, writtenAmong_walkOption, writtenAmong_walkList,
      writtenAmong_walkParams, writtenAmong_walkBody body, LeafMap.ident]
  | .classDef _ _ _ _ body, _ => by
    simp [walk, mapLeaves, written?, writtenAmong_walkList, writtenAmong_walkBody body,
      LeafMap.ident]

theorem writtenAmong_walkBody : ∀ (body : List Stmt) (depth : Nat),
    writtenAmong (walkBody (fun _ => true) depth (mapLeavesBody (fun _ => leaves) leaves body)) =
      (writtenAmong (walkBody (fun _ => true) depth body)).map leaves.name
  | [], _ => rfl
  | first :: rest, _ => by
    simp [walkBody, mapLeavesBody, writtenAmong_walk first, writtenAmong_walkBody rest]

theorem writtenAmong_walkHandlers : ∀ (handlers : List Handler) (depth : Nat),
    writtenAmong (walkHandlers (fun _ => true) depth
        (mapLeavesHandlers (fun _ => leaves) leaves handlers)) =
      (writtenAmong (walkHandlers (fun _ => true) depth handlers)).map leaves.name
  | [], _ => rfl
  | .mk _ _ _ body :: rest, _ => by
    simp [walkHandlers, mapLeavesHandlers, written?, writtenAmong_walkOption,
      writtenAmong_walkBody body, writtenAmong_walkHandlers rest]

end

end Stmt

/-! ## A renaming that changes no name -/

/-- A renaming that changes none of the names on a walk. -/
def Fixes (rename : String → String) (visits : List Visit) : Prop :=
  ∀ name ∈ writtenAmong visits, rename name = name

section Fixes

variable {rename : String → String}

@[simp] theorem fixes_nil : Fixes rename [] := nofun

@[simp] theorem fixes_append (first second : List Visit) :
    Fixes rename (first ++ second) ↔ Fixes rename first ∧ Fixes rename second := by
  simp [Fixes, or_imp, forall_and]

@[simp] theorem fixes_visit (depth : Nat) (node : Node) (below : List Visit) :
    Fixes rename (node.visit (fun _ => true) depth below) ↔
      (∀ name ∈ written? node, rename name = name) ∧ Fixes rename below := by
  simp [Fixes, or_imp, forall_and]

@[simp] theorem fixes_ident (depth : Nat) (ident : Ident) :
    Fixes rename (ident.walk depth) ↔ rename ident.name = ident.name := by
  simp [Fixes]

theorem Ident.rename_eq_self {depth : Nat} {ident : Ident}
    (fixed : Fixes rename (ident.walk depth)) : (LeafMap.naming rename).ident ident = ident :=
  congrArg (Ident.mk ident.position) ((fixes_ident depth ident).mp fixed)

theorem Ident.renameOption_eq_self {depth : Nat} {ident : Option Ident}
    (fixed : Fixes rename (Ident.walkOption depth ident)) :
    ident.map (LeafMap.naming rename).ident = ident := by
  cases ident with
  | none => rfl
  | some ident => exact congrArg some (Ident.rename_eq_self fixed)

/-- The items of a list are left alone if each of them is. -/
theorem map_eq_self_of_fixes {α : Type} {change : α → α} {walk : α → List Visit}
    (each : ∀ item, Fixes rename (walk item) → change item = item) :
    ∀ items : List α, Fixes rename (items.flatMap walk) → items.map change = items
  | [], _ => rfl
  | first :: rest, fixed => by
    rw [List.flatMap_cons, fixes_append] at fixed
    rw [List.map_cons, each first fixed.1, map_eq_self_of_fixes each rest fixed.2]

end Fixes

namespace Expr

variable {rename : String → String}

mutual

theorem mapLeaves_eq_self : ∀ (expr : Expr) {depth : Nat},
    Fixes rename (expr.walk (fun _ => true) depth) → expr.mapLeaves (.naming rename) = expr
  | .name .., _, fixed => by simpa [walk, written?, mapLeaves] using fixed
  | .literal .., _, _ => rfl
  | .fstring _ _ items, _, fixed | .list _ items _, _, fixed | .tuple _ items _, _, fixed
  | .set _ items _, _, fixed | .dict _ items _, _, fixed => by
    simp [walk, written?] at fixed
    simp [mapLeaves, mapLeavesList_eq_self items fixed]
  | .field _ value _ spec, _, fixed => by
    simp [walk, written?] at fixed
    simp [mapLeaves, mapLeaves_eq_self value fixed.1, mapLeavesOption_eq_self spec fixed.2]
  | .call value items _, _, fixed | .compare value _ items, _, fixed => by
    simp [walk, written?] at fixed
    simp [mapLeaves, mapLeaves_eq_self value fixed.1, mapLeavesList_eq_self items fixed.2]
  | .keyword _ _ value, _, fixed | .starred _ _ value, _, fixed | .member value _ _, _, fixed
  | .unary _ _ value, _, fixed => by
    simp [walk, written?] at fixed
    simp [mapLeaves, mapLeaves_eq_self value fixed]
  | .subscript left right _, _, fixed | .binary left _ _ right, _, fixed
  | .logical left _ _ right, _, fixed | .entry left right, _, fixed => by
    simp [walk, written?] at fixed
    simp [mapLeaves, mapLeaves_eq_self left fixed.1, mapLeaves_eq_self right fixed.2]
  | .slice _ lower upper step, _, fixed => by
    simp [walk, written?] at fixed
    simp [mapLeaves, mapLeavesOption_eq_self lower fixed.1,
      mapLeavesOption_eq_self upper fixed.2.1, mapLeavesOption_eq_self step fixed.2.2]
  | .conditional test whenTrue whenFalse, _, fixed => by
    simp [walk, written?] at fixed
    simp [mapLeaves, mapLeaves_eq_self test fixed.1, mapLeaves_eq_self whenTrue fixed.2.1,
      mapLeaves_eq_self whenFalse fixed.2.2]
  | .lambda _ params body, _, fixed => by
    simp [walk, written?] at fixed
    simp [mapLeaves, mapLeavesParams_eq_self params fixed.1, mapLeaves_eq_self body fixed.2]
  | .comprehension _ _ body clauses _, _, fixed => by
    simp [walk, written?] at fixed
    simp [mapLeaves, mapLeaves_eq_self body fixed.1, mapLeavesClauses_eq_self clauses fixed.2]
  | .named target value, _, fixed => by
    simp [walk, written?] at fixed
    simp [mapLeaves, LeafMap.ident, fixed.1, mapLeaves_eq_self value fixed.2]
  | .yield _ _ value, _, fixed => by
    simp [walk, written?] at fixed
    simp [mapLeaves, mapLeavesOption_eq_self value fixed]

theorem mapLeavesOption_eq_self : ∀ (value : Option Expr) {depth : Nat},
    Fixes rename (walkOption (fun _ => true) depth value) →
      mapLeavesOption (.naming rename) value = value
  | none, _, _ => rfl
  | some value, _, fixed => congrArg some (mapLeaves_eq_self value fixed)

theorem mapLeavesList_eq_self : ∀ (items : List Expr) {depth : Nat},
    Fixes rename (walkList (fun _ => true) depth items) →
      mapLeavesList (.naming rename) items = items
  | [], _, _ => rfl
  | first :: rest, _, fixed => by
    rw [walkList, fixes_append] at fixed
    rw [mapLeavesList, mapLeaves_eq_self first fixed.1, mapLeavesList_eq_self rest fixed.2]

theorem mapLeavesParams_eq_self : ∀ (params : List Param) {depth : Nat},
    Fixes rename (walkParams (fun _ => true) depth params) →
      mapLeavesParams (.naming rename) params = params
  | [], _, _ => rfl
  | .mk _ _ _ hint default :: rest, _, fixed => by
    simp only [walkParams, walkParam, fixes_append, fixes_visit] at fixed
    obtain ⟨⟨-, ⟨ident, inHint⟩, inDefault⟩, later⟩ := fixed
    rw [mapLeavesParams, mapLeavesParam, Ident.renameOption_eq_self ident,
      mapLeavesOption_eq_self hint inHint, mapLeavesOption_eq_self default inDefault,
      mapLeavesParams_eq_self rest later]
    rfl

theorem mapLeavesClauses_eq_self : ∀ (clauses : List Clause) {depth : Nat},
    Fixes rename (walkClauses (fun _ => true) depth clauses) →
      mapLeavesClauses (.naming rename) clauses = clauses
  | [], _, _ => rfl
  | .loop _ target iterable :: rest, _, fixed => by
    simp [walkClauses, walkClause, written?] at fixed
    simp [mapLeavesClauses, mapLeavesClause, mapLeaves_eq_self target fixed.1.1,
      mapLeaves_eq_self iterable fixed.1.2, mapLeavesClauses_eq_self rest fixed.2]
  | .filter _ test :: rest, _, fixed => by
    simp [walkClauses, walkClause, written?] at fixed
    simp [mapLeavesClauses, mapLeavesClause, mapLeaves_eq_self test fixed.1,
      mapLeavesClauses_eq_self rest fixed.2]

end

end Expr

section Fixes

variable {rename : String → String} {depth : Nat}

theorem Alias.rename_eq_self (item : Alias)
    (fixed : Fixes rename (item.walk (fun _ => true) depth)) :
    (LeafMap.naming rename).item item = item := by
  rw [Alias.walk, fixes_visit] at fixed
  rw [LeafMap.item, Ident.renameOption_eq_self fixed.2]
  rfl

theorem WithItem.mapLeaves_eq_self (item : WithItem)
    (fixed : Fixes rename (item.walk (fun _ => true) depth)) :
    item.mapLeaves (.naming rename) = item := by
  rw [WithItem.walk, fixes_append] at fixed
  rw [WithItem.mapLeaves, item.manager.mapLeaves_eq_self fixed.1,
    Expr.mapLeavesOption_eq_self item.target fixed.2]

end Fixes

namespace Stmt

variable {rename : String → String}

open Unsugar.Expr (mapLeavesOption_eq_self mapLeavesList_eq_self mapLeavesParams_eq_self)

mutual

theorem mapLeaves_eq_self : ∀ (stmt : Stmt) {depth : Nat},
    Fixes rename (stmt.walk (fun _ => true) depth) →
      stmt.mapLeaves (fun _ => .naming rename) (.naming rename) = stmt
  | .expression value, _, fixed => by
    simp [walk, written?] at fixed
    simp [mapLeaves, value.mapLeaves_eq_self fixed]
  | .assign targets value, _, fixed => by
    simp [walk, written?] at fixed
    simp [mapLeaves, mapLeavesList_eq_self targets fixed.1, value.mapLeaves_eq_self fixed.2]
  | .augAssign target _ value, _, fixed => by
    simp [walk, written?] at fixed
    simp [mapLeaves, target.mapLeaves_eq_self fixed.1, value.mapLeaves_eq_self fixed.2]
  | .annAssign target hint value, _, fixed => by
    simp [walk, written?] at fixed
    simp [mapLeaves, target.mapLeaves_eq_self fixed.1, hint.mapLeaves_eq_self fixed.2.1,
      mapLeavesOption_eq_self value fixed.2.2]
  | .delete _ targets, _, fixed => by
    simp [walk, written?] at fixed
    simp [mapLeaves, mapLeavesList_eq_self targets fixed]
  | .branch .., _, _ => rfl
  | .returns _ result, _, fixed => by
    simp [walk, written?] at fixed
    simp [mapLeaves, mapLeavesOption_eq_self result fixed]
  | .raises _ exception cause, _, fixed => by
    simp [walk, written?] at fixed
    simp [mapLeaves, mapLeavesOption_eq_self exception fixed.1,
      mapLeavesOption_eq_self cause fixed.2]
  | .declare _ _ names, _, fixed => by
    rw [walk, fixes_visit] at fixed
    rw [mapLeaves, map_eq_self_of_fixes (fun _ => Ident.rename_eq_self) names fixed.2]
    rfl
  | .asserts _ test message, _, fixed => by
    simp [walk, written?] at fixed
    simp [mapLeaves, test.mapLeaves_eq_self fixed.1, mapLeavesOption_eq_self message fixed.2]
  | .imports _ names, _, fixed | .importFrom _ _ _ names _, _, fixed => by
    rw [walk, fixes_visit] at fixed
    rw [mapLeaves, map_eq_self_of_fixes Alias.rename_eq_self names fixed.2]
    rfl
  | .conditional _ test body _ orelse, _, fixed | .whileLoop _ test body orelse, _, fixed => by
    simp [walk, written?] at fixed
    simp [mapLeaves, test.mapLeaves_eq_self fixed.1, mapLeavesBody_eq_self body fixed.2.1,
      mapLeavesBody_eq_self orelse fixed.2.2]
  | .forLoop _ target iterable body orelse, _, fixed => by
    simp [walk, written?] at fixed
    simp [mapLeaves, target.mapLeaves_eq_self fixed.1, iterable.mapLeaves_eq_self fixed.2.1,
      mapLeavesBody_eq_self body fixed.2.2.1, mapLeavesBody_eq_self orelse fixed.2.2.2]
  | .tryBlock _ body handlers orelse final, _, fixed => by
    simp [walk, written?] at fixed
    simp [mapLeaves, mapLeavesBody_eq_self body fixed.1,
      mapLeavesHandlers_eq_self handlers fixed.2.1, mapLeavesBody_eq_self orelse fixed.2.2.1,
      mapLeavesBody_eq_self final fixed.2.2.2]
  | .withBlock _ items body, _, fixed => by
    rw [walk, fixes_visit, fixes_append] at fixed
    rw [mapLeaves, map_eq_self_of_fixes WithItem.mapLeaves_eq_self items fixed.2.1,
      mapLeavesBody_eq_self body fixed.2.2]
    rfl
  | .function decorators _ ident params result body, _, fixed => by
    simp only [walk, fixes_visit, fixes_append] at fixed
    obtain ⟨-, ⟨⟨⟨inDecorators, inName⟩, inParams⟩, inResult⟩, inBody⟩ := fixed
    rw [mapLeaves, mapLeavesList_eq_self decorators inDecorators, Ident.rename_eq_self inName,
      mapLeavesParams_eq_self params inParams, mapLeavesOption_eq_self result inResult,
      mapLeavesBody_eq_self body inBody]
    rfl
  | .classDef decorators _ ident bases body, _, fixed => by
    simp only [walk, fixes_visit, fixes_append] at fixed
    obtain ⟨-, ⟨⟨inDecorators, inName⟩, inBases⟩, inBody⟩ := fixed
    rw [mapLeaves, mapLeavesList_eq_self decorators inDecorators, Ident.rename_eq_self inName,
      mapLeavesList_eq_self bases inBases, mapLeavesBody_eq_self body inBody]
    rfl

theorem mapLeavesBody_eq_self : ∀ (body : List Stmt) {depth : Nat},
    Fixes rename (walkBody (fun _ => true) depth body) →
      mapLeavesBody (fun _ => .naming rename) (.naming rename) body = body
  | [], _, _ => rfl
  | first :: rest, _, fixed => by
    rw [walkBody, fixes_append] at fixed
    rw [mapLeavesBody, mapLeaves_eq_self first fixed.1, mapLeavesBody_eq_self rest fixed.2]

theorem mapLeavesHandlers_eq_self : ∀ (handlers : List Handler) {depth : Nat},
    Fixes rename (walkHandlers (fun _ => true) depth handlers) →
      mapLeavesHandlers (fun _ => .naming rename) (.naming rename) handlers = handlers
  | [], _, _ => rfl
  | .mk _ type _ body :: rest, _, fixed => by
    simp only [walkHandlers, fixes_append, fixes_visit] at fixed
    obtain ⟨⟨-, ⟨inType, inName⟩, inBody⟩, later⟩ := fixed
    rw [mapLeavesHandlers, mapLeavesOption_eq_self type inType,
      Ident.renameOption_eq_self inName, mapLeavesBody_eq_self body inBody,
      mapLeavesHandlers_eq_self rest later]
    rfl

end

end Stmt
end Unsugar
