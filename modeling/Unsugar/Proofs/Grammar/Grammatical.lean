import Unsugar.Proofs.Grammar.WellFormed

/-! What the grammar promises about trees, their hints included. A tree without its hints
then is well-formed, which is all that lowering needs. -/

namespace Unsugar
namespace Expr

mutual

/-- Whether an expression keeps the promises of the grammar throughout, its hints
included. -/
def isGrammatical : Expr → Bool
  | .name .. => true
  | literal .. => true
  | fstring _ _ parts => parts.all isPart && areGrammatical parts
  | field _ value _ spec => isGrammatical value && isGrammaticalOption spec
  | call callee arguments _ => isGrammatical callee && areGrammatical arguments
  | keyword _ _ value => isGrammatical value
  | starred _ _ value => isGrammatical value
  | member object _ _ => isGrammatical object
  | subscript object key _ => isGrammatical object && isGrammatical key
  | slice _ lower upper step =>
    isGrammaticalOption lower && isGrammaticalOption upper && isGrammaticalOption step
  | binary left _ _ right => isGrammatical left && isGrammatical right
  | logical left _ _ right => isGrammatical left && isGrammatical right
  | compare left ops rights =>
    ops.length == rights.length && !rights.isEmpty && isGrammatical left && areGrammatical rights
  | unary _ _ operand => isGrammatical operand
  | conditional test whenTrue whenFalse =>
    isGrammatical test && isGrammatical whenTrue && isGrammatical whenFalse
  | lambda _ params body => areParamsGrammatical params && isGrammatical body
  | list _ items _ => areGrammatical items
  | tuple _ items _ => areGrammatical items
  | set _ items _ => areGrammatical items
  | dict _ items _ => areGrammatical items
  | entry key value => isGrammatical key && isGrammatical value
  | comprehension kind _ body clauses _ =>
    fitsKind kind body && isGrammatical body && areClausesGrammatical clauses
  | named _ value => isGrammatical value
  | yield _ _ value => isGrammaticalOption value

def isGrammaticalOption : Option Expr → Bool
  | none => true
  | some value => isGrammatical value

def areGrammatical : List Expr → Bool
  | [] => true
  | first :: rest => isGrammatical first && areGrammatical rest

def areParamsGrammatical : List Param → Bool
  | [] => true
  | .mk _ _ _ hint default :: rest =>
    isGrammaticalOption hint && isGrammaticalOption default && areParamsGrammatical rest

def areClausesGrammatical : List Clause → Bool
  | [] => true
  | .loop _ target iterable :: rest =>
    (Grammar.targetFault false target).isNone && isGrammatical target && isGrammatical iterable &&
      areClausesGrammatical rest
  | .filter _ test :: rest => isGrammatical test && areClausesGrammatical rest

end

/-- Whether a grammatical expression may be bound, or deleted. -/
def isGrammaticalTarget (deletes : Bool) (target : Expr) : Bool :=
  (Grammar.targetFault deletes target).isNone && target.isGrammatical

theorem areGrammatical_iff {items : List Expr} :
    areGrammatical items = true ↔ ∀ item ∈ items, item.isGrammatical = true := by
  induction items with
  | nil => simp [areGrammatical]
  | cons first rest induction => simp [areGrammatical, induction]

end Expr

namespace Param

/-- Whether the hint and the default of a parameter are grammatical. -/
def isGrammatical (param : Param) : Bool :=
  Expr.isGrammaticalOption param.hint && Expr.isGrammaticalOption param.default

end Param

theorem Expr.areParamsGrammatical_iff {params : List Param} :
    areParamsGrammatical params = true ↔ ∀ param ∈ params, param.isGrammatical = true := by
  induction params with
  | nil => simp [areParamsGrammatical]
  | cons first rest induction =>
    obtain ⟨kind, position, ident, hint, default⟩ := first
    simp [areParamsGrammatical, induction, Param.isGrammatical, Param.hint, Param.default]

namespace Clause

/-- Whether the parts of a clause are grammatical. -/
def isGrammatical : Clause → Bool
  | loop _ target iterable => target.isGrammaticalTarget false && iterable.isGrammatical
  | filter _ test => test.isGrammatical

end Clause

theorem Expr.areClausesGrammatical_iff {clauses : List Clause} :
    areClausesGrammatical clauses = true ↔ ∀ clause ∈ clauses, clause.isGrammatical = true := by
  induction clauses with
  | nil => simp [areClausesGrammatical]
  | cons first rest induction =>
    cases first with
    | loop position target iterable =>
      simp [areClausesGrammatical, induction, Clause.isGrammatical, Expr.isGrammaticalTarget,
        and_assoc]
    | filter position test => simp [areClausesGrammatical, induction, Clause.isGrammatical]

namespace Stmt

/-- Whether the manager and the target of a `with` statement are grammatical. -/
def isItemGrammatical (item : WithItem) : Bool :=
  item.manager.isGrammatical && item.target.all (Expr.isGrammaticalTarget false)

mutual

/-- Whether a statement keeps the promises of the grammar throughout, its hints
included. -/
def isGrammatical : Stmt → Bool
  | expression value => value.isGrammatical
  | assign targets value => targets.all (Expr.isGrammaticalTarget false) && value.isGrammatical
  | augAssign target _ value =>
    target.isSingleTarget && target.isGrammatical && value.isGrammatical
  | annAssign target hint value =>
    target.isSingleTarget && target.isGrammatical && hint.isGrammatical &&
      Expr.isGrammaticalOption value
  | delete _ targets => targets.all (Expr.isGrammaticalTarget true)
  | branch .. => true
  | returns _ result => Expr.isGrammaticalOption result
  | raises _ exception cause =>
    (exception.isSome || cause.isNone) && Expr.isGrammaticalOption exception &&
      Expr.isGrammaticalOption cause
  | declare .. => true
  | asserts _ test message => test.isGrammatical && Expr.isGrammaticalOption message
  | imports .. => true
  | importFrom .. => true
  | conditional _ test body _ orelse =>
    test.isGrammatical && areGrammatical body && areGrammatical orelse
  | whileLoop _ test body orelse =>
    test.isGrammatical && areGrammatical body && areGrammatical orelse
  | forLoop _ target iterable body orelse =>
    target.isGrammaticalTarget false && iterable.isGrammatical && areGrammatical body &&
      areGrammatical orelse
  | tryBlock _ body handlers orelse final =>
    (Lowering.earlyBareHandler? handlers).isNone && areGrammatical body &&
      areHandlersGrammatical handlers && areGrammatical orelse && areGrammatical final
  | withBlock _ items body => items.all isItemGrammatical && areGrammatical body
  | function decorators _ _ params result body =>
    Expr.areGrammatical decorators && Expr.areParamsGrammatical params &&
      Expr.isGrammaticalOption result && areGrammatical body
  | classDef decorators _ _ bases body =>
    Expr.areGrammatical decorators && Expr.areGrammatical bases && areGrammatical body

def areGrammatical : List Stmt → Bool
  | [] => true
  | first :: rest => isGrammatical first && areGrammatical rest

def areHandlersGrammatical : List Handler → Bool
  | [] => true
  | .mk _ type _ body :: rest =>
    Expr.isGrammaticalOption type && areGrammatical body && areHandlersGrammatical rest

end

theorem areGrammatical_iff {body : List Stmt} :
    areGrammatical body = true ↔ ∀ stmt ∈ body, stmt.isGrammatical = true := by
  induction body with
  | nil => simp [areGrammatical]
  | cons first rest induction => simp [areGrammatical, induction]

theorem areHandlersGrammatical_iff {handlers : List Handler} :
    areHandlersGrammatical handlers = true ↔
      ∀ handler ∈ handlers, areHandlersGrammatical [handler] = true := by
  induction handlers with
  | nil => simp [areHandlersGrammatical]
  | cons first rest induction =>
    obtain ⟨position, type, name, body⟩ := first
    simp [areHandlersGrammatical, induction]

end Stmt

/-! ## Without hints -/

namespace Expr

mutual

/-- A grammatical expression is well-formed. -/
theorem isWellFormed_of_isGrammatical :
    ∀ expr : Expr, expr.isGrammatical = true → expr.isWellFormed = true
  | .name .., _ => rfl
  | literal .., _ => rfl
  | fstring _ _ parts, valid => by
    simp only [isGrammatical, isWellFormed, Bool.and_eq_true] at valid ⊢
    exact ⟨valid.1, areWellFormed_of_areGrammatical parts valid.2⟩
  | field _ value _ spec, valid => by
    simp only [isGrammatical, isWellFormed, Bool.and_eq_true] at valid ⊢
    exact ⟨isWellFormed_of_isGrammatical value valid.1,
      isWellFormedOption_of_isGrammaticalOption spec valid.2⟩
  | call callee arguments _, valid => by
    simp only [isGrammatical, isWellFormed, Bool.and_eq_true] at valid ⊢
    exact ⟨isWellFormed_of_isGrammatical callee valid.1,
      areWellFormed_of_areGrammatical arguments valid.2⟩
  | keyword _ _ value, valid => isWellFormed_of_isGrammatical value valid
  | starred _ _ value, valid => isWellFormed_of_isGrammatical value valid
  | member object _ _, valid => isWellFormed_of_isGrammatical object valid
  | subscript object key _, valid => by
    simp only [isGrammatical, isWellFormed, Bool.and_eq_true] at valid ⊢
    exact ⟨isWellFormed_of_isGrammatical object valid.1,
      isWellFormed_of_isGrammatical key valid.2⟩
  | slice _ lower upper step, valid => by
    simp only [isGrammatical, isWellFormed, Bool.and_eq_true] at valid ⊢
    exact ⟨⟨isWellFormedOption_of_isGrammaticalOption lower valid.1.1,
      isWellFormedOption_of_isGrammaticalOption upper valid.1.2⟩,
      isWellFormedOption_of_isGrammaticalOption step valid.2⟩
  | binary left _ _ right, valid => by
    simp only [isGrammatical, isWellFormed, Bool.and_eq_true] at valid ⊢
    exact ⟨isWellFormed_of_isGrammatical left valid.1, isWellFormed_of_isGrammatical right valid.2⟩
  | logical left _ _ right, valid => by
    simp only [isGrammatical, isWellFormed, Bool.and_eq_true] at valid ⊢
    exact ⟨isWellFormed_of_isGrammatical left valid.1, isWellFormed_of_isGrammatical right valid.2⟩
  | compare left _ rights, valid => by
    simp only [isGrammatical, isWellFormed, Bool.and_eq_true] at valid ⊢
    exact ⟨⟨valid.1.1, isWellFormed_of_isGrammatical left valid.1.2⟩,
      areWellFormed_of_areGrammatical rights valid.2⟩
  | unary _ _ operand, valid => isWellFormed_of_isGrammatical operand valid
  | conditional test whenTrue whenFalse, valid => by
    simp only [isGrammatical, isWellFormed, Bool.and_eq_true] at valid ⊢
    exact ⟨⟨isWellFormed_of_isGrammatical test valid.1.1,
      isWellFormed_of_isGrammatical whenTrue valid.1.2⟩,
      isWellFormed_of_isGrammatical whenFalse valid.2⟩
  | lambda _ params body, valid => by
    simp only [isGrammatical, isWellFormed, Bool.and_eq_true] at valid ⊢
    exact ⟨areDefaultsWellFormed_of_areParamsGrammatical params valid.1,
      isWellFormed_of_isGrammatical body valid.2⟩
  | list _ items _, valid => areWellFormed_of_areGrammatical items valid
  | tuple _ items _, valid => areWellFormed_of_areGrammatical items valid
  | set _ items _, valid => areWellFormed_of_areGrammatical items valid
  | dict _ items _, valid => areWellFormed_of_areGrammatical items valid
  | entry key value, valid => by
    simp only [isGrammatical, isWellFormed, Bool.and_eq_true] at valid ⊢
    exact ⟨isWellFormed_of_isGrammatical key valid.1, isWellFormed_of_isGrammatical value valid.2⟩
  | comprehension _ _ body clauses _, valid => by
    simp only [isGrammatical, isWellFormed, Bool.and_eq_true] at valid ⊢
    exact ⟨⟨valid.1.1, isWellFormed_of_isGrammatical body valid.1.2⟩,
      areClausesWellFormed_of_areClausesGrammatical clauses valid.2⟩
  | named _ value, valid => isWellFormed_of_isGrammatical value valid
  | yield _ _ value, valid => isWellFormedOption_of_isGrammaticalOption value valid

theorem isWellFormedOption_of_isGrammaticalOption :
    ∀ value : Option Expr, isGrammaticalOption value = true → isWellFormedOption value = true
  | none, _ => rfl
  | some value, valid => isWellFormed_of_isGrammatical value valid

theorem areWellFormed_of_areGrammatical :
    ∀ items : List Expr, areGrammatical items = true → areWellFormed items = true
  | [], _ => rfl
  | first :: rest, valid => by
    simp only [areGrammatical, areWellFormed, Bool.and_eq_true] at valid ⊢
    exact ⟨isWellFormed_of_isGrammatical first valid.1,
      areWellFormed_of_areGrammatical rest valid.2⟩

theorem areDefaultsWellFormed_of_areParamsGrammatical :
    ∀ params : List Param, areParamsGrammatical params = true → areDefaultsWellFormed params = true
  | [], _ => rfl
  | .mk _ _ _ _ default :: rest, valid => by
    simp only [areParamsGrammatical, areDefaultsWellFormed, Bool.and_eq_true] at valid ⊢
    exact ⟨isWellFormedOption_of_isGrammaticalOption default valid.1.2,
      areDefaultsWellFormed_of_areParamsGrammatical rest valid.2⟩

theorem areClausesWellFormed_of_areClausesGrammatical :
    ∀ clauses : List Clause, areClausesGrammatical clauses = true →
      areClausesWellFormed clauses = true
  | [], _ => rfl
  | .loop _ target iterable :: rest, valid => by
    simp only [areClausesGrammatical, areClausesWellFormed, Bool.and_eq_true] at valid ⊢
    exact ⟨⟨⟨valid.1.1.1, isWellFormed_of_isGrammatical target valid.1.1.2⟩,
      isWellFormed_of_isGrammatical iterable valid.1.2⟩,
      areClausesWellFormed_of_areClausesGrammatical rest valid.2⟩
  | .filter _ test :: rest, valid => by
    simp only [areClausesGrammatical, areClausesWellFormed, Bool.and_eq_true] at valid ⊢
    exact ⟨isWellFormed_of_isGrammatical test valid.1,
      areClausesWellFormed_of_areClausesGrammatical rest valid.2⟩

end

theorem isTarget_of_isGrammaticalTarget {deletes : Bool} {target : Expr}
    (valid : target.isGrammaticalTarget deletes = true) : target.isTarget deletes = true := by
  simp only [isGrammaticalTarget, isTarget, Bool.and_eq_true] at valid ⊢
  exact ⟨valid.1, isWellFormed_of_isGrammatical target valid.2⟩

end Expr

namespace Stmt

theorem isItemWellFormed_of_isItemGrammatical {item : WithItem}
    (valid : isItemGrammatical item = true) : isItemWellFormed item = true := by
  obtain ⟨manager, target⟩ := item
  simp only [isItemGrammatical, isItemWellFormed, Bool.and_eq_true, Option.all_eq_true] at valid ⊢
  exact ⟨manager.isWellFormed_of_isGrammatical valid.1, fun target member =>
    Expr.isTarget_of_isGrammaticalTarget (valid.2 target member)⟩

theorem all_isTarget_of_isGrammaticalTarget {deletes : Bool} {targets : List Expr}
    (valid : targets.all (Expr.isGrammaticalTarget deletes) = true) :
    targets.all (Expr.isTarget deletes) = true := by
  rw [List.all_eq_true] at valid ⊢
  exact fun target member => Expr.isTarget_of_isGrammaticalTarget (valid target member)

section

open Unsugar.Expr

mutual

/-- A grammatical statement is well-formed. -/
theorem isWellFormed_of_isGrammatical :
    ∀ stmt : Stmt, stmt.isGrammatical = true → stmt.isWellFormed = true
  | expression value, valid => value.isWellFormed_of_isGrammatical valid
  | assign targets value, valid => by
    simp only [isGrammatical, isWellFormed, Bool.and_eq_true] at valid ⊢
    exact ⟨all_isTarget_of_isGrammaticalTarget valid.1,
      value.isWellFormed_of_isGrammatical valid.2⟩
  | augAssign target _ value, valid => by
    simp only [isGrammatical, isWellFormed, Bool.and_eq_true] at valid ⊢
    exact ⟨⟨valid.1.1, target.isWellFormed_of_isGrammatical valid.1.2⟩,
      value.isWellFormed_of_isGrammatical valid.2⟩
  | annAssign target hint value, valid => by
    simp only [isGrammatical, isWellFormed, Bool.and_eq_true] at valid ⊢
    exact ⟨⟨⟨valid.1.1.1, target.isWellFormed_of_isGrammatical valid.1.1.2⟩,
      hint.isWellFormed_of_isGrammatical valid.1.2⟩,
      isWellFormedOption_of_isGrammaticalOption value valid.2⟩
  | delete _ targets, valid => all_isTarget_of_isGrammaticalTarget valid
  | branch .., _ => rfl
  | returns _ result, valid => isWellFormedOption_of_isGrammaticalOption result valid
  | raises _ exception cause, valid => by
    simp only [isGrammatical, isWellFormed, Bool.and_eq_true] at valid ⊢
    exact ⟨⟨valid.1.1, isWellFormedOption_of_isGrammaticalOption exception valid.1.2⟩,
      isWellFormedOption_of_isGrammaticalOption cause valid.2⟩
  | declare .., _ => rfl
  | asserts _ test message, valid => by
    simp only [isGrammatical, isWellFormed, Bool.and_eq_true] at valid ⊢
    exact ⟨test.isWellFormed_of_isGrammatical valid.1,
      isWellFormedOption_of_isGrammaticalOption message valid.2⟩
  | imports .., _ => rfl
  | importFrom .., _ => rfl
  | conditional _ test body _ orelse, valid => by
    simp only [isGrammatical, isWellFormed, Bool.and_eq_true] at valid ⊢
    exact ⟨⟨test.isWellFormed_of_isGrammatical valid.1.1,
      areWellFormed_of_areGrammatical body valid.1.2⟩,
      areWellFormed_of_areGrammatical orelse valid.2⟩
  | whileLoop _ test body orelse, valid => by
    simp only [isGrammatical, isWellFormed, Bool.and_eq_true] at valid ⊢
    exact ⟨⟨test.isWellFormed_of_isGrammatical valid.1.1,
      areWellFormed_of_areGrammatical body valid.1.2⟩,
      areWellFormed_of_areGrammatical orelse valid.2⟩
  | forLoop _ target iterable body orelse, valid => by
    simp only [isGrammatical, isWellFormed, Bool.and_eq_true] at valid ⊢
    exact ⟨⟨⟨isTarget_of_isGrammaticalTarget valid.1.1.1,
      iterable.isWellFormed_of_isGrammatical valid.1.1.2⟩,
      areWellFormed_of_areGrammatical body valid.1.2⟩,
      areWellFormed_of_areGrammatical orelse valid.2⟩
  | tryBlock _ body handlers orelse final, valid => by
    simp only [isGrammatical, isWellFormed, Bool.and_eq_true] at valid ⊢
    exact ⟨⟨⟨⟨valid.1.1.1.1, areWellFormed_of_areGrammatical body valid.1.1.1.2⟩,
      areHandlersWellFormed_of_areHandlersGrammatical handlers valid.1.1.2⟩,
      areWellFormed_of_areGrammatical orelse valid.1.2⟩,
      areWellFormed_of_areGrammatical final valid.2⟩
  | withBlock _ items body, valid => by
    simp only [isGrammatical, isWellFormed, Bool.and_eq_true, List.all_eq_true] at valid ⊢
    exact ⟨fun item member => isItemWellFormed_of_isItemGrammatical (valid.1 item member),
      areWellFormed_of_areGrammatical body valid.2⟩
  | function decorators _ _ params _ body, valid => by
    simp only [isGrammatical, isWellFormed, Bool.and_eq_true] at valid ⊢
    exact ⟨⟨Expr.areWellFormed_of_areGrammatical decorators valid.1.1.1,
      areDefaultsWellFormed_of_areParamsGrammatical params valid.1.1.2⟩,
      areWellFormed_of_areGrammatical body valid.2⟩
  | classDef decorators _ _ bases body, valid => by
    simp only [isGrammatical, isWellFormed, Bool.and_eq_true] at valid ⊢
    exact ⟨⟨Expr.areWellFormed_of_areGrammatical decorators valid.1.1,
      Expr.areWellFormed_of_areGrammatical bases valid.1.2⟩,
      areWellFormed_of_areGrammatical body valid.2⟩

theorem areWellFormed_of_areGrammatical :
    ∀ body : List Stmt, areGrammatical body = true → areWellFormed body = true
  | [], _ => rfl
  | first :: rest, valid => by
    simp only [areGrammatical, areWellFormed, Bool.and_eq_true] at valid ⊢
    exact ⟨isWellFormed_of_isGrammatical first valid.1,
      areWellFormed_of_areGrammatical rest valid.2⟩

theorem areHandlersWellFormed_of_areHandlersGrammatical :
    ∀ handlers : List Handler, areHandlersGrammatical handlers = true →
      areHandlersWellFormed handlers = true
  | [], _ => rfl
  | .mk _ type _ body :: rest, valid => by
    simp only [areHandlersGrammatical, areHandlersWellFormed, Bool.and_eq_true] at valid ⊢
    exact ⟨⟨isWellFormedOption_of_isGrammaticalOption type valid.1.1,
      areWellFormed_of_areGrammatical body valid.1.2⟩,
      areHandlersWellFormed_of_areHandlersGrammatical rest valid.2⟩

end

end

end Stmt
end Unsugar
