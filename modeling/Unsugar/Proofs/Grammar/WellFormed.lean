import Unsugar.Grammar.Check
import Unsugar.Lowering.Statement

/-! What the grammar promises about trees beyond their type: which expressions are
targets, how many operands a chain of comparisons has, what a formatted string is made
of, and where a bare handler stands. -/

namespace Unsugar
namespace Expr

/-- Whether a part of a formatted string is a text or a replacement field. -/
def isPart : Expr → Bool
  | literal _ _ (.text _) => true
  | field .. => true
  | _ => false

def isEntry : Expr → Bool
  | entry .. => true
  | _ => false

/-- Whether the body of a comprehension fits its kind. -/
def fitsKind (kind : ComprehensionKind) (body : Expr) : Bool :=
  match kind with
  | .dict => body.isEntry
  | _ => true

mutual

/-- Whether an expression keeps the promises of the grammar throughout. -/
def isWellFormed : Expr → Bool
  | .name .. => true
  | literal .. => true
  | fstring _ _ parts => parts.all isPart && areWellFormed parts
  | field _ value _ spec => isWellFormed value && isWellFormedOption spec
  | call callee arguments _ => isWellFormed callee && areWellFormed arguments
  | keyword _ _ value => isWellFormed value
  | starred _ _ value => isWellFormed value
  | member object _ _ => isWellFormed object
  | subscript object key _ => isWellFormed object && isWellFormed key
  | slice _ lower upper step =>
    isWellFormedOption lower && isWellFormedOption upper && isWellFormedOption step
  | binary left _ _ right => isWellFormed left && isWellFormed right
  | logical left _ _ right => isWellFormed left && isWellFormed right
  | compare left ops rights =>
    ops.length == rights.length && !rights.isEmpty && isWellFormed left && areWellFormed rights
  | unary _ _ operand => isWellFormed operand
  | conditional test whenTrue whenFalse =>
    isWellFormed test && isWellFormed whenTrue && isWellFormed whenFalse
  | lambda _ params body => areDefaultsWellFormed params && isWellFormed body
  | list _ items _ => areWellFormed items
  | tuple _ items _ => areWellFormed items
  | set _ items _ => areWellFormed items
  | dict _ items _ => areWellFormed items
  | entry key value => isWellFormed key && isWellFormed value
  | comprehension kind _ body clauses _ =>
    fitsKind kind body && isWellFormed body && areClausesWellFormed clauses
  | named _ value => isWellFormed value
  | yield _ _ value => isWellFormedOption value

def isWellFormedOption : Option Expr → Bool
  | none => true
  | some value => isWellFormed value

def areWellFormed : List Expr → Bool
  | [] => true
  | first :: rest => isWellFormed first && areWellFormed rest

def areDefaultsWellFormed : List Param → Bool
  | [] => true
  | .mk _ _ _ _ default :: rest => isWellFormedOption default && areDefaultsWellFormed rest

def areClausesWellFormed : List Clause → Bool
  | [] => true
  | .loop _ target iterable :: rest =>
    (Grammar.targetFault false target).isNone && isWellFormed target && isWellFormed iterable &&
      areClausesWellFormed rest
  | .filter _ test :: rest => isWellFormed test && areClausesWellFormed rest

end

/-- Whether a well-formed expression may be bound, or deleted. -/
def isTarget (deletes : Bool) (target : Expr) : Bool :=
  (Grammar.targetFault deletes target).isNone && target.isWellFormed

theorem areWellFormed_iff {items : List Expr} :
    areWellFormed items = true ↔ ∀ item ∈ items, item.isWellFormed = true := by
  induction items with
  | nil => simp [areWellFormed]
  | cons first rest induction => simp [areWellFormed, induction]

end Expr

namespace Stmt

/-- Whether the manager and the target of a `with` statement are well-formed. -/
def isItemWellFormed (item : WithItem) : Bool :=
  item.manager.isWellFormed && item.target.all (Expr.isTarget false)

mutual

/-- Whether a statement keeps the promises of the grammar throughout. -/
def isWellFormed : Stmt → Bool
  | expression value => value.isWellFormed
  | assign targets value => targets.all (Expr.isTarget false) && value.isWellFormed
  | augAssign target _ value =>
    target.isSingleTarget && target.isWellFormed && value.isWellFormed
  | annAssign target hint value =>
    target.isSingleTarget && target.isWellFormed && hint.isWellFormed &&
      Expr.isWellFormedOption value
  | delete _ targets => targets.all (Expr.isTarget true)
  | branch .. => true
  | returns _ result => Expr.isWellFormedOption result
  | raises _ exception cause =>
    (exception.isSome || cause.isNone) && Expr.isWellFormedOption exception &&
      Expr.isWellFormedOption cause
  | declare .. => true
  | asserts _ test message => test.isWellFormed && Expr.isWellFormedOption message
  | imports .. => true
  | importFrom .. => true
  | conditional _ test body _ orelse =>
    test.isWellFormed && areWellFormed body && areWellFormed orelse
  | whileLoop _ test body orelse =>
    test.isWellFormed && areWellFormed body && areWellFormed orelse
  | forLoop _ target iterable body orelse =>
    target.isTarget false && iterable.isWellFormed && areWellFormed body && areWellFormed orelse
  | tryBlock _ body handlers orelse final =>
    (Lowering.earlyBareHandler? handlers).isNone && areWellFormed body &&
      areHandlersWellFormed handlers && areWellFormed orelse && areWellFormed final
  | withBlock _ items body => items.all isItemWellFormed && areWellFormed body
  | function decorators _ _ params _ body =>
    Expr.areWellFormed decorators && Expr.areDefaultsWellFormed params && areWellFormed body
  | classDef decorators _ _ bases body =>
    Expr.areWellFormed decorators && Expr.areWellFormed bases && areWellFormed body

def areWellFormed : List Stmt → Bool
  | [] => true
  | first :: rest => isWellFormed first && areWellFormed rest

def areHandlersWellFormed : List Handler → Bool
  | [] => true
  | .mk _ type _ body :: rest =>
    Expr.isWellFormedOption type && areWellFormed body && areHandlersWellFormed rest

end

@[simp] theorem areWellFormed_append {first second : List Stmt} :
    areWellFormed (first ++ second) = (areWellFormed first && areWellFormed second) := by
  induction first with
  | nil => rfl
  | cons stmt rest induction => simp [areWellFormed, induction, Bool.and_assoc]

end Stmt

/-- Whether a bare handler stands before another one depends on their types alone. -/
theorem Lowering.isNone_earlyBareHandler? (handlers : List Handler) :
    (earlyBareHandler? handlers).isNone = (handlers.map (·.type.isNone)).dropLast.all (!·) := by
  rw [Bool.eq_iff_iff, Option.isNone_iff_eq_none, earlyBareHandler?, List.find?_eq_none,
    ← List.map_dropLast, List.all_map, List.all_eq_true]
  simp [Option.isSome_iff_ne_none]

/-! ## Targets without faults -/

namespace Grammar

/-- What a list of targets without faults begins with. -/
theorem targetsFault_cons_eq_none {deletes starSeen : Bool} {first : Expr} {rest : List Expr} :
    targetsFault deletes starSeen (first :: rest) = none ↔
      targetFault deletes first = none ∧ (starSeen && Lowering.isStarred first) = false ∧
        targetsFault deletes (starSeen || Lowering.isStarred first) rest = none := by
  have starred : first.starPosition?.isSome = Lowering.isStarred first := by cases first <;> rfl
  rw [targetsFault]
  split
  · rename_i position found
    have isStarred : Lowering.isStarred first = true := by rw [← starred, found]; rfl
    cases starSeen <;> cases targetFault deletes first <;> simp [isStarred]
  · rename_i found
    have plain : Lowering.isStarred first = false := by rw [← starred, found]; rfl
    cases targetFault deletes first <;> simp [plain]

/-- The targets of a list without faults have none. -/
theorem targetFault_of_targetsFault {deletes : Bool} {items : List Expr} :
    ∀ {starSeen : Bool}, targetsFault deletes starSeen items = none →
      ∀ item ∈ items, targetFault deletes item = none := by
  induction items with
  | nil => simp
  | cons first rest induction =>
    intro starSeen faultless
    obtain ⟨here, _, later⟩ := targetsFault_cons_eq_none.mp faultless
    exact List.forall_mem_cons.mpr ⟨here, induction later⟩

/-- At most one target of a list without faults is starred. -/
theorem stars_le_of_targetsFault {deletes : Bool} {items : List Expr} :
    ∀ {starSeen : Bool}, targetsFault deletes starSeen items = none →
      (items.filter Lowering.isStarred).length ≤ if starSeen then 0 else 1 := by
  induction items with
  | nil => simp
  | cons first rest induction =>
    intro starSeen faultless
    obtain ⟨_, once, later⟩ := targetsFault_cons_eq_none.mp faultless
    have after := induction later
    cases starred : Lowering.isStarred first <;> cases starSeen <;> simp_all

theorem drop_stars_of_targetsFault {deletes : Bool} {items : List Expr}
    (faultless : targetsFault deletes false items = none) :
    (items.filter Lowering.isStarred).drop 1 = [] :=
  List.drop_eq_nil_of_le (stars_le_of_targetsFault faultless)

theorem targetFault_of_starred {position : Position} {op : StarOp} {value : Expr}
    (faultless : targetFault false (.starred position op value) = none) :
    targetFault false value = none := by
  rw [targetFault] at faultless
  split at faultless
  · exact faultless
  · cases faultless

end Grammar
end Unsugar
