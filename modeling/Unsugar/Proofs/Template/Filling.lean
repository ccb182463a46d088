import Unsugar.Proofs.Grammar.Statement
import Unsugar.Proofs.NumberedName
import Unsugar.Proofs.Template.Expansion
import Unsugar.Proofs.Tree.Agreement
import Unsugar.Template

/-! Filling templates. Where a template gives statements, they are its parse with the bound
trees in the places of their marks, all put in at once: nothing that is put in is looked at
for marks again, and no expression is put in twice. -/

namespace Unsugar

/-! ## Substitution -/

/-- Trees for names: expressions wherever a name stands, and statements where it stands
alone. -/
structure Substitution where
  expr : String → Option Expr
  stmts : String → Option (List Stmt)

namespace Expr

mutual

/-- An expression or target with trees for some of its names, all at once. A formatted string
does not keep its text. -/
def substitute (trees : Substitution) : Expr → Expr
  | name position id => (trees.expr id).getD (name position id)
  | literal position raw value => literal position raw value
  | fstring position _ parts => fstring position "" (substituteList trees parts)
  | field position value conversion spec =>
    field position (substitute trees value) conversion (substituteOption trees spec)
  | call callee arguments closing =>
    call (substitute trees callee) (substituteList trees arguments) closing
  | keyword position id value => keyword position id (substitute trees value)
  | starred position op value => starred position op (substitute trees value)
  | member object position id => member (substitute trees object) position id
  | subscript object key closing =>
    subscript (substitute trees object) (substitute trees key) closing
  | slice position lower upper step =>
    slice position (substituteOption trees lower) (substituteOption trees upper)
      (substituteOption trees step)
  | binary left position op right =>
    binary (substitute trees left) position op (substitute trees right)
  | logical left position op right =>
    logical (substitute trees left) position op (substitute trees right)
  | compare left ops rights => compare (substitute trees left) ops (substituteList trees rights)
  | unary position op operand => unary position op (substitute trees operand)
  | conditional test whenTrue whenFalse =>
    conditional (substitute trees test) (substitute trees whenTrue) (substitute trees whenFalse)
  | lambda position params body =>
    lambda position (substituteParams trees params) (substitute trees body)
  | list opening items closing => list opening (substituteList trees items) closing
  | tuple opening items closing => tuple opening (substituteList trees items) closing
  | set opening items closing => set opening (substituteList trees items) closing
  | dict opening items closing => dict opening (substituteList trees items) closing
  | entry key value => entry (substitute trees key) (substitute trees value)
  | comprehension kind opening body clauses closing =>
    comprehension kind opening (substitute trees body) (substituteClauses trees clauses) closing
  | named target value => named target (substitute trees value)
  | yield position delegates value => yield position delegates (substituteOption trees value)

def substituteOption (trees : Substitution) : Option Expr → Option Expr
  | none => none
  | some value => some (substitute trees value)

def substituteList (trees : Substitution) : List Expr → List Expr
  | [] => []
  | first :: rest => substitute trees first :: substituteList trees rest

def substituteParams (trees : Substitution) : List Param → List Param
  | [] => []
  | .mk kind position ident hint default :: rest =>
    .mk kind position ident (substituteOption trees hint) (substituteOption trees default) ::
      substituteParams trees rest

def substituteClauses (trees : Substitution) : List Clause → List Clause
  | [] => []
  | .loop position target iterable :: rest =>
    .loop position (substitute trees target) (substitute trees iterable) ::
      substituteClauses trees rest
  | .filter position test :: rest =>
    .filter position (substitute trees test) :: substituteClauses trees rest

end

def substituteItems (trees : Substitution) : List WithItem → List WithItem
  | [] => []
  | ⟨manager, target⟩ :: rest =>
    ⟨substitute trees manager, substituteOption trees target⟩ :: substituteItems trees rest

end Expr

namespace Stmt

open Unsugar.Expr (substituteOption substituteList substituteParams substituteItems)

/-- The statements for an expression that stands alone. -/
def alone? (trees : Substitution) : Expr → Option (List Stmt)
  | .name _ id => trees.stmts id
  | _ => none

mutual

/-- A statement with trees for some of its names, all at once. -/
def substitute (trees : Substitution) : Stmt → List Stmt
  | expression value => (alone? trees value).getD [expression (value.substitute trees)]
  | assign targets value => [assign (substituteList trees targets) (value.substitute trees)]
  | augAssign target op value =>
    [augAssign (target.substitute trees) op (value.substitute trees)]
  | annAssign target hint value =>
    [annAssign (target.substitute trees) (hint.substitute trees) (substituteOption trees value)]
  | delete position targets => [delete position (substituteList trees targets)]
  | branch position kind => [branch position kind]
  | returns position result => [returns position (substituteOption trees result)]
  | raises position exception cause =>
    [raises position (substituteOption trees exception) (substituteOption trees cause)]
  | declare position declaration names => [declare position declaration names]
  | asserts position test message =>
    [asserts position (test.substitute trees) (substituteOption trees message)]
  | imports position names => [imports position names]
  | importFrom position source level names closing =>
    [importFrom position source level names closing]
  | conditional position test body elsePosition orelse =>
    [conditional position (test.substitute trees) (substituteBody trees body) elsePosition
      (substituteBody trees orelse)]
  | whileLoop position test body orelse =>
    [whileLoop position (test.substitute trees) (substituteBody trees body)
      (substituteBody trees orelse)]
  | forLoop position target iterable body orelse =>
    [forLoop position (target.substitute trees) (iterable.substitute trees)
      (substituteBody trees body) (substituteBody trees orelse)]
  | tryBlock position body handlers orelse final =>
    [tryBlock position (substituteBody trees body) (substituteHandlers trees handlers)
      (substituteBody trees orelse) (substituteBody trees final)]
  | withBlock position items body =>
    [withBlock position (substituteItems trees items) (substituteBody trees body)]
  | function decorators position ident params result body =>
    [function (substituteList trees decorators) position ident (substituteParams trees params)
      (substituteOption trees result) (substituteBody trees body)]
  | classDef decorators position ident bases body =>
    [classDef (substituteList trees decorators) position ident (substituteList trees bases)
      (substituteBody trees body)]

/-- A body with trees for some of its names, all at once. -/
def substituteBody (trees : Substitution) : List Stmt → List Stmt
  | [] => []
  | first :: rest => substitute trees first ++ substituteBody trees rest

def substituteHandlers (trees : Substitution) : List Handler → List Handler
  | [] => []
  | .mk position type ident body :: rest =>
    .mk position (substituteOption trees type) ident (substituteBody trees body) ::
      substituteHandlers trees rest

end

end Stmt

namespace Template

open StringLiteral (ok_of_bind)

/-! ## Marks -/

/-- The bound trees of a template, by their marks. What is spelled like the mark of an
expression that is not bound stays, and what is spelled like the mark of statements, with none
bound, gives way to nothing. -/
def trees (values : Values) : Substitution where
  expr id := do
    let name ← afterFront? exprMark id
    match values.lookup (String.ofList name) with
    | some (.expr value) => some value
    | _ => none
  stmts id := (afterFront? stmtMark id).map fun name =>
    ((values.lookup (String.ofList name)).bind Value.statements?).getD []

theorem fillStmts_eq (values : Values) (name : String) :
    fillStmts values name = ((values.lookup name).bind Value.statements?).getD [] := by
  rw [fillStmts]
  cases values.lookup name with
  | none => rfl
  | some value =>
    cases value with
    | stmts body => cases body <;> rfl
    | _ => rfl

section

variable {values : Values} {position : Position} {id name : String} {tree : Expr}

theorem trees_expr_none (free : marked? exprMark (.name position id) = none) :
    (trees values).expr id = none := by
  rw [marked?, Option.map_eq_none_iff] at free
  simp [trees, free]

theorem trees_expr_some (mark : marked? exprMark (.name position id) = some name)
    (bound : values.lookup name = some (.expr tree)) : (trees values).expr id = some tree := by
  rw [marked?, Option.map_eq_some_iff] at mark
  rcases mark with ⟨found, mark, rfl⟩
  simp [trees, mark, bound]

/-- What is put in for an expression: nothing unless it is a mark, and the tree of a mark that
is bound and has not been met before. -/
theorem fillExpr_run {expr : Expr} {answer : Option Expr} {used after : List String}
    (run : (fillExpr values expr).run used = .ok (answer, after)) :
    (marked? exprMark expr = none ∧ answer = none ∧ after = used) ∨
    ∃ name tree, marked? exprMark expr = some name ∧ name ∉ used ∧
      values.lookup name = some (.expr tree) ∧ answer = some tree ∧ after = name :: used := by
  rw [fillExpr] at run
  cases mark : marked? exprMark expr with
  | none =>
    rw [mark] at run
    cases run
    exact .inl ⟨rfl, rfl, rfl⟩
  | some name =>
    rw [mark] at run
    simp only [StateT.run_bind, StateT.run_get, pure_bind] at run
    by_cases twice : used.contains name = true
    · rw [if_pos twice] at run
      cases run
    · rw [if_neg twice] at run
      have fresh : name ∉ used := by simpa using twice
      cases bound : values.lookup name with
      | none =>
        rw [bound] at run
        cases run
      | some value =>
        rw [bound] at run
        cases value with
        | expr tree =>
          cases run
          exact .inr ⟨name, _, rfl, fresh, bound, rfl, rfl⟩
        | _ => cases run

end

/-- The names of the expressions whose marks a visitor is shown. -/
def exprMarks (sights : List Shown) : List String :=
  sights.filterMap (marked? exprMark ·.value)

/-! ## Filling -/

/-- What a computation gives when it succeeds: its value is known, and the expressions whose
marks it is shown have been put in, none of them for the second time. -/
structure Filled {α : Type} (values : Values) (sights : List Shown) (value given : α)
    (used after : List String) : Prop where
  value : given = value
  names : after = (exprMarks sights).reverse ++ used
  once : used.Nodup → after.Nodup
  bound : ∀ name ∈ exprMarks sights, ∃ expr, values.lookup name = some (.expr expr)

/-- A computation that gives a value, if it gives one, and puts in the expressions whose marks
it is shown. -/
def Fills {α : Type} (values : Values) (action : Filling α) (value : α) (sights : List Shown) :
    Prop :=
  ∀ used given after, action.run used = .ok (given, after) →
    Filled values sights value given used after

namespace Fills

variable {α β : Type} {values : Values} {action : Filling α} {next : α → Filling β} {value : α}
  {result : β} {first second : List Shown}

theorem congr (given : Fills values action value first)
    (same : exprMarks first = exprMarks second) : Fills values action value second := by
  intro used result after run
  have filled := given used result after run
  constructor
  · exact filled.value
  · rw [← same, filled.names]
  · exact filled.once
  · rw [← same]
    exact filled.bound

theorem nothing (value : α) : Fills values (pure value) value [] := by
  intro used given after run
  cases run
  constructor
  · rfl
  · rfl
  · exact id
  · intro name member
    cases member

theorem bind (here : Fills values action value first)
    (later : Fills values (next value) result second) :
    Fills values (action >>= next) result (first ++ second) := by
  intro used given after run
  rw [StateT.run_bind] at run
  rcases ok_of_bind run with ⟨⟨middle, between⟩, start, rest⟩
  have filled := here used middle between start
  cases filled.value
  have filled' := later between given after rest
  constructor
  · exact filled'.value
  · rw [filled'.names, filled.names, exprMarks, exprMarks, exprMarks, List.filterMap_append,
      List.reverse_append, List.append_assoc]
  · exact fun distinct => filled'.once (filled.once distinct)
  · intro name member
    rw [exprMarks, List.filterMap_append] at member
    exact (List.mem_append.mp member).elim (filled.bound name) (filled'.bound name)

/-- What a value is made into does not matter. -/
theorem give (here : Fills values action value first) (build : α → β) :
    Fills values (action >>= fun value => pure (build value)) (build value) first := by
  have whole : Fills values (action >>= fun value => pure (build value)) (build value)
      (first ++ []) := here.bind (nothing (build value))
  rwa [List.append_nil] at whole

theorem map (here : Fills values action value first) (build : α → β) :
    Fills values (build <$> action) (build value) first := by
  rw [map_eq_pure_bind]
  exact here.give build

/-- A name gives way to a bound expression if it is the mark of one. -/
theorem name {sight : Shown} {position : Position} {id : String}
    (same : sight.value = .name position id) :
    Fills values (orRevise (fillExpr values (.name position id)) (pure (.name position id)))
      (((trees values).expr id).getD (.name position id)) [sight] := by
  have marks : exprMarks [sight] = (marked? exprMark (.name position id)).toList := by
    rw [exprMarks, List.filterMap_cons, same]
    cases marked? exprMark (.name position id) <;> rfl
  intro used given after run
  rw [orRevise, StateT.run_bind] at run
  rcases ok_of_bind run with ⟨⟨answer, between⟩, found, rest⟩
  rcases fillExpr_run found with ⟨free, rfl, rfl⟩ | ⟨name, tree, mark, fresh, bound, rfl, rfl⟩
  · cases rest
    rw [free] at marks
    refine ⟨?_, ?_, fun distinct => distinct, ?_⟩
    · rw [trees_expr_none free, Option.getD_none]
    · rw [marks, Option.toList_none, List.reverse_nil, List.nil_append]
    · rw [marks]
      intro name member
      cases member
  · cases rest
    rw [mark] at marks
    refine ⟨?_, ?_, fun distinct => List.nodup_cons.mpr ⟨fresh, distinct⟩, ?_⟩
    · rw [trees_expr_some mark bound, Option.getD_some]
    · rw [marks]
      rfl
    · rw [marks]
      intro other member
      cases List.mem_singleton.mp member
      exact ⟨_, bound⟩

/-- An expression that is no name is shown, and then what is below it. -/
theorem enter {expr : Expr} {below : Filling Expr} {expected : Expr} {sight : Shown}
    (rest : Fills values below expected first) (same : sight.value = expr)
    (plain : expr.ident? = none) :
    Fills values (orRevise (fillExpr values expr) below) expected (sight :: first) := by
  have free : marked? exprMark expr = none := by
    cases expr with
    | name => cases plain
    | _ => rfl
  have marks : exprMarks (sight :: first) = exprMarks first := by
    rw [exprMarks, List.filterMap_cons_none (same ▸ free), exprMarks]
  have skips : orRevise (fillExpr values expr) below = below := by
    rw [fillExpr, free]
    exact pure_bind ..
  rw [skips]
  exact rest.congr marks.symm

theorem expr {expr : Expr} {below : Filling Expr} {expected : Expr}
    (rest : Fills values below expected first) (plain : expr.ident? = none) :
    Fills values (orRevise ((visitor values).expr expr) below) expected (.expr expr :: first) :=
  rest.enter rfl plain

theorem target {target : Expr} {below : Filling Expr} {expected : Expr}
    (rest : Fills values below expected first) (plain : target.ident? = none) :
    Fills values (orRevise ((visitor values).target target) below) expected
      (.target target :: first) :=
  rest.enter rfl plain

end Fills

/-! ## Expressions -/

open Unsugar.Expr

variable {values : Values}

mutual

/-- Filling an expression puts all trees in at once. -/
theorem revise_fills :
    ∀ expr : Expr, expr.isGrammatical = true →
      Fills values (expr.revise (visitor values)) (expr.substitute (trees values)) expr.shown
  | .name .., _ => .name rfl
  | .literal .., _ => (Fills.nothing _).expr rfl
  | .fstring _ _ parts, valid => by
    simp only [isGrammatical, Bool.and_eq_true] at valid
    exact ((reviseList_fills parts valid.2).give _).expr rfl
  | .field _ value _ spec, valid => by
    simp only [isGrammatical, Bool.and_eq_true] at valid
    exact ((revise_fills value valid.1).bind ((reviseOption_fills spec valid.2).give _)).expr rfl
  | .call callee arguments _, valid => by
    simp only [isGrammatical, Bool.and_eq_true] at valid
    exact ((revise_fills callee valid.1).bind
      ((reviseArguments_fills arguments valid.2).give _)).expr rfl
  | .keyword _ _ value, valid => ((revise_fills value valid).give _).expr rfl
  | .starred _ _ value, valid => ((revise_fills value valid).give _).expr rfl
  | .member object _ _, valid => ((revise_fills object valid).give _).expr rfl
  | .subscript object key _, valid => by
    simp only [isGrammatical, Bool.and_eq_true] at valid
    exact ((revise_fills object valid.1).bind ((revise_fills key valid.2).give _)).expr rfl
  | .slice _ lower upper step, valid => by
    simp only [isGrammatical, Bool.and_eq_true] at valid
    exact ((reviseOption_fills lower valid.1.1).bind
      ((reviseOption_fills upper valid.1.2).bind
        ((reviseOption_fills step valid.2).give _))).expr rfl
  | .binary left _ _ right, valid => by
    simp only [isGrammatical, Bool.and_eq_true] at valid
    exact ((revise_fills left valid.1).bind ((revise_fills right valid.2).give _)).expr rfl
  | .logical left _ _ right, valid => by
    simp only [isGrammatical, Bool.and_eq_true] at valid
    exact ((revise_fills left valid.1).bind ((revise_fills right valid.2).give _)).expr rfl
  | .compare left _ rights, valid => by
    simp only [isGrammatical, Bool.and_eq_true] at valid
    exact ((revise_fills left valid.1.2).bind ((reviseList_fills rights valid.2).give _)).expr rfl
  | .unary _ _ operand, valid => ((revise_fills operand valid).give _).expr rfl
  | .conditional test whenTrue whenFalse, valid => by
    simp only [isGrammatical, Bool.and_eq_true] at valid
    exact ((revise_fills test valid.1.1).bind
      ((revise_fills whenTrue valid.1.2).bind ((revise_fills whenFalse valid.2).give _))).expr rfl
  | .lambda _ params body, valid => by
    simp only [isGrammatical, Bool.and_eq_true] at valid
    exact ((reviseParams_fills params valid.1).bind ((revise_fills body valid.2).give _)).expr rfl
  | .list _ items _, valid => ((reviseList_fills items valid).give _).expr rfl
  | .tuple _ items _, valid => ((reviseList_fills items valid).give _).expr rfl
  | .set _ items _, valid => ((reviseList_fills items valid).give _).expr rfl
  | .dict _ items _, valid => ((reviseList_fills items valid).give _).expr rfl
  | .entry key value, valid => by
    simp only [isGrammatical, Bool.and_eq_true] at valid
    exact ((revise_fills key valid.1).bind ((revise_fills value valid.2).give _)).expr rfl
  | .comprehension _ _ body clauses _, valid => by
    simp only [isGrammatical, Bool.and_eq_true] at valid
    -- The body comes after its clauses, as it is evaluated after them.
    exact ((reviseClauses_fills clauses valid.2).bind
      ((revise_fills body valid.1.2).give _)).expr rfl
  | .named _ value, valid => ((revise_fills value valid).give _).expr rfl
  | .yield _ _ value, valid => ((reviseOption_fills value valid).give _).expr rfl

/-- Filling a binding target does too. -/
theorem reviseTarget_fills {deletes : Bool} :
    ∀ target : Expr, Grammar.targetFault deletes target = none → target.isGrammatical = true →
      Fills values (target.reviseTarget (visitor values)) (target.substitute (trees values))
        target.shownAsTarget
  | .name .., _, _ => .name rfl
  | .tuple _ items _, faultless, valid =>
    ((reviseTargets_fills items (Grammar.targetFault_of_targetsFault faultless) valid).give
      _).target rfl
  | .list _ items _, faultless, valid =>
    ((reviseTargets_fills items (Grammar.targetFault_of_targetsFault faultless) valid).give
      _).target rfl
  | .starred position op value, faultless, valid => by
    rw [Grammar.targetFault] at faultless
    split at faultless
    · exact ((reviseTarget_fills value faultless valid).give _).target rfl
    · cases faultless
  | .member object _ _, _, valid => ((revise_fills object valid).give _).target rfl
  | .subscript object key _, _, valid => by
    simp only [isGrammatical, Bool.and_eq_true] at valid
    exact ((revise_fills object valid.1).bind ((revise_fills key valid.2).give _)).target rfl
  | .literal .., faultless, _ | .fstring .., faultless, _ | .field .., faultless, _
  | .call .., faultless, _ | .keyword .., faultless, _ | .slice .., faultless, _
  | .binary .., faultless, _ | .logical .., faultless, _ | .compare .., faultless, _
  | .unary .., faultless, _ | .conditional .., faultless, _ | .lambda .., faultless, _
  | .set .., faultless, _ | .dict .., faultless, _ | .entry .., faultless, _
  | .comprehension .., faultless, _ | .named .., faultless, _ | .yield .., faultless, _ => by
    cases faultless

theorem reviseOption_fills :
    ∀ value : Option Expr, isGrammaticalOption value = true →
      Fills values (reviseOption (visitor values) value) (substituteOption (trees values) value)
        (shownOfOption value)
  | none, _ => .nothing _
  | some value, valid => (revise_fills value valid).give _

theorem reviseList_fills :
    ∀ items : List Expr, areGrammatical items = true →
      Fills values (reviseList (visitor values) items) (substituteList (trees values) items)
        (shownOfList items)
  | [], _ => .nothing _
  | first :: rest, valid => by
    simp only [areGrammatical, Bool.and_eq_true] at valid
    exact (revise_fills first valid.1).bind ((reviseList_fills rest valid.2).give _)

theorem reviseArguments_fills :
    ∀ items : List Expr, areGrammatical items = true →
      Fills values (reviseArguments (visitor values) [] items)
        (substituteList (trees values) items) (shownOfList items)
  | [], _ => .nothing _
  | first :: rest, valid => by
    simp only [areGrammatical, Bool.and_eq_true] at valid
    have here : orRevise (pure none) (revise (visitor values) first) =
        revise (visitor values) first := pure_bind ..
    rw [reviseArguments, List.head?_nil, Option.getD_none, here]
    exact (revise_fills first valid.1).bind ((reviseArguments_fills rest valid.2).give _)

theorem reviseTargets_fills {deletes : Bool} :
    ∀ items : List Expr, (∀ item ∈ items, Grammar.targetFault deletes item = none) →
      areGrammatical items = true →
      Fills values (reviseTargets (visitor values) items) (substituteList (trees values) items)
        (shownOfTargets items)
  | [], _, _ => .nothing _
  | first :: rest, faultless, valid => by
    simp only [areGrammatical, Bool.and_eq_true] at valid
    rcases List.forall_mem_cons.mp faultless with ⟨here, later⟩
    exact (reviseTarget_fills first here valid.1).bind
      ((reviseTargets_fills rest later valid.2).give _)

theorem reviseParams_fills :
    ∀ params : List Param, areParamsGrammatical params = true →
      Fills values (reviseParams (visitor values) params)
        (substituteParams (trees values) params) (shownOfParams params)
  | [], _ => .nothing _
  | .mk _ _ _ hint default :: rest, valid => by
    simp only [areParamsGrammatical, Bool.and_eq_true] at valid
    exact (reviseOption_fills hint valid.1.1).bind ((reviseOption_fills default valid.1.2).bind
      ((reviseParams_fills rest valid.2).give _))

theorem reviseClauses_fills :
    ∀ clauses : List Clause, areClausesGrammatical clauses = true →
      Fills values (reviseClauses (visitor values) clauses)
        (substituteClauses (trees values) clauses) (shownOfClauses clauses)
  | [], _ => .nothing _
  | .loop _ target iterable :: rest, valid => by
    simp only [areClausesGrammatical, Bool.and_eq_true, Option.isNone_iff_eq_none] at valid
    exact (revise_fills iterable valid.1.2).bind
      ((reviseTarget_fills target valid.1.1.1 valid.1.1.2).bind
        ((reviseClauses_fills rest valid.2).give _))
  | .filter _ test :: rest, valid => by
    simp only [areClausesGrammatical, Bool.and_eq_true] at valid
    exact (revise_fills test valid.1).bind ((reviseClauses_fills rest valid.2).give _)

end

theorem targets_fills {deletes : Bool} {targets : List Expr}
    (valid : targets.all (isGrammaticalTarget deletes) = true) :
    Fills values (reviseTargets (visitor values) targets)
      (substituteList (trees values) targets) (shownOfTargets targets) := by
  simp only [List.all_eq_true, isGrammaticalTarget, Bool.and_eq_true,
    Option.isNone_iff_eq_none] at valid
  exact reviseTargets_fills targets (fun item member => (valid item member).1)
    (areGrammatical_iff.mpr fun item member => (valid item member).2)

theorem target_fills {deletes : Bool} {target : Expr}
    (valid : target.isGrammaticalTarget deletes = true) :
    Fills values (target.reviseTarget (visitor values)) (target.substitute (trees values))
      target.shownAsTarget := by
  simp only [isGrammaticalTarget, Bool.and_eq_true, Option.isNone_iff_eq_none] at valid
  exact reviseTarget_fills target valid.1 valid.2

theorem items_fills :
    ∀ items : List WithItem, items.all Stmt.isItemGrammatical = true →
      Fills values (Pass.withItems (visitor values) items)
        (substituteItems (trees values) items) (shownOfItems items)
  | [], _ => .nothing _
  | ⟨manager, none⟩ :: rest, valid => by
    simp only [List.all_cons, Stmt.isItemGrammatical, Bool.and_eq_true] at valid
    exact (revise_fills manager valid.1.1).bind
      ((Fills.nothing none).bind ((items_fills rest valid.2).give _))
  | ⟨manager, some target⟩ :: rest, valid => by
    simp only [List.all_cons, Stmt.isItemGrammatical, Bool.and_eq_true, Option.all_some] at valid
    exact (revise_fills manager valid.1.1).bind
      (((target_fills valid.1.2).map some).bind ((items_fills rest valid.2).give _))

/-! ## Statements -/

/-- The mark of statements is no mark of an expression. -/
theorem afterFront?_exprMark {id : String} {found : List Char}
    (mark : afterFront? stmtMark id = some found) : afterFront? exprMark id = none := by
  unfold afterFront? at mark ⊢
  split at mark
  · rename_i begins
    rw [beginsWithText, List.isPrefixOf_iff_prefix] at begins
    refine if_neg fun other => ?_
    rw [beginsWithText, List.isPrefixOf_iff_prefix] at other
    -- The marks are equally long, so one text cannot begin with both.
    have nested := List.prefix_of_prefix_length_le begins other (by decide)
    revert nested
    decide
  · cases mark

/-- An expression that stands alone gives way to the statements whose mark it is. -/
theorem expression_fills {value : Expr} (valid : value.isGrammatical = true) :
    Fills values (fillSimple values (.expression value))
      ((Stmt.expression value).substitute (trees values)) (Stmt.expression value).shown := by
  rw [fillSimple, Stmt.substitute]
  cases mark : marked? stmtMark value with
  | none =>
    have kept : Stmt.alone? (trees values) value = none := by
      cases value with
      | name position id =>
        simp only [marked?, Option.map_eq_none_iff] at mark
        simp [Stmt.alone?, trees, mark]
      | _ => rfl
    rw [kept]
    exact ((revise_fills value valid).give _).give _
  | some name =>
    cases value with
    | name position id =>
      simp only [marked?, Option.map_eq_some_iff] at mark
      rcases mark with ⟨found, mark, rfl⟩
      have put : Stmt.alone? (trees values) (.name position id) =
          some (fillStmts values (String.ofList found)) := by
        simp [Stmt.alone?, trees, mark, fillStmts_eq]
      rw [put]
      refine (Fills.nothing _).congr ?_
      simp [exprMarks, Stmt.shown, Expr.shown, Shown.value, marked?, afterFront?_exprMark mark]
    | _ => cases mark

theorem simple_fills {stmt : Stmt} (simple : stmt.isSimple = true)
    (valid : stmt.isGrammatical = true) :
    Fills values (fillSimple values stmt) (stmt.substitute (trees values)) stmt.shown := by
  cases stmt with
  | expression value => exact expression_fills valid
  | assign targets value =>
    simp only [Stmt.isGrammatical, Bool.and_eq_true] at valid
    exact ((revise_fills value valid.2).bind ((targets_fills valid.1).give _)).give _
  | augAssign target op value =>
    simp only [Stmt.isGrammatical, Bool.and_eq_true] at valid
    have bindable := isGrammaticalTarget_of_isSingleTarget valid.1.1 valid.1.2
    exact ((target_fills bindable).bind ((revise_fills value valid.2).give _)).give _
  | annAssign target hint value =>
    simp only [Stmt.isGrammatical, Bool.and_eq_true] at valid
    have bindable := isGrammaticalTarget_of_isSingleTarget valid.1.1.1 valid.1.1.2
    exact ((target_fills bindable).bind ((revise_fills hint valid.1.2).bind
      ((reviseOption_fills value valid.2).give _))).give _
  | delete position targets => exact ((targets_fills valid).give _).give _
  | returns position result => exact ((reviseOption_fills result valid).give _).give _
  | raises position exception cause =>
    simp only [Stmt.isGrammatical, Bool.and_eq_true] at valid
    exact ((reviseOption_fills exception valid.1.2).bind
      ((reviseOption_fills cause valid.2).give _)).give _
  | asserts position test message =>
    simp only [Stmt.isGrammatical, Bool.and_eq_true] at valid
    exact ((revise_fills test valid.1).bind ((reviseOption_fills message valid.2).give _)).give _
  | branch | declare | imports | importFrom => exact (Fills.nothing _).give _
  | conditional | whileLoop | forLoop | tryBlock | withBlock | function | classDef => cases simple

mutual

/-- Filling a statement puts all trees in at once. -/
theorem stmt_fills (next : Option Stmt) :
    ∀ stmt : Stmt, stmt.isGrammatical = true →
      Fills values ((pass values).stmt () next stmt) (stmt.substitute (trees values)) stmt.shown
  | .conditional _ test body _ orelse, valid => by
    simp only [Stmt.isGrammatical, Bool.and_eq_true] at valid
    exact (revise_fills test valid.1.1).bind
      ((body_fills body valid.1.2).bind ((body_fills orelse valid.2).give _))
  | .whileLoop _ test body orelse, valid => by
    simp only [Stmt.isGrammatical, Bool.and_eq_true] at valid
    exact (revise_fills test valid.1.1).bind
      ((body_fills body valid.1.2).bind ((body_fills orelse valid.2).give _))
  | .forLoop _ target iterable body orelse, valid => by
    simp only [Stmt.isGrammatical, Bool.and_eq_true] at valid
    exact (revise_fills iterable valid.1.1.2).bind ((target_fills valid.1.1.1).bind
      ((body_fills body valid.1.2).bind ((body_fills orelse valid.2).give _)))
  | .tryBlock _ body handlers orelse final, valid => by
    simp only [Stmt.isGrammatical, Bool.and_eq_true] at valid
    exact (body_fills body valid.1.1.1.2).bind ((handlers_fills handlers valid.1.1.2).bind
      ((body_fills orelse valid.1.2).bind ((body_fills final valid.2).give _)))
  | .withBlock _ items body, valid => by
    simp only [Stmt.isGrammatical, Bool.and_eq_true] at valid
    exact (items_fills items valid.1).bind ((body_fills body valid.2).give _)
  | .function decorators _ _ params result body, valid => by
    simp only [Stmt.isGrammatical, Bool.and_eq_true] at valid
    simp only [Pass.stmt, pass, Pass.everywhere, bind_assoc, pure_bind]
    exact (reviseList_fills decorators valid.1.1.1).bind
      ((reviseParams_fills params valid.1.1.2).bind
        ((reviseOption_fills result valid.1.2).bind ((body_fills body valid.2).give _)))
  | .classDef decorators _ _ bases body, valid => by
    simp only [Stmt.isGrammatical, Bool.and_eq_true] at valid
    simp only [Pass.stmt, pass, Pass.everywhere, bind_assoc, pure_bind]
    exact (reviseList_fills decorators valid.1.1).bind
      ((reviseList_fills bases valid.1.2).bind ((body_fills body valid.2).give _))
  | .expression .., valid | .assign .., valid | .augAssign .., valid | .annAssign .., valid
  | .delete .., valid | .branch .., valid | .returns .., valid | .raises .., valid
  | .declare .., valid | .asserts .., valid | .imports .., valid | .importFrom .., valid =>
    simple_fills rfl valid

theorem body_fills :
    ∀ body : List Stmt, Stmt.areGrammatical body = true →
      Fills values ((pass values).body () body) (Stmt.substituteBody (trees values) body)
        (Stmt.shownOfBody body)
  | [], _ => .nothing _
  | first :: rest, valid => by
    simp only [Stmt.areGrammatical, Bool.and_eq_true] at valid
    exact (stmt_fills rest.head? first valid.1).bind ((body_fills rest valid.2).give _)

theorem handlers_fills :
    ∀ handlers : List Handler, Stmt.areHandlersGrammatical handlers = true →
      Fills values ((pass values).handlers () handlers)
        (Stmt.substituteHandlers (trees values) handlers) (Stmt.shownOfHandlers handlers)
  | [], _ => .nothing _
  | .mk _ type _ body :: rest, valid => by
    simp only [Stmt.areHandlersGrammatical, Bool.and_eq_true] at valid
    exact (reviseOption_fills type valid.1.1).bind ((body_fills body valid.1.2).bind
      ((handlers_fills rest valid.2).give _))

end

/-! ## Templates -/

/-- The statements of a template are its parse with the bound trees put in at once, and no
expression is put in twice. -/
theorem statements_filled {source : String} {body : List Stmt}
    (made : statements values source = .ok body) :
    ∃ text parsed, expand values 0 (dedent source.toList) = .ok text ∧
      parseModule sourceName text = .ok parsed ∧
      Filled values (Stmt.shownOfBody parsed) (Stmt.substituteBody (trees values) parsed) body []
        (exprMarks (Stmt.shownOfBody parsed)).reverse := by
  rcases ok_of_bind made with ⟨text, expanded, made⟩
  cases read : parseModule sourceName text with
  | error fault =>
    rw [read] at made
    cases made
  | ok parsed =>
    rw [read] at made
    rcases ok_of_bind made with ⟨⟨filled, after⟩, run, given⟩
    cases given
    have result := body_fills parsed (parseModule_grammatical read) [] body after run
    refine ⟨text, parsed, expanded, read, ?_⟩
    rw [← List.append_nil (exprMarks _).reverse, ← result.names]
    exact result

/-- The name of the statements whose mark a node is, standing alone. -/
def aloneMark? : Node → Option String
  | .stmt (.expression value) => marked? stmtMark value
  | _ => none

/-- The names of the statements whose marks stand alone in a body, at any depth. -/
def stmtMarks (body : List Stmt) : List String :=
  (Stmt.visited body).filterMap (aloneMark? ·.node)

/-- A template whose placeholders stand where they can be replaced: those of expressions as
expressions or binding targets, and those of statements alone. -/
structure Placed (pieces : List Piece) (parsed : List Stmt) : Prop where
  exprs : (namesOf .expr pieces).Subperm (exprMarks (Stmt.shownOfBody parsed))
  stmts : (namesOf .stmt pieces).Subperm (stmtMarks parsed)

/-- A template that gives statements is read in pieces, in the only way there is: each
placeholder is replaced once by text, and the text is parsed. If the placeholders stand where
they can be replaced, the statements are that parse with the bound trees in the places of
their marks, all put in at once and as they are, but that formatted strings do not keep their
text; each placeholder of an expression gives way to its tree in one place, and each
placeholder of statements to its statements. -/
theorem statements_substituted {source : String} {body : List Stmt}
    (made : statements values source = .ok body) :
    ∃ pieces text parsed, Split (dedent source.toList) pieces ∧
      (∀ others, Split (dedent source.toList) others → others = pieces) ∧
      spell values pieces = .ok text ∧ parseModule sourceName text = .ok parsed ∧
      (Placed pieces parsed →
        body = Stmt.substituteBody (trees values) parsed ∧
        (∀ name ∈ namesOf .expr pieces, ∃ value, values.lookup name = some (.expr value) ∧
          (trees values).expr (exprMark ++ name) = some value ∧
          (namesOf .expr pieces).count name = 1 ∧
          (exprMarks (Stmt.shownOfBody parsed)).count name = 1) ∧
        ∀ name ∈ namesOf .stmt pieces, ∃ value stmts, values.lookup name = some value ∧
          value.statements? = some stmts ∧
          (trees values).stmts (stmtMark ++ name) = some stmts) := by
  rcases statements_filled made with ⟨text, parsed, expanded, read, filled⟩
  rcases expand_eq_ok expanded with ⟨pieces, split, spelled⟩
  refine ⟨pieces, text, parsed, split, fun others reads => reads.unique split, spelled, read,
    fun placed => ⟨filled.value, ?_, ?_⟩⟩
  · have distinct : (exprMarks (Stmt.shownOfBody parsed)).Nodup :=
      List.nodup_reverse.mp (filled.once List.nodup_nil)
    have once : (namesOf .expr pieces).Nodup := by
      rcases placed.exprs with ⟨names, same, inside⟩
      exact same.nodup_iff.mp (distinct.sublist inside)
    intro name member
    rcases lookup_expr spelled member with ⟨value, bound⟩
    refine ⟨value, bound, ?_, ?_, ?_⟩
    · simp [trees, afterFront?_append, bound]
    · exact List.count_eq_one_of_mem once member
    · exact List.count_eq_one_of_mem distinct (placed.exprs.subset member)
  · intro name member
    rcases lookup_stmt spelled member with ⟨value, stmts, bound, shape⟩
    refine ⟨value, stmts, bound, shape, ?_⟩
    simp [trees, afterFront?_append, bound, shape]

/-- A condition with a test that is spelled like the mark of its own placeholder, and a body
without statements. -/
theorem statements_substituted_conditional :
    let values : Values :=
      [("test", .expr (.name .unknown "_dp_placeholder_expr_test")), ("body", .stmts [])]
    let source := "if \x7btest:expr\x7d:\n    \x7bbody:stmt\x7d"
    let pieces := "if ".toList.map .char ++ .placeholder ⟨"test", .expr⟩ ::
      (":\n    ".toList.map .char ++ [.placeholder ⟨"body", .stmt⟩])
    ∃ parsed body, statements values source = .ok body ∧
      Split (dedent source.toList) pieces ∧ Placed pieces parsed ∧
      body = Stmt.substituteBody (trees values) parsed ∧
      (exprMarks (Stmt.shownOfBody parsed)).count "test" = 1 ∧
      (trees values).expr (exprMark ++ "test") =
        some (.name .unknown "_dp_placeholder_expr_test") ∧
      (trees values).stmts (stmtMark ++ "body") = some [.branch .unknown .pass] := by
  intro values source pieces
  have whole : dedent source.toList = "if ".toList ++
      ((Placeholder.mk "test" .expr).text.toList ++
        (":\n    ".toList ++ ((Placeholder.mk "body" .stmt).text.toList ++ []))) := by
    decide +kernel
  have split : Split (dedent source.toList) pieces := by
    rw [whole]
    exact .plain (by decide) (.placeholder rfl (.plain (by decide) (.placeholder rfl .done)))
  have accepted : (statements values source).toOption.isSome = true := by decide +kernel
  have marks : ((spell values pieces).toOption.any fun text =>
      (parseModule sourceName text).toOption.any fun parsed => decide
        (exprMarks (Stmt.shownOfBody parsed) = ["test"] ∧ stmtMarks parsed = ["body"])) =
          true := by
    decide +kernel
  cases made : statements values source with
  | error fault =>
    rw [made] at accepted
    exact absurd accepted Bool.false_ne_true
  | ok body =>
    rcases statements_substituted made with
      ⟨found, text, parsed, _, only, spelled, read, filled⟩
    cases only pieces split
    rw [spelled] at marks
    have inner : ((parseModule sourceName text).toOption.any fun parsed => decide
        (exprMarks (Stmt.shownOfBody parsed) = ["test"] ∧ stmtMarks parsed = ["body"])) =
          true := marks
    rw [read] at inner
    rcases of_decide_eq_true inner with ⟨exprs, stmts⟩
    have placed : Placed pieces parsed := by
      constructor
      · rw [exprs]
        exact List.Subperm.refl ["test"]
      · rw [stmts]
        exact List.Subperm.refl ["body"]
    rcases filled placed with ⟨same, putExprs, putStmts⟩
    rcases putExprs "test" List.mem_cons_self with ⟨value, bound, tree, _, once⟩
    rcases putStmts "body" List.mem_cons_self with ⟨value', put, bound', shape, tree'⟩
    cases bound
    cases bound'
    cases shape
    exact ⟨parsed, body, rfl, split, placed, same, once, tree, tree'⟩

/-- The texts that the formatted strings of a body are written as. -/
def formattedTexts (body : List Stmt) : List String :=
  (Stmt.shownOfBody body).filterMap fun sight =>
    match sight.value with
    | .fstring _ raw _ => some raw
    | _ => none

theorem formattedString_text_not_kept :
    let source := "x = f\"\x7by\x7d\""
    ∃ pieces text parsed body, Split (dedent source.toList) pieces ∧
      (∀ placeholder, .placeholder placeholder ∉ pieces) ∧ spell [] pieces = .ok text ∧
      parseModule sourceName text = .ok parsed ∧ statements [] source = .ok body ∧
      formattedTexts parsed = ["f\"\x7by\x7d\""] ∧ formattedTexts body = [""] ∧
      body ≠ parsed := by
  intro source
  have whole : (expand [] 0 (dedent source.toList)).toOption = some source.toList := by
    decide +kernel
  have before : (parseModule sourceName source.toList).toOption.map formattedTexts =
      some ["f\"\x7by\x7d\""] := by
    decide +kernel
  have after : (statements [] source).toOption.map formattedTexts = some [""] := by
    decide +kernel
  cases made : statements [] source with
  | error fault =>
    rw [made] at after
    exact absurd after.symm (Option.some_ne_none _)
  | ok body =>
    rcases statements_filled made with ⟨text, parsed, expanded, read, _⟩
    rw [made] at after
    rw [expanded] at whole
    cases Option.some.inj whole
    rw [read] at before
    rcases expand_eq_ok expanded with ⟨pieces, split, spelled⟩
    refine ⟨pieces, _, parsed, body, split, ?_, spelled, read, rfl, Option.some.inj before,
      Option.some.inj after, ?_⟩
    · intro placeholder member
      rcases expand_of_spell spelled member with ⟨written, bound⟩
      cases bound
    · rintro rfl
      have same := (Option.some.inj before).symm.trans (Option.some.inj after)
      exact absurd same (by decide)

end Template
end Unsugar
