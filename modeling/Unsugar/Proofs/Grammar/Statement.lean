import Unsugar.Grammar.Source
import Unsugar.Proofs.Grammar.Expression

/-! Parsed modules are grammatical. -/

namespace Unsugar.Grammar

open Unsugar.Parser

attribute [local simp] Stmt.isGrammatical Expr.isGrammaticalOption

theorem withExpressions_yields {α : Type} {holds : α → Prop} {parser : Productions → Parser α}
    (given : ∀ self, (∀ goal, GivesGrammatical (self goal)) → Yields holds (parser self)) :
    Yields holds (withExpressions parser) :=
  .after fun cursor => given _ (productions_grammatical cursor.bound)

theorem anyTest_grammatical : GivesGrammatical anyTest :=
  withExpressions_yields fun _ given => given _

theorem optionalTest_grammatical : Yields (Expr.isGrammaticalOption · = true) (some <$> anyTest) :=
  anyTest_grammatical.map fun _ valid => valid

theorem value_grammatical : GivesGrammatical value :=
  .after fun _ => .ite (withExpressions_yields fun _ => yieldExpression_grammatical)
    (withExpressions_yields fun _ => expressionList_grammatical)

theorem commaSeparated_yields {α : Type} {holds : α → Prop} {item : Parser α}
    (given : Yields holds item) : Yields (∀ item ∈ ·, holds item) (commaSeparated item) := by
  refine given.bind fun first valid => ?_
  refine (Yields.repeating (∀ item ∈ ·, holds item) (by simpa using valid)
    fun items each => ?_).bind fun items each => .pure (by simpa using each)
  exact .after fun _ => .ite .done (.more each given)

/-! ## Small statements -/

/-- A parser of grammatical statements. -/
abbrev GivesStatement (parser : Parser Stmt) : Prop :=
  Yields (·.isGrammatical = true) parser

/-- A parser of lists of grammatical statements. -/
abbrev GivesBody (parser : Parser (List Stmt)) : Prop :=
  Yields (Stmt.areGrammatical · = true) parser

theorem returnStatement_grammatical : GivesStatement returnStatement := by
  refine .after fun _ => .after fun _ => .ite (.pure rfl) ?_
  exact (withExpressions_yields fun _ => expressionList_grammatical).bind fun _ valid => .pure valid

theorem deletedTarget_grammatical :
    Yields (Expr.isGrammaticalTarget true · = true) deletedTarget := by
  refine (withExpressions_yields fun _ => target_grammatical).bind fun item valid => ?_
  refine (Yields.demandNone _).bind fun _ none => .pure ?_
  simp [Expr.isGrammaticalTarget, none, valid]

theorem deleteStatement_grammatical : GivesStatement deleteStatement := by
  refine .after fun _ => deletedTarget_grammatical.bind fun first valid => ?_
  refine (Yields.repeating (∀ item ∈ ·, Expr.isGrammaticalTarget true item = true)
    (by simpa using valid) fun items each => ?_).bind fun items each => .pure ?_
  · exact .after fun _ => .after fun _ => .ite .done (.more each deletedTarget_grammatical)
  · simpa using each

theorem raiseStatement_grammatical : GivesStatement raiseStatement := by
  refine .after fun _ => .after fun _ => .ite (.pure rfl) ?_
  refine anyTest_grammatical.bind fun exception valid => .after fun _ => .ite ?_ (.known (.pure ?_))
  · refine optionalTest_grammatical.bind fun cause causeValid => .pure ?_
    simp [valid, causeValid]
  · simp [valid]

theorem assertStatement_grammatical : GivesStatement assertStatement := by
  refine .after fun _ => anyTest_grammatical.bind fun test valid => .after fun _ =>
    .ite ?_ (.known (.pure ?_))
  · refine optionalTest_grammatical.bind fun message messageValid => .pure ?_
    simp [valid, messageValid]
  · simp [valid]

theorem importFromStatement_grammatical : GivesStatement importFromStatement := by
  refine .after fun _ => .after fun _ => .after fun _ => .ite (.ite (.after fun _ => ?_) ?_) ?_
  all_goals
    refine .after fun _ => .after fun _ => .after fun _ => .ite (.after fun _ => .pure rfl) ?_
    refine .after fun _ => .ite (.after fun _ => .after fun _ => .pure rfl) ?_
    exact .after fun _ => .pure rfl

theorem assignment_grammatical {first : Expr} (valid : first.isGrammatical = true) :
    GivesStatement (assignment first) := by
  refine (Yields.repeating (fun read => (∀ target ∈ read.1, target.isGrammatical = true) ∧
    read.2.isGrammatical = true) ⟨by simp, valid⟩ fun read before => ?_).bind fun read after => ?_
  · obtain ⟨targets, last⟩ := read
    refine .after fun _ => .ite .done (value_grammatical.bind fun value valueValid => .pure ?_)
    rintro _ ⟨⟩
    exact ⟨List.forall_mem_cons.mpr ⟨before.2, before.1⟩, valueValid⟩
  · obtain ⟨targets, final⟩ := read
    refine (Yields.demandNone _).bind fun _ none => .pure ?_
    have faultless : ∀ target ∈ targets, targetFault false target = Option.none := by
      simpa [List.findSome?_eq_none_iff] using none
    simp only [Stmt.isGrammatical, Bool.and_eq_true, List.all_eq_true, List.mem_reverse,
      Expr.isGrammaticalTarget]
    exact ⟨fun target member => ⟨by simp [faultless target member], after.1 target member⟩, after.2⟩

theorem augmentedAssignment_grammatical {first : Expr} (valid : first.isGrammatical = true)
    (op : BinaryOp) : GivesStatement (augmentedAssignment first op) := by
  refine .after fun _ => ?_
  cases single : first.isSingleTarget with
  | false => exact .stop _ _
  | true =>
    refine value_grammatical.bind fun value valueValid => .pure ?_
    simp [single, valid, valueValid]

theorem annotatedAssignment_grammatical {first : Expr} (valid : first.isGrammatical = true) :
    GivesStatement (annotatedAssignment first) := by
  refine .after fun _ => ?_
  cases single : first.isSingleTarget with
  | false => exact .stop _ _
  | true =>
    refine anyTest_grammatical.bind fun hint hintValid => .after fun _ => ?_
    refine .ite ?_ (.known (.pure ?_))
    · have initial : Yields (Expr.isGrammaticalOption · = true) (some <$> value) :=
        value_grammatical.map fun _ valid => valid
      refine initial.bind fun value valueValid => .pure ?_
      simp [single, valid, hintValid, valueValid]
    · simp [single, valid, hintValid]

theorem expressionStatement_grammatical : GivesStatement expressionStatement := by
  refine value_grammatical.bind fun first valid => .after fun _ => ?_
  split
  · exact assignment_grammatical valid
  · exact augmentedAssignment_grammatical valid _
  · exact annotatedAssignment_grammatical valid
  · exact .pure valid

theorem smallStatement_grammatical : GivesStatement smallStatement := by
  refine .after fun _ => ?_
  split
  · exact returnStatement_grammatical
  · exact .after fun _ => .pure rfl
  · exact .after fun _ => .pure rfl
  · exact .after fun _ => .pure rfl
  · exact deleteStatement_grammatical
  · exact raiseStatement_grammatical
  · exact .after fun _ => .after fun _ => .pure rfl
  · exact .after fun _ => .after fun _ => .pure rfl
  · exact assertStatement_grammatical
  · exact .after fun _ => .after fun _ => .pure rfl
  · exact importFromStatement_grammatical
  · exact expressionStatement_grammatical

theorem smallStatements_grammatical : GivesBody smallStatements := by
  refine smallStatement_grammatical.bind fun first valid => ?_
  refine (Yields.repeating (∀ item ∈ ·, Stmt.isGrammatical item = true) (by simpa using valid)
    fun items each => ?_).bind fun items each =>
      .pure (Stmt.areGrammatical_iff.mpr (by simpa using each))
  exact .after fun _ => .ite .done <| .after fun _ => .after fun _ => .ite .done <|
    .more each smallStatement_grammatical

theorem line_grammatical : GivesBody line := by
  refine smallStatements_grammatical.bind fun items valid => .after fun _ => .ite ?_ (.pure valid)
  exact .after fun _ => .pure valid

/-! ## Compound statements -/

theorem withItem_grammatical : Yields (Stmt.isItemGrammatical · = true) withItem := by
  refine anyTest_grammatical.bind fun manager valid => .after fun _ => .ite ?_ (.pure ?_)
  · refine (withExpressions_yields fun _ => target_grammatical).bind fun target targetValid => ?_
    refine (Yields.demandNone _).bind fun _ none => .pure ?_
    simp [Stmt.isItemGrammatical, Expr.isGrammaticalTarget, valid, targetValid, none]
  · simp [Stmt.isItemGrammatical, valid]

theorem flatten_grammatical {groups : List (List Stmt)}
    (each : ∀ group ∈ groups, Stmt.areGrammatical group = true) :
    Stmt.areGrammatical groups.reverse.flatten = true := by
  rw [Stmt.areGrammatical_iff]
  intro stmt member
  obtain ⟨group, isGroup, inGroup⟩ := List.mem_flatten.mp member
  exact Stmt.areGrammatical_iff.mp (each group (List.mem_reverse.mp isGroup)) stmt inGroup

theorem single_grammatical {parser : Parser Stmt} (valid : GivesStatement parser) :
    GivesBody (do return [← parser]) :=
  valid.bind fun stmt stmtValid => .pure (by simp [Stmt.areGrammatical, stmtValid])

section

variable {self : Parser (List Stmt)} (given : GivesBody self)
include given

theorem suite_grammatical : GivesBody (suite self) := by
  refine .after fun _ => .ite line_grammatical <| .after fun _ => .after fun _ => ?_
  refine (Yields.repeating (∀ group ∈ ·, Stmt.areGrammatical group = true) (by simp)
    fun groups each => ?_).bind fun groups each => .after fun _ => .pure (flatten_grammatical each)
  exact .after fun _ => .after fun _ => .ite .done (.more each given)

theorem block_grammatical : GivesBody (block self) :=
  .after fun _ => suite_grammatical given

theorem elseBlock_grammatical : GivesBody (elseBlock self) :=
  .after fun _ => .ite (block_grammatical given) (.pure rfl)

theorem branch_grammatical :
    Yields (fun branch => branch.test.isGrammatical = true ∧
      Stmt.areGrammatical branch.body = true) (branch self) := by
  refine .after fun _ => (withExpressions_yields fun _ => namedTest_grammatical).bind
    fun test valid => ?_
  exact (block_grammatical given).bind fun body bodyValid => .pure ⟨valid, bodyValid⟩

omit given in
theorem nestBranches_grammatical {elsePosition : Position} {orelse : List Stmt}
    (valid : Stmt.areGrammatical orelse = true) {first : Branch} {others : List Branch}
    (each : ∀ branch ∈ first :: others, branch.test.isGrammatical = true ∧
      Stmt.areGrammatical branch.body = true) :
    (nestBranches elsePosition orelse first others).isGrammatical = true := by
  induction others generalizing first with
  | nil => simp_all [nestBranches]
  | cons next rest induction =>
    obtain ⟨firstValid, later⟩ := List.forall_mem_cons.mp each
    simp [nestBranches, Stmt.areGrammatical, firstValid, induction later]

theorem ifStatement_grammatical : GivesStatement (ifStatement self) := by
  refine (branch_grammatical given).bind fun first firstValid => ?_
  refine (Yields.repeating (∀ branch ∈ ·, branch.test.isGrammatical = true ∧
    Stmt.areGrammatical branch.body = true) (by simp) fun others each => ?_).bind
      fun others each => .after fun _ => .ite (.after fun _ => ?_) ?_
  · exact .after fun _ => .ite .done (.more each (branch_grammatical given))
  · refine (block_grammatical given).bind fun orelse valid => .known (.pure ?_)
    exact nestBranches_grammatical valid
      (List.forall_mem_cons.mpr ⟨firstValid, by simpa using each⟩)
  · refine .known (.pure ?_)
    exact nestBranches_grammatical rfl (List.forall_mem_cons.mpr ⟨firstValid, by simpa using each⟩)

theorem forStatement_grammatical : GivesStatement (forStatement self) := by
  refine .after fun _ => (withExpressions_yields fun _ => loopTarget_grammatical).bind
    fun target targetValid => .after fun _ => ?_
  refine (withExpressions_yields fun _ => expressionList_grammatical).bind fun iterable valid => ?_
  refine (block_grammatical given).bind fun body bodyValid => ?_
  refine (elseBlock_grammatical given).bind fun orelse orelseValid => .pure ?_
  simp [targetValid, valid, bodyValid, orelseValid]

theorem whileStatement_grammatical : GivesStatement (whileStatement self) := by
  refine .after fun _ => (withExpressions_yields fun _ => namedTest_grammatical).bind
    fun test valid => ?_
  refine (block_grammatical given).bind fun body bodyValid => ?_
  refine (elseBlock_grammatical given).bind fun orelse orelseValid => .pure ?_
  simp [valid, bodyValid, orelseValid]

theorem withStatement_grammatical : GivesStatement (withStatement self) := by
  refine .after fun _ => (commaSeparated_yields withItem_grammatical).bind fun items each => ?_
  refine (block_grammatical given).bind fun body bodyValid => .pure ?_
  simpa [bodyValid] using each

theorem handler_grammatical (afterBare : Bool) :
    Yields (fun handler => Stmt.areHandlersGrammatical [handler] = true ∧ afterBare = false)
      (handler self afterBare) := by
  have ending : ∀ {type : Option Expr}, Expr.isGrammaticalOption type = true → ∀ position name,
      Yields (fun handler => Stmt.areHandlersGrammatical [handler] = true ∧ afterBare = false) (do
        let body ← block self
        if afterBare then complainAt position .bareHandlerNotLast
        return .mk position type name body) := by
    intro type typeValid position name
    refine (block_grammatical given).bind fun body valid => ?_
    cases afterBare with
    | true => exact .stop _ _
    | false => exact .pure ⟨by simp [Stmt.areHandlersGrammatical, typeValid, valid], rfl⟩
  refine .after fun _ => .after fun _ => .ite (.halt _) <| .after fun _ =>
    .ite (.known (ending rfl _ _)) ?_
  refine anyTest_grammatical.bind fun type valid => .after fun _ => .ite (.halt _) ?_
  refine .after fun _ => .known (ending ?_ _ _)
  exact valid

/-- What holds of the handlers that have been read, the last one first. -/
def HandlersRead (handlers : List Handler) : Prop :=
  Stmt.areHandlersGrammatical handlers = true ∧
    ∀ handler ∈ handlers.tail, handler.type.isNone = false

omit given in
theorem HandlersRead.cons {handlers : List Handler} (before : HandlersRead handlers)
    {handler : Handler} (valid : Stmt.areHandlersGrammatical [handler] = true)
    (typed : lastIsBare handlers = false) : HandlersRead (handler :: handlers) := by
  refine ⟨?_, ?_⟩
  · obtain ⟨position, type, name, body⟩ := handler
    simp_all [Stmt.areHandlersGrammatical, HandlersRead]
  · cases handlers with
    | nil => simp
    | cons last earlier => exact List.forall_mem_cons.mpr ⟨typed, before.2⟩

omit given in
theorem HandlersRead.reverse {handlers : List Handler} (read : HandlersRead handlers) :
    Lowering.earlyBareHandler? handlers.reverse = none ∧
      Stmt.areHandlersGrammatical handlers.reverse = true := by
  refine ⟨?_, ?_⟩
  · simpa [Lowering.earlyBareHandler?, Option.isSome_iff_ne_none] using read.2
  · rw [Stmt.areHandlersGrammatical_iff]
    simpa using Stmt.areHandlersGrammatical_iff.mp read.1

theorem tryStatement_grammatical : GivesStatement (tryStatement self) := by
  refine .after fun _ => (block_grammatical given).bind fun body valid => ?_
  refine (Yields.repeating HandlersRead ⟨rfl, by simp⟩ fun handlers before => ?_).bind
    fun handlers after => ?_
  · refine .after fun _ => .ite .done ?_
    refine (handler_grammatical given _).bind fun handler read => .pure ?_
    rintro _ ⟨⟩
    exact before.cons read.1 read.2
  · obtain ⟨notEarly, handlersValid⟩ := after.reverse
    have built : ∀ {orelse final : List Stmt}, Stmt.areGrammatical orelse = true →
        Stmt.areGrammatical final = true → ∀ position,
        (Stmt.tryBlock position body handlers.reverse orelse final).isGrammatical = true := by
      intro orelse final orelseValid finalValid position
      simp [notEarly, valid, handlersValid, orelseValid, finalValid]
    refine .after fun _ => .ite (.halt _) ?_
    refine (elseBlock_grammatical given).bind fun orelse orelseValid => ?_
    refine .after fun closes => .ite ?_ ?_
    · refine (block_grammatical given).bind fun final finalValid => .ite (.after fun _ => ?_) ?_
      all_goals exact .pure (built orelseValid finalValid _)
    · refine .known (.ite (.after fun _ => ?_) ?_)
      all_goals exact .pure (built orelseValid rfl _)

theorem functionStatement_grammatical {decorators : List Expr}
    (decoratorsValid : Expr.areGrammatical decorators = true) :
    GivesStatement (functionStatement self decorators) := by
  refine .after fun _ => .after fun _ => .after fun _ => ?_
  refine (withExpressions_yields fun _ given => params_grammatical given .closeParen true).bind
    fun params valid => ?_
  have whole : ∀ {result : Option Expr}, Expr.isGrammaticalOption result = true →
      ∀ position name, GivesStatement (do
        return .function decorators position name params result (← block self)) := by
    intro result resultValid position name
    refine (block_grammatical given).bind fun body bodyValid => .pure ?_
    simp [decoratorsValid, valid, resultValid, bodyValid]
  refine .after fun _ => .after fun _ => .ite ?_ (.known (whole rfl _ _))
  exact optionalTest_grammatical.bind fun result resultValid => whole resultValid _ _

theorem classStatement_grammatical {decorators : List Expr}
    (decoratorsValid : Expr.areGrammatical decorators = true) :
    GivesStatement (classStatement self decorators) := by
  have built : ∀ {bases : List Expr}, Expr.areGrammatical bases = true → ∀ position name,
      GivesStatement (do return .classDef decorators position name bases (← block self)) := by
    intro bases valid position name
    refine (block_grammatical given).bind fun body bodyValid => .pure ?_
    simp [decoratorsValid, valid, bodyValid]
  refine .after fun _ => .after fun _ => .after fun _ => .ite ?_ (.known (built rfl _ _))
  refine (withExpressions_yields fun _ => arguments_grammatical).bind fun bases valid => ?_
  exact .after fun _ => .known (built valid _ _)

theorem decoratedStatement_grammatical : GivesStatement (decoratedStatement self) := by
  refine (Yields.repeating (∀ decorator ∈ ·, Expr.isGrammatical decorator = true) (by simp)
    fun decorators each => ?_).bind fun decorators each => .after fun _ => ?_
  · refine .after fun _ => .ite .done ?_
    refine (withExpressions_yields fun _ => namedTest_grammatical).bind fun decorator valid => ?_
    refine .after fun _ => .pure ?_
    rintro _ ⟨⟩
    exact List.forall_mem_cons.mpr ⟨valid, each⟩
  · have valid : Expr.areGrammatical decorators.reverse = true :=
      Expr.areGrammatical_iff.mpr (by simpa using each)
    split
    · exact functionStatement_grammatical given valid
    · exact classStatement_grammatical given valid
    · exact .complain _
    · exact .unexpected _

theorem statement_grammatical : GivesBody (statement self) := by
  refine .after fun _ => ?_
  split
  · exact single_grammatical (decoratedStatement_grammatical given)
  · exact single_grammatical (functionStatement_grammatical given rfl)
  · exact single_grammatical (classStatement_grammatical given rfl)
  · exact single_grammatical (ifStatement_grammatical given)
  · exact single_grammatical (forStatement_grammatical given)
  · exact single_grammatical (whileStatement_grammatical given)
  · exact single_grammatical (tryStatement_grammatical given)
  · exact single_grammatical (withStatement_grammatical given)
  · exact .complain _
  · exact .after fun _ => .ite (.after fun _ => line_grammatical) line_grammatical
  · exact line_grammatical

end

/-! ## Modules -/

theorem statements_grammatical : ∀ depth, GivesBody (statements depth)
  | 0 => .complain _
  | depth + 1 => statement_grammatical (statements_grammatical depth)

theorem anyStatement_grammatical : GivesBody anyStatement :=
  .after fun _ => statements_grammatical _

theorem moduleBody_grammatical : GivesBody moduleBody := by
  refine (Yields.repeating (∀ group ∈ ·, Stmt.areGrammatical group = true) (by simp)
    fun groups each => .after fun _ => ?_).bind fun groups each => .pure (flatten_grammatical each)
  split
  · exact .done
  · exact .after fun _ => .pure (by rintro _ ⟨⟩; exact each)
  · exact .more each anyStatement_grammatical

end Unsugar.Grammar

namespace Unsugar

/-- A module that is read is grammatical. -/
theorem parseModule_grammatical {file : String} {text : List Char} {body : List Stmt}
    (read : parseModule file text = .ok body) : Stmt.areGrammatical body = true :=
  Grammar.moduleBody_grammatical.of_run read

/-- A module that is read is well-formed. -/
theorem parseModule_wellFormed {file : String} {text : List Char} {body : List Stmt}
    (read : parseModule file text = .ok body) : Stmt.areWellFormed body = true :=
  Stmt.areWellFormed_of_areGrammatical body (parseModule_grammatical read)

end Unsugar
