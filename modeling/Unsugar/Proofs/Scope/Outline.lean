import Unsugar.Proofs.Scope.Plain
import Unsugar.Scope.Tree

/-! Outlines of plain modules. An outline keeps of a definition only what its scope
depends on: which names the body mentions and how, and the definitions in it. The
scopes of a module are a function of its outlines. -/

namespace Unsugar

/-- How a body mentions a name. -/
inductive Mention where
  | load (name : String)
  /-- An assignment, a deletion or the definition of a class. -/
  | bind (name : String)
  | imported (name : String)
  | function (name : String)
  /-- A generated function in the body declares the name nonlocal. -/
  | lent (name : String)
  | declare (declaration : Declaration) (ident : Ident)

/-- A definition, or a module. -/
inductive Outline where
  | mk (kind : ScopeKind) (name : String) (params : List String) (mentions : List Mention)
      (nonlocals : List String) (inner : List Outline)

namespace Outline

def kind : Outline → ScopeKind
  | mk kind .. => kind

def name : Outline → String
  | mk _ name .. => name

def params : Outline → List String
  | mk _ _ params .. => params

def mentions : Outline → List Mention
  | mk _ _ _ mentions .. => mentions

/-- The names that a statement of the body itself declares nonlocal; a statement
inside another one does not count. -/
def nonlocals : Outline → List String
  | mk _ _ _ _ nonlocals _ => nonlocals

def inner : Outline → List Outline
  | mk _ _ _ _ _ inner => inner

end Outline

/-! ## Outlines of statements -/

namespace Stmt

def loads (value : Expr) : List Mention :=
  value.names.map .load

def loadsOfList (values : List Expr) : List Mention :=
  (Expr.namesOfList values).map .load

def loadsOfOption (value : Option Expr) : List Mention :=
  (Expr.namesOfOption value).map .load

def loadsOfParams (params : List Param) : List Mention :=
  (Expr.namesOfParams params).map .load

def targetMentions : Expr → List Mention
  | .name _ id => [.bind id]
  | .member object _ _ => loads object
  | _ => []

def topNonlocals (body : List Stmt) : List String :=
  body.flatMap fun
    | declare _ .nonlocal idents => idents.map (·.name)
    | _ => []

/-- What a function definition mentions in the body around it. -/
def functionMentions (decorators : List Expr) (name : String) (params : List Param)
    (body : List Stmt) : List Mention :=
  loadsOfList decorators ++ loadsOfParams params ++ .function name ::
    if beginsWithText "_dp_" name then (topNonlocals body).map .lent else []

mutual

def mentions : Stmt → List Mention
  | expression value => loads value
  | assign targets value => loads value ++ targets.flatMap targetMentions
  | delete _ targets => targets.flatMap targetMentions
  | returns _ result => loadsOfOption result
  | raises _ exception _ => loadsOfOption exception
  | declare _ declaration idents => idents.map (.declare declaration)
  | importFrom _ _ _ names _ =>
    if Collector.importsAll names then [] else names.map (.imported ·.bound)
  | conditional _ test body _ orelse => loads test ++ mentionsOfBody body ++ mentionsOfBody orelse
  | whileLoop _ test body orelse => loads test ++ mentionsOfBody body ++ mentionsOfBody orelse
  | tryBlock _ body handlers orelse final =>
    mentionsOfBody body ++ mentionsOfHandlers handlers ++ mentionsOfBody orelse ++
      mentionsOfBody final
  | function decorators _ ident params _ body => functionMentions decorators ident.name params body
  | classDef decorators _ ident bases _ =>
    loadsOfList decorators ++ loadsOfList bases ++ [.bind ident.name]
  | _ => []

def mentionsOfBody : List Stmt → List Mention
  | [] => []
  | first :: rest => mentions first ++ mentionsOfBody rest

def mentionsOfHandlers : List Handler → List Mention
  | [] => []
  | .mk _ _ _ body :: rest => mentionsOfBody body ++ mentionsOfHandlers rest

end

mutual

/-- The outlines of the definitions in a statement, in order. -/
def outlines : Stmt → List Outline
  | function _ _ ident params _ body =>
    [.mk .functionScope ident.name (Collector.paramNames params) (mentionsOfBody body)
      (topNonlocals body) (outlinesOfBody body)]
  | classDef _ _ ident _ body =>
    [.mk .classScope ident.name [] (mentionsOfBody body) (topNonlocals body) (outlinesOfBody body)]
  | conditional _ _ body _ orelse => outlinesOfBody body ++ outlinesOfBody orelse
  | whileLoop _ _ body orelse => outlinesOfBody body ++ outlinesOfBody orelse
  | tryBlock _ body handlers orelse final =>
    outlinesOfBody body ++ outlinesOfHandlers handlers ++ outlinesOfBody orelse ++
      outlinesOfBody final
  | _ => []

def outlinesOfBody : List Stmt → List Outline
  | [] => []
  | first :: rest => outlines first ++ outlinesOfBody rest

def outlinesOfHandlers : List Handler → List Outline
  | [] => []
  | .mk _ _ _ body :: rest => outlinesOfBody body ++ outlinesOfHandlers rest

end

@[simp] theorem mentionsOfBody_append (first second : List Stmt) :
    mentionsOfBody (first ++ second) = mentionsOfBody first ++ mentionsOfBody second := by
  induction first with
  | nil => rfl
  | cons stmt rest induction => simp [mentionsOfBody, induction]

@[simp] theorem outlinesOfBody_append (first second : List Stmt) :
    outlinesOfBody (first ++ second) = outlinesOfBody first ++ outlinesOfBody second := by
  induction first with
  | nil => rfl
  | cons stmt rest induction => simp [outlinesOfBody, induction]

/-- Statements that are put into a body add their own definitions, if they have any. -/
theorem outlinesOfBody_insertAt {place : Nat} {added body : List Stmt}
    (noDefinitions : outlinesOfBody added = []) :
    outlinesOfBody (insertAt place added body) = outlinesOfBody body := by
  rw [insertAt, outlinesOfBody_append, outlinesOfBody_append, noDefinitions, List.append_nil,
    ← outlinesOfBody_append, List.take_append_drop]

@[simp] theorem mentions_assign (target value : Expr) :
    mentions (assign [target] value) = loads value ++ targetMentions target := by
  rw [mentions, List.flatMap_singleton]

@[simp] theorem mentions_delete (position : Position) (target : Expr) :
    mentions (delete position [target]) = targetMentions target := by
  rw [mentions, List.flatMap_singleton]

@[simp] theorem mentions_store (name : String) (value : Expr) :
    mentions (store name value) = loads value ++ [.bind name] := rfl

@[simp] theorem mentions_drop (name : String) : mentions (drop name) = [.bind name] := rfl

@[simp] theorem topNonlocals_append (first second : List Stmt) :
    topNonlocals (first ++ second) = topNonlocals first ++ topNonlocals second :=
  List.flatMap_append

end Stmt

/-- The outline of a module. -/
def Outline.ofModule (body : List Stmt) : Outline :=
  .mk .moduleScope "" [] (Stmt.mentionsOfBody body) (Stmt.topNonlocals body)
    (Stmt.outlinesOfBody body)

/-! ## Collecting -/

namespace Names

/-- Notes one mention. -/
def note (kind : ScopeKind) (names : Names) : Mention → Names
  | .load name => names.use name
  | .bind name => names.bind name .own
  | .imported name => names.bind name .own
  | .function name =>
    let names := names.bind name .own
    { names with functions := insertNew name names.functions }
  | .lent name => if kind = .moduleScope then names else names.bind name .own
  | .declare declaration ident => names.declare kind declaration ident

def noteAll (kind : ScopeKind) (names : Names) (mentions : List Mention) : Names :=
  mentions.foldl (note kind) names

end Names

namespace Collector

/-- A collector notes the mentions of a list, and nothing else. -/
def Notes (kind : ScopeKind) (mentions : List Mention) (collector : Collector Unit) : Prop :=
  ∀ names, collector.run names = ((), names.noteAll kind mentions)

variable {kind : ScopeKind}

theorem Notes.pure : Notes kind [] (pure ()) := fun _ => rfl

theorem Notes.bind {first second : List Mention} {before after : Collector Unit}
    (firstNotes : Notes kind first before) (secondNotes : Notes kind second after) :
    Notes kind (first ++ second) (before >>= fun _ => after) := by
  intro names
  have step : (before >>= fun _ => after).run names = after.run (before.run names).2 := rfl
  rw [step, firstNotes names, secondNotes, Names.noteAll, Names.noteAll, Names.noteAll,
    List.foldl_append]

/-- The mentions of a list, one after the other. -/
theorem Notes.forM {α : Type} {mentions : α → List Mention} {collector : α → Collector Unit} :
    ∀ {items : List α}, (∀ item ∈ items, Notes kind (mentions item) (collector item)) →
      Notes kind (items.flatMap mentions) (items.forM collector)
  | [], _ => .pure
  | first :: rest, each => by
    rw [List.flatMap_cons]
    exact (each first (by simp)).bind (Notes.forM fun item member => each item (by simp [member]))

mutual

theorem expr_notes :
    ∀ value : Expr, value.isPlain = true → Notes kind (Stmt.loads value) (expr value)
  | .name .., _ => fun _ => rfl
  | .literal .., _ => .pure
  | .call callee arguments _, plain => by
    have parts := Bool.and_eq_true_iff.mp plain
    have both := (expr_notes callee parts.1).bind (exprs_notes arguments parts.2)
    rw [Stmt.loads, Stmt.loadsOfList, ← List.map_append] at both
    exact both
  | .keyword _ _ value, plain => expr_notes value plain
  | .starred _ _ value, plain => expr_notes value plain
  | .member object _ _, plain => expr_notes object plain
  | .list _ items _, plain => exprs_notes items plain
  | .tuple _ items _, plain => exprs_notes items plain
  | .set _ items _, plain => exprs_notes items plain
  | .dict _ items _, plain => exprs_notes items plain
  | .entry key value, plain => by
    have parts := Bool.and_eq_true_iff.mp plain
    have both := (expr_notes key parts.1).bind (expr_notes value parts.2)
    rw [Stmt.loads, Stmt.loads, ← List.map_append] at both
    exact both
  | .yield _ _ value, plain => optional_notes value plain

theorem optional_notes : ∀ value : Option Expr, Expr.isPlainOption value = true →
    Notes kind (Stmt.loadsOfOption value) (optional value)
  | none, _ => .pure
  | some value, plain => expr_notes value plain

theorem exprs_notes : ∀ items : List Expr, Expr.arePlain items = true →
    Notes kind (Stmt.loadsOfList items) (exprs items)
  | [], _ => .pure
  | first :: rest, plain => by
    have parts := Bool.and_eq_true_iff.mp plain
    have both := (expr_notes first parts.1).bind (exprs_notes rest parts.2)
    rw [Stmt.loads, Stmt.loadsOfList, ← List.map_append] at both
    exact both

end

theorem target_notes (value : Expr) (plain : Stmt.isPlainTarget value = true) :
    Notes kind (Stmt.targetMentions value) (target value) := by
  cases value with
  | name => exact fun _ => rfl
  | member object => exact expr_notes object plain
  | _ => cases plain

theorem targets_notes (value : Expr) (plain : Stmt.isPlainTarget value = true) :
    Notes kind ([value].flatMap Stmt.targetMentions) (targets [value]) := by
  rw [List.flatMap_singleton, ← List.append_nil (Stmt.targetMentions value)]
  exact (target_notes value plain).bind .pure

theorem params_notes (items : List Param) (plain : items.all Param.isPlain = true) :
    Notes kind (Stmt.loadsOfParams items) (params items) := by
  rw [Stmt.loadsOfParams, Expr.namesOfParams, List.map_flatMap]
  refine Notes.forM fun param member => ?_
  have parts : param.hint = none ∧ Expr.isPlainOption param.default = true := by
    simpa [Param.isPlain] using List.all_eq_true.mp plain param member
  rw [parts.1]
  exact optional_notes param.default parts.2

theorem helperDeclarations_notes (body : List Stmt) :
    Notes kind ((Stmt.topNonlocals body).map .lent) (helperDeclarations kind body) := by
  unfold helperDeclarations
  split
  · rename_i inside
    have lends : ∀ name, Notes kind [.lent name] (bind name) := by
      intro name names
      simp only [Names.noteAll, List.foldl_cons, List.foldl_nil, Names.note, inside, if_false]
      rfl
    rw [Stmt.topNonlocals, List.map_flatMap]
    refine Notes.forM fun stmt _ => ?_
    match stmt with
    | .declare _ .nonlocal idents =>
      have each := @Notes.forM kind Ident (fun ident => [.lent ident.name]) _ idents
        fun ident _ => lends ident.name
      simpa [List.flatMap_singleton', Function.comp_def, ← List.map_eq_flatMap] using each
    | .declare _ .global idents => exact .pure
    | .expression .. | .assign .. | .augAssign .. | .annAssign .. | .delete .. | .branch ..
    | .returns .. | .raises .. | .asserts .. | .imports .. | .importFrom .. | .conditional ..
    | .whileLoop .. | .forLoop .. | .tryBlock .. | .withBlock .. | .function .. | .classDef .. =>
      exact .pure
  · rename_i outside
    intro names
    have unchanged : ∀ lent : List String, names.noteAll kind (lent.map .lent) = names := by
      intro lent
      induction lent with
      | nil => rfl
      | cons first rest induction =>
        simpa [Names.noteAll, Names.note, Decidable.not_not.mp outside] using induction
    rw [unchanged]
    rfl

theorem functionHead_notes (decorators : List Expr) (ident : Ident) (items : List Param)
    (body : List Stmt) (decoratorsPlain : Expr.arePlain decorators = true)
    (paramsPlain : items.all Param.isPlain = true) :
    Notes kind (Stmt.functionMentions decorators ident.name items body)
      (functionHead kind decorators ident items none body) := by
  have named : Notes kind [.function ident.name] (do
      bind ident.name
      modify fun names => { names with functions := insertNew ident.name names.functions }) :=
    fun _ => rfl
  have lends : Notes kind
      (if beginsWithText "_dp_" ident.name then (Stmt.topNonlocals body).map .lent else [])
      (if beginsWithText "_dp_" ident.name then helperDeclarations kind body else pure ()) := by
    split
    · exact helperDeclarations_notes body
    · exact .pure
  have all := (exprs_notes decorators decoratorsPlain).bind
    ((params_notes items paramsPlain).bind (named.bind lends))
  rw [Stmt.functionMentions, List.append_assoc]
  exact all

theorem handlerNames_notes {shape : Shape} :
    ∀ handlers : List Handler, Stmt.areHandlersPlain shape handlers = true →
      Notes kind [] (handlerNames handlers)
  | [], _ => .pure
  | .mk _ _ none _ :: rest, plain => by
    have parts := Bool.and_eq_true_iff.mp plain
    exact handlerNames_notes rest parts.2
  | .mk _ _ (some _) _ :: _, plain => by
    simp [Stmt.areHandlersPlain] at plain

mutual

theorem stmt_notes {shape : Shape} : ∀ statement : Stmt, statement.isPlain shape = true →
    Notes kind statement.mentions (stmt kind statement)
  | .expression value, plain => expr_notes value plain
  | .assign [left] value, plain => by
    have parts := Bool.and_eq_true_iff.mp plain
    exact (expr_notes value parts.2).bind (targets_notes left parts.1)
  | .delete _ [left], plain => targets_notes left plain
  | .branch .., _ => .pure
  | .returns _ result, plain => optional_notes result plain
  | .raises _ exception none, plain => by
    have both := (optional_notes exception plain).bind (@Notes.pure kind)
    rw [List.append_nil] at both
    exact both
  | .declare _ declaration idents, _ => by
    intro names
    rw [Stmt.mentions, Names.noteAll, List.foldl_map]
    rfl
  | .importFrom _ _ _ names _, _ => by
    rw [stmt, Stmt.mentions]
    split
    · exact .pure
    · rw [List.map_eq_flatMap]
      exact Notes.forM fun item _ _ => rfl
  | .conditional _ test body _ orelse, plain => by
    have parts : (test.isPlain = true ∧ Stmt.arePlain shape body = true) ∧
        Stmt.arePlain shape orelse = true := by
      simpa only [Stmt.isPlain, Bool.and_eq_true] using plain
    rw [Stmt.mentions, List.append_assoc]
    exact (expr_notes test parts.1.1).bind
      ((stmts_notes body parts.1.2).bind (stmts_notes orelse parts.2))
  | .whileLoop _ test body orelse, plain => by
    have parts : (test.isPlain = true ∧ Stmt.arePlain shape body = true) ∧
        Stmt.arePlain shape orelse = true := by
      simpa only [Stmt.isPlain, Bool.and_eq_true] using plain
    rw [Stmt.mentions, List.append_assoc]
    exact (expr_notes test parts.1.1).bind
      ((stmts_notes body parts.1.2).bind (stmts_notes orelse parts.2))
  | .tryBlock _ body handlers orelse final, plain => by
    have parts : ((Stmt.arePlain shape body = true ∧ Stmt.areHandlersPlain shape handlers = true) ∧
        Stmt.arePlain shape orelse = true) ∧ Stmt.arePlain shape final = true := by
      simpa only [Stmt.isPlain, Bool.and_eq_true] using plain
    rw [Stmt.mentions, List.append_assoc, List.append_assoc]
    exact (handlerNames_notes handlers parts.1.1.2).bind ((stmts_notes body parts.1.1.1).bind
      ((handlerBodies_notes handlers parts.1.1.2).bind
        ((stmts_notes orelse parts.1.2).bind (stmts_notes final parts.2))))
  | .function decorators _ ident params result body, plain => by
    simp only [Stmt.isPlain, Bool.and_eq_true] at plain
    obtain ⟨⟨⟨⟨_, decoratorsPlain⟩, paramsPlain⟩, unhinted⟩, _⟩ := plain
    rw [stmt, Option.isNone_iff_eq_none.mp unhinted]
    exact functionHead_notes decorators ident params body decoratorsPlain paramsPlain
  | .classDef decorators _ ident bases _, plain => by
    simp only [Stmt.isPlain, Bool.and_eq_true] at plain
    obtain ⟨⟨⟨_, decoratorsPlain⟩, basesPlain⟩, _⟩ := plain
    rw [Stmt.mentions, List.append_assoc]
    exact (exprs_notes decorators decoratorsPlain).bind
      ((exprs_notes bases basesPlain).bind fun _ => rfl)

theorem stmts_notes {shape : Shape} : ∀ body : List Stmt, Stmt.arePlain shape body = true →
    Notes kind (Stmt.mentionsOfBody body) (stmts kind body)
  | [], _ => .pure
  | first :: rest, plain => by
    have parts := Bool.and_eq_true_iff.mp plain
    exact (stmt_notes first parts.1).bind (stmts_notes rest parts.2)

theorem handlerBodies_notes {shape : Shape} :
    ∀ handlers : List Handler, Stmt.areHandlersPlain shape handlers = true →
      Notes kind (Stmt.mentionsOfHandlers handlers) (handlerBodies kind handlers)
  | [], _ => .pure
  | .mk _ none _ body :: rest, plain => by
    simp only [Stmt.areHandlersPlain, Bool.and_eq_true] at plain
    obtain ⟨⟨_, bodyPlain⟩, restPlain⟩ := plain
    exact (stmts_notes body bodyPlain).bind (handlerBodies_notes rest restPlain)

end

end Collector

/-! ## Scopes -/

namespace Names

/-- The names of a definition, those it captures left out. -/
def ofOutline (outline : Outline) : Names :=
  noteAll outline.kind
    (outline.params.foldl (fun names name =>
      { names with params := insertNew name names.params }.bind name .own) {})
    outline.mentions

end Names

/-- What is collected of a body whose statements note some mentions. -/
theorem collect_of_notes {kind : ScopeKind} {body : List Stmt} {mentions : List Mention}
    (notes : Collector.Notes kind mentions (Collector.stmts kind body)) (name : String)
    (params : List Param) (nonlocals : List String) (inner : List Outline) :
    collect kind params body = Names.ofOutline
      (.mk kind name (Collector.paramNames params) mentions nonlocals inner) := by
  have started : ∀ names : Names, params.foldl Names.addParam names =
      (Collector.paramNames params).foldl (fun names name =>
        { names with params := insertNew name names.params }.bind name .own) names := by
    induction params with
    | nil => exact fun _ => rfl
    | cons first rest induction =>
      intro names
      obtain ⟨_, _, ident, _, _⟩ := first
      cases ident <;> exact induction _
  rw [collect, notes, started]
  rfl

theorem collect_eq_ofOutline {shape : Shape} {body : List Stmt} (kind : ScopeKind) (name : String)
    (params : List Param) (plain : Stmt.arePlain shape body = true) :
    collect kind params body = Names.ofOutline (.mk kind name (Collector.paramNames params)
      (Stmt.mentionsOfBody body) (Stmt.topNonlocals body) (Stmt.outlinesOfBody body)) :=
  collect_of_notes (Collector.stmts_notes body plain) name params _ _

namespace Scope

/-- The body of a definition, without the bodies inside it. -/
def infoOf (outer : Enclosing) (outline : Outline) : ScopeInfo where
  kind := outline.kind
  name := outline.name
  qualname := match outer with
    | parent :: _ => parent.qualify outline.name
    | [] => displayName outline.name
  names := (Names.ofOutline outline).capture outer

mutual

def ofOutline (outer : Enclosing) : Outline → Scope
  | .mk kind name params mentions nonlocals inner =>
    let info := infoOf outer (.mk kind name params mentions nonlocals inner)
    mk info (ofOutlines (info :: outer) inner)

def ofOutlines (outer : Enclosing) : List Outline → List Scope
  | [] => []
  | first :: rest => ofOutline outer first :: ofOutlines outer rest

end

theorem ofOutlines_append (outer : Enclosing) (first second : List Outline) :
    ofOutlines outer (first ++ second) = ofOutlines outer first ++ ofOutlines outer second := by
  induction first with
  | nil => rfl
  | cons outline rest induction => simp [ofOutlines, induction]

theorem child_eq_infoOf {shape : Shape} {body : List Stmt} (outer : Enclosing) (kind : ScopeKind)
    (name : String) (params : List Param) (plain : Stmt.arePlain shape body = true) :
    child outer kind name params body = infoOf outer (.mk kind name (Collector.paramNames params)
      (Stmt.mentionsOfBody body) (Stmt.topNonlocals body) (Stmt.outlinesOfBody body)) := by
  unfold child infoOf
  rw [collect_eq_ofOutline kind name params plain]
  rfl

mutual

theorem ofStmt_eq_ofOutlines {shape : Shape} : ∀ (outer : Enclosing) (stmt : Stmt),
    stmt.isPlain shape = true → ofStmt outer stmt = ofOutlines outer stmt.outlines
  | outer, .function decorators _ ident params result body, plain => by
    simp only [Stmt.isPlain, Bool.and_eq_true] at plain
    rw [ofStmt, Stmt.outlines, ofOutlines, ofOutline, ofOutlines,
      child_eq_infoOf outer .functionScope ident.name params plain.2,
      ofBody_eq_ofOutlines _ body plain.2]
  | outer, .classDef decorators _ ident bases body, plain => by
    simp only [Stmt.isPlain, Bool.and_eq_true] at plain
    rw [ofStmt, Stmt.outlines, ofOutlines, ofOutline, ofOutlines,
      child_eq_infoOf outer .classScope ident.name [] plain.2,
      ofBody_eq_ofOutlines _ body plain.2]
    rfl
  | outer, .conditional _ test body _ orelse, plain => by
    simp only [Stmt.isPlain, Bool.and_eq_true] at plain
    rw [ofStmt, Stmt.outlines, ofOutlines_append, ofBody_eq_ofOutlines _ body plain.1.2,
      ofBody_eq_ofOutlines _ orelse plain.2]
  | outer, .whileLoop _ test body orelse, plain => by
    simp only [Stmt.isPlain, Bool.and_eq_true] at plain
    rw [ofStmt, Stmt.outlines, ofOutlines_append, ofBody_eq_ofOutlines _ body plain.1.2,
      ofBody_eq_ofOutlines _ orelse plain.2]
  | outer, .tryBlock _ body handlers orelse final, plain => by
    simp only [Stmt.isPlain, Bool.and_eq_true] at plain
    rw [ofStmt, Stmt.outlines, ofOutlines_append, ofOutlines_append, ofOutlines_append,
      ofBody_eq_ofOutlines _ body plain.1.1.1, ofHandlers_eq_ofOutlines _ handlers plain.1.1.2,
      ofBody_eq_ofOutlines _ orelse plain.1.2, ofBody_eq_ofOutlines _ final plain.2]
  | _, .expression .., _ | _, .assign .., _ | _, .delete .., _ | _, .branch .., _
  | _, .returns .., _ | _, .raises .., _ | _, .declare .., _ | _, .importFrom .., _ => rfl

theorem ofBody_eq_ofOutlines {shape : Shape} : ∀ (outer : Enclosing) (body : List Stmt),
    Stmt.arePlain shape body = true → ofBody outer body = ofOutlines outer (Stmt.outlinesOfBody body)
  | _, [], _ => rfl
  | outer, first :: rest, plain => by
    have parts := Bool.and_eq_true_iff.mp plain
    rw [ofBody, Stmt.outlinesOfBody, ofOutlines_append, ofStmt_eq_ofOutlines outer first parts.1,
      ofBody_eq_ofOutlines outer rest parts.2]

theorem ofHandlers_eq_ofOutlines {shape : Shape} : ∀ (outer : Enclosing) (handlers : List Handler),
    Stmt.areHandlersPlain shape handlers = true →
      ofHandlers outer handlers = ofOutlines outer (Stmt.outlinesOfHandlers handlers)
  | _, [], _ => rfl
  | outer, .mk _ _ _ body :: rest, plain => by
    simp only [Stmt.areHandlersPlain, Bool.and_eq_true] at plain
    rw [ofHandlers, Stmt.outlinesOfHandlers, ofOutlines_append,
      ofBody_eq_ofOutlines outer body plain.1.2, ofHandlers_eq_ofOutlines outer rest plain.2]

end

theorem ofModule_eq_ofOutline {shape : Shape} {body : List Stmt}
    (plain : Stmt.arePlain shape body = true) :
    ofModule body = ofOutline [] (.ofModule body) := by
  have info : infoOf [] (.ofModule body) = ⟨.moduleScope, "", "", collect .moduleScope [] body⟩ := by
    have captured : ∀ names : Names, names.capture [] = names := by
      intro names
      have nothing : names.uses.filter (fun _ => false) = [] :=
        List.filter_eq_nil_iff.mpr (by simp)
      simp [Names.capture, Enclosing.captures, nothing]
    rw [infoOf, captured, collect_eq_ofOutline .moduleScope "" [] plain]
    rfl
  have unfolded : ofOutline [] (.ofModule body) = mk (infoOf [] (.ofModule body))
      (ofOutlines [infoOf [] (.ofModule body)] (Stmt.outlinesOfBody body)) := rfl
  rw [unfolded, info, ← ofBody_eq_ofOutlines _ body plain]
  rfl

end Scope
end Unsugar
