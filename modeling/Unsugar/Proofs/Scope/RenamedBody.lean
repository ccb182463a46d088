import Unsugar.Proofs.Scope.Renaming

/-! What is collected of a body whose names are renamed. Its statements note what they noted,
renamed, but for the names that imports take from paths; and of the mentions that they note
only the declarations and the bindings decide where a name lives. -/

namespace Unsugar

/-! ## Imports -/

/-- The name that an import binds as it stands in the path. -/
def Alias.pathName? (item : Alias) : Option String :=
  match item.asName with
  | some _ => none
  | none => some item.bound

namespace Stmt

mutual

/-- The names that a statement binds as they stand in the paths of imports. Those in the
definitions inside it are left out. -/
def pathNames : Stmt → List String
  | imports _ names => names.filterMap Alias.pathName?
  | importFrom _ _ _ names _ =>
    if Collector.importsAll names then [] else names.filterMap Alias.pathName?
  | conditional _ _ body _ orelse => pathNamesOfBody body ++ pathNamesOfBody orelse
  | whileLoop _ _ body orelse => pathNamesOfBody body ++ pathNamesOfBody orelse
  | forLoop _ _ _ body orelse => pathNamesOfBody body ++ pathNamesOfBody orelse
  | tryBlock _ body handlers orelse final =>
    pathNamesOfBody body ++ (pathNamesOfHandlers handlers ++
      (pathNamesOfBody orelse ++ pathNamesOfBody final))
  | withBlock _ _ body => pathNamesOfBody body
  | _ => []

def pathNamesOfBody : List Stmt → List String
  | [] => []
  | first :: rest => pathNames first ++ pathNamesOfBody rest

def pathNamesOfHandlers : List Handler → List String
  | [] => []
  | .mk _ _ _ body :: rest => pathNamesOfBody body ++ pathNamesOfHandlers rest

end

end Stmt

namespace Expr

theorem mapLeavesParams_eq_map (leaves : LeafMap) (params : List Param) :
    mapLeavesParams leaves params = params.map (mapLeavesParam leaves) := by
  induction params with
  | nil => rfl
  | cons first rest induction => rw [mapLeavesParams, induction, List.map_cons]

end Expr

theorem Stmt.mapLeavesBody_eq_map (inside : String → LeafMap) (leaves : LeafMap)
    (body : List Stmt) : mapLeavesBody inside leaves body = body.map (mapLeaves inside leaves) := by
  induction body with
  | nil => rfl
  | cons first rest induction => rw [mapLeavesBody, induction, List.map_cons]

/-! ## Statements -/

namespace Collector

variable {kind : ScopeKind} {standing fixed : List String} (inside : String → LeafMap)
  (leaves : LeafMap)

open Unsugar.Expr (identifiersOfOption identifiersOfList identifiersOfParams)

theorem imported_renames {names : List Alias}
    (still : ∀ name ∈ names.filterMap Alias.pathName?,
      leaves.name name ≠ name → name ∈ fixed) :
    Renames kind leaves.name standing fixed Eq (imported names)
      (imported (names.map leaves.item)) := by
  refine .forM fun item member => ?_
  obtain ⟨position, path, asName⟩ := item
  cases asName with
  | some ident => exact .binds ident.name
  | none =>
    have isPath : Alias.bound ⟨position, path, none⟩ ∈ names.filterMap Alias.pathName? :=
      List.mem_filterMap.mpr ⟨_, member, rfl⟩
    exact .bindsStill (still _ isPath)

theorem params_renames {items : List Param} (stands : identifiersOfParams items ⊆ standing) :
    Renames kind leaves.name standing fixed Eq (params items)
      (params (Expr.mapLeavesParams leaves items)) := by
  have parts : ∀ item ∈ items, identifiersOfOption item.hint ⊆ standing ∧
      identifiersOfOption item.default ⊆ standing := by
    induction items with
    | nil => simp
    | cons first rest induction =>
      obtain ⟨_, _, _, hint, default⟩ := first
      obtain ⟨inFirst, inRest⟩ := List.append_subset.mp stands
      obtain ⟨inHead, inDefault⟩ := List.append_subset.mp inFirst
      exact List.forall_mem_cons.mpr
        ⟨⟨(List.append_subset.mp inHead).2, inDefault⟩, induction inRest⟩
  rw [Expr.mapLeavesParams_eq_map]
  refine .forM fun item member => ?_
  obtain ⟨inHint, inDefault⟩ := parts item member
  obtain ⟨_, _, _, hint, default⟩ := item
  exact (optional_renames leaves hint inHint).seq fun _ _ _ =>
    optional_renames leaves default inDefault

theorem withItems_renames {items : List WithItem}
    (stands : items.flatMap WithItem.identifiers ⊆ standing) :
    Renames kind leaves.name standing fixed Eq (withItems items)
      (withItems (items.map (·.mapLeaves leaves))) := by
  refine .forM fun item member => ?_
  have inItem : item.identifiers ⊆ standing := fun name found =>
    stands (List.mem_flatMap.mpr ⟨item, member, found⟩)
  obtain ⟨manager, bound⟩ := item
  have ⟨inManager, inTarget⟩ := List.append_subset.mp inItem
  refine (expr_renames leaves manager inManager).seq fun _ _ _ => ?_
  cases bound with
  | none => exact .pure rfl
  | some bound => exact target_renames leaves bound inTarget

theorem helperDeclarations_renames (scope : ScopeKind) (body : List Stmt) :
    Renames kind leaves.name standing fixed Eq (helperDeclarations scope body)
      (helperDeclarations scope (Stmt.mapLeavesBody inside leaves body)) := by
  unfold helperDeclarations
  split
  · rw [Stmt.mapLeavesBody_eq_map]
    refine .forM fun stmt _ => ?_
    cases stmt with
    | declare position declaration idents =>
      cases declaration with
      | «nonlocal» => exact .forM fun ident _ => .binds ident.name
      | global => exact .pure rfl
    | _ => exact .pure rfl
  · exact .pure rfl

variable (marked : ∀ name,
  beginsWithText "_dp_" (leaves.name name) = beginsWithText "_dp_" name)

-- The theorems of a mutual block take it also where they need it only through others.
set_option linter.unusedSectionVars false

include marked

theorem functionHead_renames (scope : ScopeKind) {decorators : List Expr} (ident : Ident)
    {parameters : List Param} {result : Option Expr} (body : List Stmt)
    (inDecorators : identifiersOfList decorators ⊆ standing)
    (inParams : identifiersOfParams parameters ⊆ standing)
    (inResult : identifiersOfOption result ⊆ standing) :
    Renames kind leaves.name standing fixed Eq
      (functionHead scope decorators ident parameters result body)
      (functionHead scope (Expr.mapLeavesList leaves decorators) (leaves.ident ident)
        (Expr.mapLeavesParams leaves parameters) (Expr.mapLeavesOption leaves result)
        (Stmt.mapLeavesBody inside leaves body)) := by
  refine (exprs_renames leaves decorators inDecorators).seq fun _ _ _ =>
    (params_renames leaves inParams).seq fun _ _ _ =>
      (optional_renames leaves result inResult).seq fun _ _ _ => ?_
  have lends : Renames kind leaves.name standing fixed Eq
      (if beginsWithText "_dp_" ident.name then helperDeclarations scope body else Pure.pure ())
      (if beginsWithText "_dp_" (leaves.ident ident).name then
        helperDeclarations scope (Stmt.mapLeavesBody inside leaves body) else Pure.pure ()) := by
    rw [show (leaves.ident ident).name = leaves.name ident.name from rfl, marked]
    split
    · exact helperDeclarations_renames inside leaves scope body
    · exact .pure rfl
  have named := (Renames.defines ident.name).seq fun _ _ _ => lends
  rw [bind_assoc, bind_assoc] at named
  exact named

omit marked

theorem handlerNames_renames (handlers : List Handler) :
    Renames kind leaves.name standing fixed Eq (handlerNames handlers)
      (handlerNames (Stmt.mapLeavesHandlers inside leaves handlers)) := by
  induction handlers with
  | nil => exact .pure rfl
  | cons first rest induction =>
    obtain ⟨_, _, ident, _⟩ := first
    cases ident with
    | none => exact (Renames.pure (rfl : () = ())).seq fun _ _ _ => induction
    | some ident => exact (Renames.binds ident.name).seq fun _ _ _ => induction

include marked

mutual

theorem stmt_renames : ∀ statement : Stmt, statement.identifiers ⊆ standing →
    (∀ name ∈ statement.pathNames, leaves.name name ≠ name → name ∈ fixed) →
      Renames kind leaves.name standing fixed Eq (stmt kind statement)
        (stmt kind (statement.mapLeaves inside leaves))
  | .expression value, stands, _ => expr_renames leaves value stands
  | .assign left value, stands, _ =>
    have ⟨inLeft, inValue⟩ := List.append_subset.mp stands
    (expr_renames leaves value inValue).seq fun _ _ _ => targets_renames leaves left inLeft
  | .augAssign left _ value, stands, _ =>
    have ⟨inLeft, inValue⟩ := List.append_subset.mp stands
    (target_renames leaves left inLeft).seq fun _ _ _ => expr_renames leaves value inValue
  | .annAssign left hint value, stands, _ =>
    have ⟨inBoth, inValue⟩ := List.append_subset.mp stands
    have ⟨inLeft, inHint⟩ := List.append_subset.mp inBoth
    (target_renames leaves left inLeft).seq fun _ _ _ =>
      (expr_renames leaves hint inHint).seq fun _ _ _ => optional_renames leaves value inValue
  | .delete _ items, stands, _ => targets_renames leaves items stands
  | .branch .., _, _ => .pure rfl
  | .returns _ result, stands, _ => optional_renames leaves result stands
  | .raises _ exception cause, stands, _ =>
    have ⟨inException, inCause⟩ := List.append_subset.mp stands
    (optional_renames leaves exception inException).seq fun _ _ _ =>
      optional_renames leaves cause inCause
  | .declare _ declaration idents, _, _ => .declares declaration fun _ => rfl
  | .asserts _ test message, stands, _ =>
    have ⟨inTest, inMessage⟩ := List.append_subset.mp stands
    (expr_renames leaves test inTest).seq fun _ _ _ => optional_renames leaves message inMessage
  | .imports _ names, _, still => imported_renames leaves still
  | .importFrom _ _ _ names _, _, still => by
    have same : importsAll (names.map leaves.item) = importsAll names := by
      rcases names with _ | ⟨_, _ | _⟩ <;> rfl
    rw [Stmt.pathNames] at still
    rw [stmt, Stmt.mapLeaves, stmt, same]
    split
    · exact .pure rfl
    · rename_i members
      exact imported_renames leaves (by simpa [members] using still)
  | .conditional _ test body _ orelse, stands, still =>
    have ⟨inBoth, inElse⟩ := List.append_subset.mp stands
    have ⟨inTest, inBody⟩ := List.append_subset.mp inBoth
    have ⟨stillBody, stillElse⟩ := List.forall_mem_append.mp still
    (expr_renames leaves test inTest).seq fun _ _ _ =>
      (stmts_renames body inBody stillBody).seq fun _ _ _ => stmts_renames orelse inElse stillElse
  | .whileLoop _ test body orelse, stands, still =>
    have ⟨inBoth, inElse⟩ := List.append_subset.mp stands
    have ⟨inTest, inBody⟩ := List.append_subset.mp inBoth
    have ⟨stillBody, stillElse⟩ := List.forall_mem_append.mp still
    (expr_renames leaves test inTest).seq fun _ _ _ =>
      (stmts_renames body inBody stillBody).seq fun _ _ _ => stmts_renames orelse inElse stillElse
  | .forLoop _ bound iterable body orelse, stands, still =>
    have ⟨inLoop, inElse⟩ := List.append_subset.mp stands
    have ⟨inHead, inBody⟩ := List.append_subset.mp inLoop
    have ⟨inTarget, inIterable⟩ := List.append_subset.mp inHead
    have ⟨stillBody, stillElse⟩ := List.forall_mem_append.mp still
    (expr_renames leaves iterable inIterable).seq fun _ _ _ =>
      (target_renames leaves bound inTarget).seq fun _ _ _ =>
        (stmts_renames body inBody stillBody).seq fun _ _ _ => stmts_renames orelse inElse stillElse
  | .tryBlock _ body handlers orelse final, stands, still =>
    have ⟨inThree, inFinal⟩ := List.append_subset.mp stands
    have ⟨inBoth, inElse⟩ := List.append_subset.mp inThree
    have ⟨inBody, inHandlers⟩ := List.append_subset.mp inBoth
    have ⟨stillBody, stillRest⟩ := List.forall_mem_append.mp still
    have ⟨stillHandlers, stillBoth⟩ := List.forall_mem_append.mp stillRest
    have ⟨stillElse, stillFinal⟩ := List.forall_mem_append.mp stillBoth
    (handlerNames_renames inside leaves handlers).seq fun _ _ _ =>
      (stmts_renames body inBody stillBody).seq fun _ _ _ =>
        (handlerBodies_renames handlers inHandlers stillHandlers).seq fun _ _ _ =>
          (stmts_renames orelse inElse stillElse).seq fun _ _ _ =>
            stmts_renames final inFinal stillFinal
  | .withBlock _ items body, stands, still =>
    have ⟨inItems, inBody⟩ := List.append_subset.mp stands
    (withItems_renames leaves inItems).seq fun _ _ _ => stmts_renames body inBody still
  | .function decorators _ ident parameters result body, stands, _ =>
    have ⟨inHead, _⟩ := List.append_subset.mp stands
    have ⟨inBoth, inResult⟩ := List.append_subset.mp inHead
    have ⟨inDecorators, inNamed⟩ := List.append_subset.mp inBoth
    functionHead_renames inside leaves marked kind ident body inDecorators
      (List.cons_subset.mp inNamed).2 inResult
  | .classDef decorators _ ident bases body, stands, _ =>
    have ⟨inHead, _⟩ := List.append_subset.mp stands
    have ⟨inDecorators, inNamed⟩ := List.append_subset.mp inHead
    (exprs_renames leaves decorators inDecorators).seq fun _ _ _ =>
      (exprs_renames leaves bases (List.cons_subset.mp inNamed).2).seq fun _ _ _ =>
        .binds ident.name

theorem stmts_renames : ∀ body : List Stmt, Stmt.identifiersOfBody body ⊆ standing →
    (∀ name ∈ Stmt.pathNamesOfBody body, leaves.name name ≠ name → name ∈ fixed) →
      Renames kind leaves.name standing fixed Eq (stmts kind body)
        (stmts kind (Stmt.mapLeavesBody inside leaves body))
  | [], _, _ => .pure rfl
  | first :: rest, stands, still =>
    have ⟨inFirst, inRest⟩ := List.append_subset.mp stands
    have ⟨stillFirst, stillRest⟩ := List.forall_mem_append.mp still
    (stmt_renames first inFirst stillFirst).seq fun _ _ _ => stmts_renames rest inRest stillRest

theorem handlerBodies_renames :
    ∀ handlers : List Handler, Stmt.identifiersOfHandlers handlers ⊆ standing →
      (∀ name ∈ Stmt.pathNamesOfHandlers handlers,
        leaves.name name ≠ name → name ∈ fixed) →
        Renames kind leaves.name standing fixed Eq (handlerBodies kind handlers)
          (handlerBodies kind (Stmt.mapLeavesHandlers inside leaves handlers))
  | [], _, _ => .pure rfl
  | .mk _ type _ body :: rest, stands, still =>
    have ⟨inFirst, inRest⟩ := List.append_subset.mp stands
    have ⟨inHead, inBody⟩ := List.append_subset.mp inFirst
    have ⟨inType, _⟩ := List.append_subset.mp inHead
    have ⟨stillBody, stillRest⟩ := List.forall_mem_append.mp still
    (optional_renames leaves type inType).seq fun _ _ _ =>
      (stmts_renames body inBody stillBody).seq fun _ _ _ =>
        handlerBodies_renames rest inRest stillRest

end

end Collector
/-! ## Where a name lives -/

namespace Mentions

/-- The first declaration of a name among declarations. -/
def firstDeclaration? (declared : List (Declaration × String)) (name : String) :
    Option Declaration :=
  declared.findSome? fun (declaration, found) => if found = name then some declaration else none

theorem declaration?_eq_first (mentions : List Mention) (name : String) :
    declaration? mentions name = firstDeclaration? (declared mentions) name := by
  induction mentions with
  | nil => rfl
  | cons first rest induction =>
    have split := declaration?_append [first] rest name
    rw [List.singleton_append] at split
    rw [split, declaration?_singleton, induction]
    cases first with
    | declare declaration ident =>
      by_cases same : ident.name = name <;>
        simp [Mention.declaration?, declared, firstDeclaration?, same]
    | _ => rfl

/-- The first declaration of a renamed name is the first one of a name that became it. -/
theorem firstDeclaration?_map {rename : String → String} {name : String}
    {declaration : Declaration} : ∀ {pairs : List (Declaration × String)},
    firstDeclaration? (pairs.map fun (declaration, name) => (declaration, rename name)) name =
        some declaration →
      ∃ written, rename written = name ∧ firstDeclaration? pairs written = some declaration
  | [], found => by cases found
  | (first, other) :: rest, found => by
    by_cases same : rename other = name
    · refine ⟨other, same, ?_⟩
      simpa [firstDeclaration?, same] using found
    · have later : firstDeclaration?
          (rest.map fun (declaration, name) => (declaration, rename name)) name =
            some declaration := by
        simpa [firstDeclaration?, same] using found
      obtain ⟨written, isName, declared⟩ := firstDeclaration?_map later
      have different : other ≠ written := fun equal => same (equal ▸ isName)
      exact ⟨written, isName, by simpa [firstDeclaration?, different] using declared⟩

theorem firstDeclaration?_isSome_map {rename : String → String} {written : String}
    {pairs : List (Declaration × String)} (declared : (firstDeclaration? pairs written).isSome) :
    (firstDeclaration? (pairs.map fun (declaration, name) => (declaration, rename name))
      (rename written)).isSome := by
  rw [firstDeclaration?, List.findSome?_isSome_iff] at declared ⊢
  obtain ⟨⟨declaration, found⟩, member, isWritten⟩ := declared
  have same : found = written := by simpa using isWritten
  exact ⟨_, List.mem_map_of_mem member, by simp [same]⟩

end Mentions

namespace Names

variable {kind : ScopeKind} {title : String} {params nonlocals : List String}
  {inner : List Outline} {mentions : List Mention}

/-- The binding of any name in a definition. A reserved name that is declared is bound in
the body itself, as a parameter is. -/
theorem ofOutline_binding? (inside : kind ≠ .moduleScope) (name : String) :
    (ofOutline (.mk kind title params mentions nonlocals inner)).binding? name =
      Binding.among (params.contains name ||
          (isReserved name && (Mentions.declaration? mentions name).isSome))
        (Mentions.declaration? mentions name) (Mentions.binds mentions name) := by
  let outline : Outline := .mk kind title params mentions nonlocals inner
  have insideOutline : outline.kind ≠ .moduleScope := inside
  cases reserved : isReserved name with
  | false =>
    rw [Bool.false_and, Bool.or_false]
    exact (ofOutline_tells outline insideOutline reserved).binding
  | true =>
    have placed : mentions.any (·.places name) =
        (Mentions.binds mentions name || (Mentions.declaration? mentions name).isSome) := by
      rw [Bool.eq_iff_iff, Bool.or_eq_true, Mentions.declaration?, List.findSome?_isSome_iff,
        Mentions.binds, List.any_eq_true, List.any_eq_true, ← exists_or]
      exact exists_congr fun mention => by
        rw [Mention.places, Bool.or_eq_true, and_or_left]
    have confined : (ofOutline outline).binding? name =
        if params.contains name || mentions.any (·.places name) then some .own else none :=
      (ofOutline_confines outline insideOutline reserved).binding
    rw [confined, placed, Bool.true_and]
    cases params.contains name <;>
      cases Mentions.declaration? mentions name <;>
        cases Mentions.binds mentions name <;> rfl

theorem declare_uses (names : Names) (declaration : Declaration) (ident : Ident) :
    (names.declare kind declaration ident).uses = names.uses := by
  unfold declare
  cases declaration <;> dsimp only <;> repeat' split
  -- A declaration is refused, or followed.
  all_goals first | rfl | simp

theorem noteAll_uses (name : String) : ∀ (mentions : List Mention) (names : Names),
    (names.noteAll kind mentions).uses.contains name =
      (names.uses.contains name || Mentions.loads mentions name)
  | [], names => by simp [noteAll, Mentions.loads]
  | first :: rest, names => by
    have split : Mentions.loads (first :: rest) name =
        (first.isLoadOf name || Mentions.loads rest name) := rfl
    have later : names.noteAll kind (first :: rest) = (names.note kind first).noteAll kind rest :=
      rfl
    rw [later, noteAll_uses name rest, split, ← Bool.or_assoc]
    congr 1
    cases first with
    | load added => rw [note, use, insertNew_contains, Mention.isLoadOf, decide_eq_decide.mpr eq_comm]
    | bind added | imported added | function added => simp [note, Mention.isLoadOf]
    | lent added =>
      simp only [note, Mention.isLoadOf, Bool.or_false]
      split <;> rfl
    | declare declaration ident => simp [note, Mention.isLoadOf, declare_uses]

theorem ofOutline_uses (outline : Outline) (name : String) :
    (ofOutline outline).uses.contains name = Mentions.loads outline.mentions name := by
  have started : ∀ (params : List String) (names : Names), (params.foldl (fun names name =>
      { names with params := insertNew name names.params }.bind name .own) names).uses =
        names.uses := by
    intro params
    induction params with
    | nil => exact fun _ => rfl
    | cons first rest induction => exact fun names => induction _
  rw [ofOutline, noteAll_uses, started]
  rfl

end Names

theorem Binding.isSome_among {isParam isBound : Bool} {declaration : Option Declaration} :
    (among isParam declaration isBound).isSome = (isParam || declaration.isSome || isBound) := by
  cases isParam <;> cases declaration <;> cases isBound <;> rfl

end Unsugar
