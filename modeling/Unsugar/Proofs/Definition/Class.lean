import Unsugar.Proofs.Definition.Function
import Unsugar.Proofs.Definition.Method

/-! Classes that become functions. Such a function binds fewer names than the body of
the class did: what is left are the names that the class declares, those it imports, and
those that a definition in it declares nonlocal. -/

namespace Unsugar

/-! ## Arguments -/

namespace Lowering.Item

section Measure

variable {measure : Expr → Bool} {gather : List Expr → Expr} {convert : Expr → Expr}
  {join : Expr → Expr → Expr}

theorem segments_any (gathers : ∀ values, measure (gather values) = values.any measure)
    (converts : ∀ value, measure (convert value) = measure value) (items : List (Item Expr)) :
    ∀ gathered, (segments gather convert gathered items).any measure =
      (gathered.any measure || items.any (measure ·.value)) := by
  have flushed : ∀ gathered : List Expr,
      (if gathered.isEmpty then [] else [gather gathered]).any measure = gathered.any measure := by
    intro gathered
    cases gathered with
    | nil => rfl
    | cons first rest => simp [gathers]
  induction items with
  | nil =>
    intro gathered
    rw [segments, flushed, List.any_nil, Bool.or_false]
  | cons item rest induction =>
    intro gathered
    cases item with
    | plain found =>
      rw [segments, induction, List.any_append, List.any_cons, List.any_cons, List.any_nil,
        Bool.or_false, Bool.or_assoc]
      rfl
    | unpacked _ _ found =>
      rw [segments, List.any_append, flushed, List.any_cons, converts, induction, List.any_cons,
        List.any_nil, Bool.false_or]
      rfl

theorem joined_any {empty : Expr} (nothing : measure empty = false)
    (joins : ∀ first second, measure (join first second) = (measure first || measure second)) :
    ∀ segments : List Expr, measure (joined join empty segments) = segments.any measure := by
  intro segments
  cases segments with
  | nil => exact nothing
  | cons first rest =>
    rw [joined, List.any_cons]
    induction rest generalizing first with
    | nil => simp
    | cons second others induction =>
      rw [List.foldl_cons, induction, joins, List.any_cons, Bool.or_assoc]

end Measure

end Lowering.Item

namespace Definition

open Lowering (Item)

variable {name : String}

/-- A measure of expressions that only sees the leaves. -/
structure SeesLeaves (measure : Expr → Bool) : Prop where
  support : ∀ id values, measure (.supportCall id values) = values.any measure
  tuple : ∀ values, measure (.tupleOf values) = values.any measure
  dict : ∀ values, measure (.dictOf values) = values.any measure
  text : ∀ text, measure (.ofText text) = false
  absent : measure .absent = false
  starred : ∀ position op value, measure (.starred position op value) = measure value
  keyword : ∀ position id value, measure (.keyword position id value) = measure value
  entry : ∀ key value, measure (.entry key value) = (measure key || measure value)

namespace SeesLeaves

variable {measure : Expr → Bool}

theorem item (sees : SeesLeaves measure) (argument : Expr) :
    measure (itemOf argument).value = measure argument := by
  cases argument with
  | starred position op value => exact (sees.starred position op value).symm
  | _ => rfl

theorem bases (sees : SeesLeaves measure) (arguments : List Expr) :
    measure (basesOf arguments) =
      (arguments.filter (!isKeywordArgument ·)).any measure := by
  rw [basesOf, Item.joined_any (sees.tuple []) fun first second => ?_,
    Item.segments_any sees.tuple fun value => ?_, List.any_nil, Bool.false_or, List.any_map]
  · exact congrArg (List.any _) (funext sees.item)
  · rw [sees.support, List.any_cons, List.any_nil, Bool.or_false]
  · rw [sees.support, List.any_cons, List.any_cons, List.any_nil, Bool.or_false]

theorem keywords (sees : SeesLeaves measure) (arguments : List Expr) :
    measure (keywordsOf arguments) = (arguments.filter isKeywordArgument).any measure := by
  rw [keywordsOf, Item.joined_any sees.absent fun first second => ?_,
    Item.segments_any sees.dict fun value => ?_, List.any_nil, Bool.false_or, List.any_map]
  · refine congrArg (List.any _) (funext fun argument => ?_)
    cases argument with
    | keyword position id value =>
      change measure (.entry (.ofText id) value) = _
      rw [sees.entry, sees.text, Bool.false_or, sees.keyword]
    | _ => exact sees.item _
  · rw [sees.support, List.any_cons, List.any_nil, Bool.or_false]
  · rw [sees.support, List.any_cons, List.any_cons, List.any_nil, Bool.or_false]

/-- The bases and the keywords of a class have between them the leaves of its arguments. -/
theorem arguments (sees : SeesLeaves measure) (arguments : List Expr) :
    (measure (basesOf arguments) || measure (keywordsOf arguments)) = arguments.any measure := by
  rw [sees.bases, sees.keywords]
  induction arguments with
  | nil => rfl
  | cons first rest induction =>
    rw [List.any_cons, ← induction]
    cases isKeyword : isKeywordArgument first <;>
      simp [isKeyword, Bool.or_assoc, Bool.or_left_comm]

end SeesLeaves

theorem contains_namesOfList (items : List Expr) :
    (Expr.namesOfList items).contains name = items.any (·.names.contains name) := by
  induction items with
  | nil => rfl
  | cons first rest induction =>
    rw [Expr.namesOfList_cons, List.contains_append, induction, List.any_cons]

theorem not_arePlain (items : List Expr) : (!Expr.arePlain items) = items.any (!·.isPlain) := by
  induction items with
  | nil => rfl
  | cons first rest induction => rw [Expr.arePlain_cons, Bool.not_and, induction, List.any_cons]

theorem sees_names (user : isReserved name = false) :
    SeesLeaves fun expr => expr.names.contains name where
  support id values := by
    have notSupport : (name == supportModule) = false :=
      beq_eq_false_iff_ne.mpr (ne_of_isReserved user rfl)
    rw [Expr.names_supportCall, List.contains_cons, notSupport, Bool.false_or,
      contains_namesOfList]
  tuple values := contains_namesOfList values
  dict values := contains_namesOfList values
  text _ := rfl
  absent := rfl
  starred _ _ _ := rfl
  keyword _ _ _ := rfl
  entry key value := List.contains_append ..

theorem sees_plain : SeesLeaves fun expr => !expr.isPlain where
  support _ values := not_arePlain values
  tuple values := not_arePlain values
  dict values := not_arePlain values
  text _ := rfl
  absent := rfl
  starred _ _ _ := rfl
  keyword _ _ _ := rfl
  entry _ _ := Bool.not_and ..

/-! ## The body of a class -/

/-- Every expression of a class body stays plain. -/
theorem namespaceVisitor_revises (info : ScopeInfo) :
    Expr.Revises .ofId (fun _ _ => True) (namespaceVisitor info) where
  nil := trivial
  append _ _ := trivial
  arguments _ _ _ _ _ _ reply := by cases reply
  expr expr plain := by
    have same : ∀ _ : String, True := fun _ => trivial
    match expr with
    | .name position id =>
      refine ⟨?_, trivial⟩
      split
      · rfl
      · rw [classLookup]
        split <;> rfl
    | .call (.name position id) [] closing =>
      change Judgement.ofId.Gives _ (if _ then _ else _)
      split
      · exact ⟨rfl, trivial⟩
      · exact Expr.keep_gives same
    | .call (.name ..) (_ :: _) _ => exact Expr.keep_gives same
    | .call (.literal ..) _ _ | .call (.call ..) _ _ | .call (.keyword ..) _ _
    | .call (.starred ..) _ _ | .call (.member ..) _ _ | .call (.list ..) _ _
    | .call (.tuple ..) _ _ | .call (.set ..) _ _ | .call (.dict ..) _ _
    | .call (.entry ..) _ _ | .call (.yield ..) _ _ => exact Expr.keep_gives same
    | .literal .. | .keyword .. | .starred .. | .member .. | .list .. | .tuple .. | .set ..
    | .dict .. | .entry .. | .yield .. => exact Expr.keep_gives same

/-- What the mentions of a class body become. `outside` tells whether the name is kept
out of the namespace of the class. -/
structure Fill (outside : Bool) (name : String) (before after : List Mention)
    (inner inner' : List Outline) : Prop where
  declares : Mentions.declaration? after name = Mentions.declaration? before name
  imports : Mentions.imports after name = Mentions.imports before name
  binds : Mentions.binds after name = true → Mentions.imports before name = true ∨
    outside = true ∨ inner.any (·.nonlocals.contains name) = true
  inner : Outline.AllThroughout (Adapted name) true inner inner'

/-- What a class body becomes. -/
abbrev BodyFills (outside : Bool) (name : String) : List Stmt → List Stmt → Prop :=
  BodyLinked expanded name (Fill outside name)

variable {outside : Bool}

namespace Fill

theorem of_told {before after : List Mention} {loaded loaded' bound bound' : Bool}
    {inner inner' : List Outline} (told : Mentions.Says name before loaded bound)
    (told' : Mentions.Says name after loaded' bound')
    (binds : bound' = true → outside = true ∨ inner.any (·.nonlocals.contains name) = true)
    (all : Outline.AllThroughout (Adapted name) true inner inner') :
    Fill outside name before after inner inner' where
  declares := by rw [told.declares, told'.declares]
  imports := by rw [told.imports, told'.imports]
  binds found := by
    rw [told'.binds] at found
    exact Or.inr (binds found)
  inner := all

theorem loads (before after : List String) :
    Fill outside name (before.map .load) (after.map .load) [] [] :=
  .of_told (.load before) (.load after) (fun bound => by cases bound) rfl

theorem bind {id : String} {info : ScopeInfo} (kept : isOutsideNamespace info id = true) :
    Fill (isOutsideNamespace info name) name [.bind id] [.bind id] [] [] :=
  .of_told (.bind id) (.bind id) (fun bound => Or.inl (of_decide_eq_true bound ▸ kept)) rfl

theorem additive : Additive (Fill outside name) where
  nil := loads [] []
  append first second := by
    refine ⟨?_, ?_, fun bound => ?_, first.inner.append second.inner⟩
    · rw [Mentions.declaration?_append, Mentions.declaration?_append, first.declares,
        second.declares]
    · rw [Mentions.imports_append, Mentions.imports_append, first.imports, second.imports]
    · rw [Mentions.binds_append, Bool.or_eq_true] at bound
      rw [Mentions.imports_append, List.any_append, Bool.or_eq_true, Bool.or_eq_true]
      rcases bound with bound | bound
      · exact (first.binds bound).imp Or.inl (Or.imp id Or.inl)
      · exact (second.binds bound).imp Or.inr (Or.imp id Or.inr)

end Fill

theorem namespaceVisitor_keepsTarget (info : ScopeInfo) (target : Expr) :
    Stmt.KeepsTarget .ofId (namespaceVisitor info) target := by
  cases target with
  | name => exact Or.inr ⟨_, _, rfl, rfl⟩
  | _ => exact Or.inl rfl

theorem namespaceStmt_fills (info : ScopeInfo) {stmt : Stmt}
    (simple : stmt.isSimple = true) (plain : stmt.isPlain expanded = true) :
    BodyFills (isOutsideNamespace info name) name [stmt] [namespaceStmt info stmt] := by
  have revised : Stmt.Revised (fun _ _ => True) stmt
      (Id.run (stmt.reviseSimple (namespaceVisitor info))) :=
    Stmt.reviseSimple_gives (namespaceVisitor_revises info) stmt
      (fun target _ => namespaceVisitor_keepsTarget info target) simple plain
  unfold namespaceStmt
  generalize Id.run (stmt.reviseSimple (namespaceVisitor info)) = below at revised ⊢
  cases revised with
  | expression value => exact .simple value.1 rfl rfl rfl (.loads _ _)
  | assign bound value =>
    cases bound with
    | name position id =>
      change BodyFills _ name _ [if isOutsideNamespace info id then _ else _]
      split
      · rename_i kept
        refine .simple value.1 rfl rfl rfl ?_
        rw [Stmt.mentions_assign, Stmt.mentions_assign]
        exact Fill.additive.append (.loads _ _) (.bind kept)
      · refine .simple (by simp [value.1]) rfl rfl rfl ?_
        rw [Stmt.mentions_assign]
        exact .of_told ((Mentions.Says.load _).append (.bind id)) (.load _) (fun bound => by cases bound) rfl
    | member position id object =>
      refine .simple (by simp [Stmt.isPlain, Stmt.isPlainTarget, object.1, value.1]) rfl rfl rfl ?_
      rw [Stmt.mentions_assign]
      change Fill _ name _ (Stmt.mentions (.assign [_] _)) [] []
      rw [Stmt.mentions_assign]
      exact Fill.additive.append (.loads _ _) (.loads _ _)
  | delete bound =>
    cases bound with
    | name position id =>
      change BodyFills _ name _ [if isOutsideNamespace info id then _ else _]
      split
      · rename_i kept
        refine .simple rfl rfl rfl rfl ?_
        rw [Stmt.mentions_delete]
        exact .bind kept
      · refine .simple rfl rfl rfl rfl ?_
        rw [Stmt.mentions_delete]
        exact .of_told (.bind id) (.load _) (fun bound => by cases bound) rfl
    | member position id object =>
      refine .simple object.1 rfl rfl rfl ?_
      rw [Stmt.mentions_delete]
      change Fill _ name _ (Stmt.mentions (.delete _ [_])) [] []
      rw [Stmt.mentions_delete]
      exact .loads _ _
  | returns resultPlain => exact .simple resultPlain rfl rfl rfl (.loads _ _)
  | raises exceptionPlain => exact .simple exceptionPlain rfl rfl rfl (.loads _ _)
  | branch => exact .simple rfl rfl rfl rfl (.loads [] [])
  | @declare position declaration idents =>
    refine .simple rfl rfl rfl rfl ⟨rfl, rfl, fun bound => ?_, rfl⟩
    simp [Stmt.mentions, Mentions.binds, Mention.binds] at bound
  | importFrom =>
    refine .simple rfl rfl rfl rfl ⟨rfl, rfl, fun bound => Or.inl ?_, rfl⟩
    simp only [Stmt.mentions] at bound ⊢
    split at bound
    · cases bound
    · rename_i some
      rw [if_neg some]
      simpa [Mentions.imports, Mentions.binds, Mention.isImportOf, Mention.binds] using bound

theorem namespacePass_relates (user : isReserved name = false) (info : ScopeInfo) :
    Pass.Relates .ofId expanded (namespacePass info)
      (fun _ => TestLinked (Fill (isOutsideNamespace info name) name))
      (fun _ => BodyFills (isOutsideNamespace info name) name)
      (fun _ => HandlersLinked expanded (Fill (isOutsideNamespace info name) name)) where
  congruence _ := BodyLinked.congruence Fill.additive
  noClasses := rfl
  test _ test plain := by
    have given := Expr.revise_gives (namespaceVisitor_revises info) test plain
    exact ⟨given.1, .loads _ _⟩
  simple _ stmt simple plain := namespaceStmt_fills info simple plain
  function _ next decorators position ident params result body plain _ := by
    have given := Expr.reviseParams_gives (namespaceVisitor_revises info) params
      (Stmt.params_of_isPlain plain)
    have different : ident.name ≠ name :=
      (ne_of_isReserved user (Stmt.reserved_of_isPlain rfl plain)).symm
    change BodyFills _ name _ [.function decorators position ident
      (Id.run (Expr.reviseParams (namespaceVisitor info) params)) result body]
    refine ⟨⟨?_, ?_⟩, rfl⟩
    · rw [Stmt.arePlain_cons,
        Stmt.isPlain_function_congr plain given.1 (Stmt.body_of_isPlain plain)]
      rfl
    · simp only [Stmt.mentionsOfBody, Stmt.mentions, Stmt.outlinesOfBody, Stmt.outlines,
        List.append_nil]
      rw [given.2.1]
      refine .of_told (.functionMentions ..) (.functionMentions ..) ?_ (Adapted.refl_all true _)
      intro bound
      simp only [different, decide_false, Bool.false_or, Bool.and_eq_true] at bound
      right
      rw [List.any_cons, List.any_nil, Bool.or_false]
      exact bound.2

theorem setEntryOf_fills (key : String) {value : Expr} (plain : value.isPlain = true) :
    BodyFills outside name [] [setEntryOf key value] :=
  .added (by simp [setEntryOf, plain]) rfl rfl (.loads [] _)

theorem namespaceBody_fills (qualname : String) {before after : List Stmt}
    (fills : BodyFills outside name before after) :
    BodyFills outside name before (namespaceBody qualname after) := by
  have congruence := @BodyLinked.congruence _ expanded name (@Fill.additive name outside)
  have header := congruence.append
    (@setEntryOf_fills name outside "__module__" (.ofName "__name__") rfl)
    (@setEntryOf_fills name outside "__qualname__" (.ofText qualname) rfl)
  unfold namespaceBody
  split
  · rename_i position raw text rest
    have others : BodyFills outside name before rest :=
      ⟨⟨fills.plain, fills.linked⟩, fills.nonlocals⟩
    exact congruence.append header (congruence.append (setEntryOf_fills "__doc__" rfl) others)
  · exact congruence.append header fills

/-! ## Classes -/

/-- A user's name that is kept out of the namespace of a class is declared in its body. -/
theorem fits_declared {scope : Scope} {outline : Outline}
    (fits : Scope.Fits name scope outline) (isClass : outline.kind = .classScope)
    (noParams : outline.params = []) (user : isReserved name = false)
    (kept : isOutsideNamespace scope.info name = true) :
    (Mentions.declaration? outline.mentions name).isSome = true := by
  obtain ⟨info, children⟩ := scope
  obtain ⟨globals, nonlocals⟩ := fits.1 isClass
  rw [noParams] at globals nonlocals
  simp only [isOutsideNamespace, user, Bool.false_or, Bool.or_eq_true] at kept
  rcases kept with found | found
  · have declared : Mentions.declaration? outline.mentions name = some .global := by
      simpa using globals.symm.trans found
    simp [declared]
  · have declared : Mentions.declaration? outline.mentions name = some .nonlocal := by
      simpa using nonlocals.symm.trans found
    simp [declared]

/-- A definition and its counterpart once classes are functions. -/
structure Expanded (name : String) (inClass : Bool) (before after : Outline) : Prop where
  keeps : Outline.Keeps name inClass before after
  kind : after.kind = .functionScope
  title : if before.kind = .classScope then
      ∃ number, after.name = numberedName ("class_ns_" ++ before.name) number
    else after.name = before.name

theorem Expanded.adapted {inClass : Bool} {before middle after : List Outline}
    (first : Outline.AllThroughout (Expanded name) inClass before middle)
    (second : Outline.AllThroughout (Adapted name) inClass middle after) :
    Outline.AllThroughout (Expanded name) inClass before after := by
  refine Outline.AllThroughout.trans ?_ inClass inClass before middle after id first second
  intro flag lower before middle after weaker expanded adapted inner
  obtain ⟨keeps, kind, same⟩ := adapted.2 expanded.kind
  have asks : middle.asks name = before.asks name :=
    inner.asks fun _ _ _ expanded => expanded.keeps.nonlocals
  refine ⟨⟨expanded.keeps.trans weaker keeps asks, kind, ?_⟩, fun isClass => ?_⟩
  · rw [same]
    exact expanded.title
  · rw [expanded.kind] at isClass
    cases isClass

/-- The function that a class becomes. -/
theorem class_expanded {inClass : Bool} {info : ScopeInfo} {title generated : String}
    {body after middle final : List Stmt} (user : isReserved name = false)
    (numbered : ∃ number, generated = numberedName ("class_ns_" ++ title) number)
    (declared : isOutsideNamespace info name = true →
      (Mentions.declaration? (Stmt.mentionsOfBody body) name).isSome = true)
    (grows : BodyGrows expanded (Expanded name) name true false body after)
    (adapts : Adapts name .outside after middle)
    (fills : BodyFills (isOutsideNamespace info name) name middle final) :
    Outline.AllThroughout (Expanded name) inClass
      [.mk .classScope title [] (Stmt.mentionsOfBody body) (Stmt.topNonlocals body)
        (Stmt.outlinesOfBody body)]
      [.mk .functionScope generated [namespaceParam, cellParam] (Stmt.mentionsOfBody final)
        (Stmt.topNonlocals final) (Stmt.outlinesOfBody final)] := by
  have inner := Expanded.adapted (Expanded.adapted grows.linked.inner adapts.linked.inner)
    fills.linked.inner
  have asks : (Stmt.outlinesOfBody middle).any (·.nonlocals.contains name) =
      (Stmt.outlinesOfBody body).any (·.nonlocals.contains name) :=
    (adapts.linked.inner.asks fun _ _ _ adapted => adapted.1).trans
      (grows.linked.inner.asks fun _ _ _ expanded => expanded.keeps.nonlocals)
  refine ⟨_, [], rfl, ⟨⟨⟨Or.inr ⟨rfl, rfl⟩, ?_, fun _ => rfl, ?_, ?_, ?_, ?_, ?_⟩, rfl, ?_⟩, ?_⟩, rfl⟩
  · have notNamespace : name ≠ namespaceParam := ne_of_isReserved user rfl
    have notCell : name ≠ cellParam := ne_of_isReserved user rfl
    simp [Outline.params, notNamespace, notCell]
  · exact fills.linked.declares.trans (adapts.linked.declares.trans grows.linked.declares)
  · exact fills.linked.imports.trans (adapts.linked.imports.trans grows.linked.imports)
  · exact fills.nonlocals.trans (adapts.nonlocals.trans grows.nonlocals)
  · intro isFunction
    cases isFunction
  · intro _ _ _ bound
    rcases fills.linked.binds bound with imported | kept | asked
    · exact Or.inl ((adapts.linked.imports.trans grows.linked.imports).symm.trans imported)
    · exact Or.inr (Or.inl (declared kept))
    · exact Or.inr (Or.inr (asks.symm.trans asked))
  · simpa [Outline.kind, Outline.name] using numbered
  · have inside : (inClass || decide (ScopeKind.classScope = .classScope)) = true := by simp
    rw [inside]
    exact inner

theorem classDefinition_gives {inClass : Bool} {info : ScopeInfo} {head : ClassHead}
    {body after : List Stmt} (user : isReserved name = false)
    (decoratorsPlain : Expr.arePlain head.decorators = true)
    (basesPlain : Expr.arePlain head.bases = true)
    (declared : isOutsideNamespace info name = true →
      (Mentions.declaration? (Stmt.mentionsOfBody body) name).isSome = true)
    (grows : BodyGrows expanded (Expanded name) name true false body after) :
    Desugar.Gives (fun _ => False)
      (BodyGrows expanded (Expanded name) name inClass false [head.withBody body])
      (classDefinition info head after) := by
  rw [classDefinition]
  refine (Desugar.Gives.fresh_numbered _).bind ?_
  rintro generated ⟨number, numbered⟩
  have reserved : isReserved generated = true := by simp [numbered]
  have adapts := Pass.body_relates (superPass_relates user) .outside after grows.plain false
  generalize Id.run ((superPass.body .outside after).run false) = adapted at adapts ⊢
  have fills := Pass.body_relates (namespacePass_relates user info) () adapted.1 adapts.plain
  have filled := namespaceBody_fills info.qualname fills
  refine (saveDecorators_gives user head.decorators decoratorsPlain).bind fun saved saves => ?_
  refine (Desugar.Gives.note _).bind fun _ _ => .pure ?_
  have told : Mentions.Says name (head.withBody body).mentions
      ((Expr.namesOfList head.decorators).contains name ||
        (Expr.namesOfList head.bases).contains name) (decide (head.ident.name = name)) := by
    have mentions := ((@Mentions.Says.load name (Expr.namesOfList head.decorators)).append
      (.load (Expr.namesOfList head.bases))).append (.bind head.ident.name)
    simp only [Bool.or_false, Bool.false_or] at mentions
    exact mentions
  have plain' : Stmt.isPlain expanded (.function [] head.position
      ⟨head.ident.position, generated⟩ [.plain namespaceParam, .plain cellParam] none
      (namespaceBody info.qualname (Id.run ((namespacePass info).body () adapted.1)))) = true := by
    simp only [Stmt.isPlain, filled.plain, reserved]
    rfl
  refine saves.define user rfl told reserved plain' ?_ ?_ ?_
    (class_expanded user ⟨number, numbered⟩ declared grows adapts filled)
  · have arguments := sees_plain.arguments head.bases
    rw [← not_arePlain, basesPlain, Bool.not_true, Bool.or_eq_false_iff] at arguments
    simp only [Bool.not_eq_false'] at arguments
    simp [arguments]
  · have arguments := (sees_names user).arguments head.bases
    have notGenerated : name ≠ generated := ne_of_isReserved user reserved
    rw [(sees_names user).support, contains_namesOfList, ← arguments]
    simp [notGenerated, Expr.namesOfParams, Param.plain, Param.default, Expr.namesOfOption]
  · intro asked
    rw [filled.nonlocals, adapts.nonlocals, grows.nonlocals] at asked
    rw [ClassHead.withBody, Stmt.outlines, List.any_cons, List.any_nil, Bool.or_false]
    exact asked

theorem classPass_descends : Descends classPass :=
  ⟨fun _ => rfl, fun _ _ => rfl, fun _ _ => rfl, fun _ _ _ => rfl, fun _ _ => rfl⟩

theorem classPass_leaves (user : isReserved name = false) :
    Leaves classPass renamed expanded (Expanded name) name where
  function inClass around opened next head body after scopes plain grows := by
    refine .bind (.leave opened) ?_
    rintro _ _ rfl
    refine .pure ⟨rfl, .function ?_ grows.nonlocals (fun _ _ => rfl) ?_⟩
    · simp only [FunctionHead.withBody, Stmt.isPlain, Bool.and_eq_true] at plain ⊢
      exact ⟨plain.1, grows.plain⟩
    · refine ⟨_, [], rfl, ⟨⟨BodyGrows.function_keeps grows _ _ (by simp), rfl, rfl⟩, ?_⟩, rfl⟩
      have same : (inClass || decide (ScopeKind.functionScope = .classScope)) = inClass := by simp
      rw [same]
      exact grows.linked.inner
  classDef inClass around opened head body after scopes outline plain outlined fits grows := by
    have parts : (Expr.arePlain head.decorators = true ∧ Expr.arePlain head.bases = true) ∧
        Stmt.arePlain renamed body = true := by
      simpa [ClassHead.withBody, Stmt.isPlain] using plain
    refine .bind (.leave opened) ?_
    rintro _ _ rfl
    refine .lift (classDefinition_gives user parts.1.1 parts.1.2 ?_ grows) fun _ grows => ⟨rfl, grows⟩
    cases outlined
    exact fits_declared fits rfl rfl user

end Definition
end Unsugar
