import Unsugar.Proofs.Fresh
import Unsugar.Proofs.Scope.Correspondence
import Unsugar.Proofs.Tree.Revision

/-! How a body may change while its definitions are made explicit, as far as one name
is concerned: loads and declarations stay, and a binding may only be added for a name
that a definition in the body declares nonlocal. -/

namespace Unsugar

/-! ## Bodies -/

/-- A relation of mentions and definitions that can be put together from parts. -/
structure Additive
    (link : List Mention → List Mention → List Outline → List Outline → Prop) : Prop where
  nil : link [] [] [] []
  append : ∀ {before before' after after' inner inner' others others'},
    link before after inner inner' → link before' after' others others' →
    link (before ++ before') (after ++ after') (inner ++ others) (inner' ++ others')

variable {link : List Mention → List Mention → List Outline → List Outline → Prop}
  {shape : Shape} {name : String}

/-- An expression that is evaluated, and its counterpart. -/
structure TestLinked (link : List Mention → List Mention → List Outline → List Outline → Prop)
    (before after : Expr) : Prop where
  plain : after.isPlain = true
  linked : link (Stmt.loads before) (Stmt.loads after) [] []

/-- A body and its counterpart: what they mention and the definitions in them are
related. -/
structure BodyRelated (shape : Shape)
    (link : List Mention → List Mention → List Outline → List Outline → Prop)
    (before after : List Stmt) : Prop where
  plain : Stmt.arePlain shape after = true
  linked : link (Stmt.mentionsOfBody before) (Stmt.mentionsOfBody after)
    (Stmt.outlinesOfBody before) (Stmt.outlinesOfBody after)

/-- Related bodies that declare a name nonlocal alike. -/
structure BodyLinked (shape : Shape) (name : String)
    (link : List Mention → List Mention → List Outline → List Outline → Prop)
    (before after : List Stmt) : Prop extends BodyRelated shape link before after where
  nonlocals : (Stmt.topNonlocals after).contains name = (Stmt.topNonlocals before).contains name

structure HandlersLinked (shape : Shape)
    (link : List Mention → List Mention → List Outline → List Outline → Prop)
    (before after : List Handler) : Prop where
  plain : Stmt.areHandlersPlain shape after = true
  linked : link (Stmt.mentionsOfHandlers before) (Stmt.mentionsOfHandlers after)
    (Stmt.outlinesOfHandlers before) (Stmt.outlinesOfHandlers after)

namespace BodyRelated

/-- Bodies are related as their parts are. -/
theorem congruence (additive : Additive link) :
    Pass.Congruence (TestLinked link) (BodyRelated shape link) (HandlersLinked shape link) where
  nil := ⟨rfl, additive.nil⟩
  append first second := by
    refine ⟨by simp [first.plain, second.plain], ?_⟩
    simp only [Stmt.mentionsOfBody_append, Stmt.outlinesOfBody_append]
    exact additive.append first.linked second.linked
  conditional test body orelse := by
    refine ⟨by simp [Stmt.isPlain, test.plain, body.plain, orelse.plain], ?_⟩
    simp only [Stmt.mentionsOfBody, Stmt.outlinesOfBody, Stmt.mentions, Stmt.outlines,
      List.append_nil]
    exact additive.append (additive.append test.linked body.linked) orelse.linked
  whileLoop test body orelse := by
    refine ⟨by simp [Stmt.isPlain, test.plain, body.plain, orelse.plain], ?_⟩
    simp only [Stmt.mentionsOfBody, Stmt.outlinesOfBody, Stmt.mentions, Stmt.outlines,
      List.append_nil]
    exact additive.append (additive.append test.linked body.linked) orelse.linked
  tryBlock body handlers orelse final := by
    refine ⟨?_, ?_⟩
    · simp [Stmt.isPlain, body.plain, handlers.plain, orelse.plain, final.plain]
    · simp only [Stmt.mentionsOfBody, Stmt.outlinesOfBody, Stmt.mentions, Stmt.outlines,
        List.append_nil]
      exact additive.append (additive.append (additive.append body.linked handlers.linked)
        orelse.linked) final.linked
  handlersNil := ⟨rfl, additive.nil⟩
  handlersCons body rest :=
    ⟨by simp [Stmt.areHandlersPlain, body.plain, rest.plain],
      additive.append body.linked rest.linked⟩

/-- Statements without definitions that correspond to each other. -/
theorem simple {stmt stmt' : Stmt} (plain : stmt'.isPlain shape = true)
    (noDefinitions : stmt.outlines = []) (noDefinitions' : stmt'.outlines = [])
    (linked : link stmt.mentions stmt'.mentions [] []) :
    BodyRelated shape link [stmt] [stmt'] where
  plain := by simp [plain]
  linked := by
    simp only [Stmt.mentionsOfBody, Stmt.outlinesOfBody, noDefinitions, noDefinitions',
      List.append_nil]
    exact linked

theorem orPass {before after : List Stmt} (related : BodyRelated shape link before after) :
    BodyRelated shape link before (Stmt.orPass after) := by
  unfold Stmt.orPass
  split
  · rename_i empty
    rw [List.isEmpty_iff.mp empty] at related
    exact ⟨rfl, related.linked⟩
  · exact related

end BodyRelated

namespace BodyLinked

/-- Bodies are linked as their parts are. -/
theorem congruence (additive : Additive link) :
    Pass.Congruence (TestLinked link) (BodyLinked shape name link) (HandlersLinked shape link) where
  nil := ⟨(BodyRelated.congruence additive).nil, rfl⟩
  append first second := by
    refine ⟨(BodyRelated.congruence additive).append first.toBodyRelated second.toBodyRelated, ?_⟩
    rw [Stmt.topNonlocals_append, Stmt.topNonlocals_append, List.contains_append,
      List.contains_append, first.nonlocals, second.nonlocals]
  conditional test body orelse :=
    ⟨(BodyRelated.congruence additive).conditional test body.toBodyRelated orelse.toBodyRelated,
      rfl⟩
  whileLoop test body orelse :=
    ⟨(BodyRelated.congruence additive).whileLoop test body.toBodyRelated orelse.toBodyRelated, rfl⟩
  tryBlock body handlers orelse final :=
    ⟨(BodyRelated.congruence additive).tryBlock body.toBodyRelated handlers orelse.toBodyRelated
      final.toBodyRelated, rfl⟩
  handlersNil := (BodyRelated.congruence additive).handlersNil
  handlersCons body rest := (BodyRelated.congruence additive).handlersCons body.toBodyRelated rest

/-- Statements without definitions that correspond to each other. -/
theorem simple {stmt stmt' : Stmt} (plain : stmt'.isPlain shape = true)
    (nonlocals : Stmt.topNonlocals [stmt'] = Stmt.topNonlocals [stmt])
    (noDefinitions : stmt.outlines = []) (noDefinitions' : stmt'.outlines = [])
    (linked : link stmt.mentions stmt'.mentions [] []) :
    BodyLinked shape name link [stmt] [stmt'] :=
  ⟨.simple plain noDefinitions noDefinitions' linked, by rw [nonlocals]⟩

theorem orPass {before after : List Stmt} (links : BodyLinked shape name link before after) :
    BodyLinked shape name link before (Stmt.orPass after) := by
  refine ⟨links.toBodyRelated.orPass, ?_⟩
  unfold Stmt.orPass
  split
  · rename_i empty
    rw [← links.nonlocals, List.isEmpty_iff.mp empty]
    rfl
  · exact links.nonlocals

/-- A statement without a counterpart. -/
theorem added {stmt : Stmt} (plain : stmt.isPlain shape = true)
    (nonlocals : Stmt.topNonlocals [stmt] = []) (noDefinitions : stmt.outlines = [])
    (linked : link [] stmt.mentions [] []) : BodyLinked shape name link [] [stmt] where
  plain := by simp [plain]
  nonlocals := by rw [nonlocals, Stmt.topNonlocals, List.flatMap_nil]
  linked := by
    simp only [Stmt.mentionsOfBody, Stmt.outlinesOfBody, noDefinitions, List.append_nil]
    exact linked

end BodyLinked

/-! ## Mentions -/

/-- Mentions of a name, and definitions, that correspond to others. Inside a class the
name `__class__` is free to change, and a parameter may be loaded more often. -/
structure Grow (relation : Bool → Outline → Outline → Prop) (name : String)
    (inClass isParam : Bool) (before after : List Mention) (inner inner' : List Outline) :
    Prop where
  declares : Mentions.declaration? after name = Mentions.declaration? before name
  imports : Mentions.imports after name = Mentions.imports before name
  loads : (inClass = true → name ≠ "__class__") → isParam = false →
    Mentions.loads after name = Mentions.loads before name
  binds : (inClass = true → name ≠ "__class__") →
    (Mentions.binds before name = true → Mentions.binds after name = true) ∧
    (Mentions.binds after name = true →
      Mentions.binds before name = true ∨ inner.any (·.nonlocals.contains name) = true)
  inner : Outline.AllThroughout relation inClass inner inner'

namespace Grow

variable {relation : Bool → Outline → Outline → Prop} {name : String} {inClass isParam : Bool}

theorem same (mentions : List Mention) :
    Grow relation name inClass isParam mentions mentions [] [] :=
  ⟨rfl, rfl, fun _ _ => rfl, fun _ => ⟨id, Or.inl⟩, rfl⟩

theorem append {before after before' after' : List Mention}
    {inner inner' others others' : List Outline}
    (first : Grow relation name inClass isParam before after inner inner')
    (second : Grow relation name inClass isParam before' after' others others') :
    Grow relation name inClass isParam (before ++ before') (after ++ after') (inner ++ others)
      (inner' ++ others') where
  declares := by rw [Mentions.declaration?_append, Mentions.declaration?_append, first.declares,
    second.declares]
  imports := by rw [Mentions.imports_append, Mentions.imports_append, first.imports,
    second.imports]
  loads free notParam := by
    rw [Mentions.loads_append, Mentions.loads_append, first.loads free notParam,
      second.loads free notParam]
  binds free := by
    obtain ⟨grows, added⟩ := first.binds free
    obtain ⟨grows', added'⟩ := second.binds free
    simp only [Mentions.binds_append, Bool.or_eq_true, List.any_append]
    refine ⟨Or.imp grows grows', fun bound => ?_⟩
    rcases bound with bound | bound
    · exact (added bound).imp Or.inl Or.inl
    · exact (added' bound).imp Or.inr Or.inr
  inner := first.inner.append second.inner

theorem additive : Additive (Grow relation name inClass isParam) :=
  ⟨.same [], .append⟩

end Grow

namespace Mentions

variable {name : String}

/-- What mentions that are no imports or declarations say about a name. -/
structure Says (name : String) (mentions : List Mention) (loaded bound : Bool) : Prop where
  loads : Mentions.loads mentions name = loaded
  binds : Mentions.binds mentions name = bound
  imports : Mentions.imports mentions name = false
  declares : Mentions.declaration? mentions name = none

namespace Says

theorem nil : Says name [] false false :=
  ⟨rfl, rfl, rfl, rfl⟩

theorem append {first second : List Mention} {loaded loaded' bound bound' : Bool}
    (before : Says name first loaded bound) (after : Says name second loaded' bound') :
    Says name (first ++ second) (loaded || loaded') (bound || bound') where
  loads := by rw [loads_append, before.loads, after.loads]
  binds := by rw [binds_append, before.binds, after.binds]
  imports := by rw [imports_append, before.imports, after.imports, Bool.or_false]
  declares := by rw [declaration?_append, before.declares, after.declares, Option.or_none]

theorem bind (other : String) : Says name [.bind other] false (decide (other = name)) :=
  ⟨rfl, by simp [Mention.binds], rfl, rfl⟩

theorem function (other : String) : Says name [.function other] false (decide (other = name)) :=
  ⟨rfl, by simp [Mention.binds], rfl, rfl⟩

theorem load (names : List String) : Says name (names.map .load) (names.contains name) false := by
  induction names with
  | nil => exact nil
  | cons first rest induction =>
    have here : Says name [.load first] (name == first) false := by
      refine ⟨?_, rfl, rfl, rfl⟩
      rw [loads_singleton, Mention.isLoadOf, Bool.beq_eq_decide_eq]
      exact decide_eq_decide.mpr eq_comm
    exact here.append induction

theorem lent (names : List String) : Says name (names.map .lent) false (names.contains name) := by
  induction names with
  | nil => exact nil
  | cons first rest induction =>
    have here : Says name [.lent first] false (name == first) := by
      refine ⟨rfl, ?_, rfl, rfl⟩
      rw [binds_singleton, Mention.binds, Bool.beq_eq_decide_eq]
      exact decide_eq_decide.mpr eq_comm
    exact here.append induction

theorem bind_reserved {other : String} (user : isReserved name = false)
    (reserved : isReserved other = true) : Says name [.bind other] false false := by
  have different : other ≠ name := (ne_of_isReserved user reserved).symm
  simpa [different] using @bind name other

theorem functionMentions (decorators : List Expr) (title : String) (params : List Param)
    (body : List Stmt) :
    Says name (Stmt.functionMentions decorators title params body)
      ((Expr.namesOfList decorators).contains name || (Expr.namesOfParams params).contains name)
      (decide (title = name) ||
        beginsWithText "_dp_" title && (Stmt.topNonlocals body).contains name) := by
  have lends : Says name
      (if beginsWithText "_dp_" title then (Stmt.topNonlocals body).map .lent else []) false
      (beginsWithText "_dp_" title && (Stmt.topNonlocals body).contains name) := by
    split
    · rename_i begins
      rw [begins, Bool.true_and]
      exact lent (Stmt.topNonlocals body)
    · rename_i begins
      rw [Bool.eq_false_iff.mpr begins, Bool.false_and]
      exact nil
  have all := ((load (Expr.namesOfList decorators)).append
    (load (Expr.namesOfParams params))).append ((function title).append lends)
  simp only [Bool.or_false, Bool.false_or] at all
  exact all

end Says

end Mentions

namespace Grow

variable {relation : Bool → Outline → Outline → Prop} {name : String} {inClass isParam : Bool}

theorem of_told {before after : List Mention} {loaded loaded' bound bound' : Bool}
    {inner inner' : List Outline} (saysBefore : Mentions.Says name before loaded bound)
    (saysAfter : Mentions.Says name after loaded' bound')
    (loads : (inClass = true → name ≠ "__class__") → isParam = false → loaded' = loaded)
    (grows : bound = true → bound' = true)
    (added : bound' = true → bound = true ∨ inner.any (·.nonlocals.contains name) = true)
    (all : Outline.AllThroughout relation inClass inner inner') :
    Grow relation name inClass isParam before after inner inner' where
  declares := by rw [saysBefore.declares, saysAfter.declares]
  imports := by rw [saysBefore.imports, saysAfter.imports]
  loads free notParam := by rw [saysBefore.loads, saysAfter.loads, loads free notParam]
  binds _ := by
    rw [saysBefore.binds, saysAfter.binds]
    exact ⟨grows, added⟩
  inner := all

/-- Loads of the same names, but for the name in question where it is free to
change. -/
theorem loading {before after : List String}
    (same : (inClass = true → name ≠ "__class__") → isParam = false →
      after.contains name = before.contains name) :
    Grow relation name inClass isParam (before.map .load) (after.map .load) [] [] :=
  of_told (.load before) (.load after) same id Or.inl rfl

end Grow

/-- A body that grows into another one. -/
abbrev BodyGrows (shape : Shape) (relation : Bool → Outline → Outline → Prop) (name : String)
    (inClass isParam : Bool) : List Stmt → List Stmt → Prop :=
  BodyLinked shape name (Grow relation name inClass isParam)

namespace BodyGrows

variable {relation : Bool → Outline → Outline → Prop} {inClass isParam : Bool}

theorem congruence : Pass.Congruence (TestLinked (Grow relation name inClass isParam))
    (BodyGrows shape relation name inClass isParam)
    (HandlersLinked shape (Grow relation name inClass isParam)) :=
  BodyLinked.congruence Grow.additive

/-- A function that keeps its name. -/
theorem function {decorators : List Expr} {position : Position} {ident : Ident}
    {params params' : List Param} {result : Option Expr} {body after : List Stmt}
    (plain : Stmt.isPlain shape (.function decorators position ident params' result after) = true)
    (nonlocals : (Stmt.topNonlocals after).contains name = (Stmt.topNonlocals body).contains name)
    (defaults : (inClass = true → name ≠ "__class__") → isParam = false →
      (Expr.namesOfParams params').contains name = (Expr.namesOfParams params).contains name)
    (all : Outline.AllThroughout relation inClass
      (Stmt.outlines (.function decorators position ident params result body))
      (Stmt.outlines (.function decorators position ident params' result after))) :
    BodyGrows shape relation name inClass isParam
      [.function decorators position ident params result body]
      [.function decorators position ident params' result after] := by
  refine ⟨⟨by simp [plain], ?_⟩, rfl⟩
  simp only [Stmt.mentionsOfBody, Stmt.mentions, Stmt.outlinesOfBody, List.append_nil]
  refine .of_told (.functionMentions ..) (.functionMentions ..) ?_ ?_ ?_ all
  · intro free notParam
    rw [defaults free notParam]
  · rw [nonlocals]
    exact id
  · rw [nonlocals]
    exact Or.inl

/-- A function whose body has a counterpart, as a definition. -/
theorem function_keeps {body after : List Stmt} {params : List String}
    (grows : BodyGrows shape relation name inClass isParam body after) (title title' : String)
    (inParams : isParam = true → params.contains name = true) :
    Outline.Keeps name inClass
      (.mk .functionScope title params (Stmt.mentionsOfBody body) (Stmt.topNonlocals body)
        (Stmt.outlinesOfBody body))
      (.mk .functionScope title' params (Stmt.mentionsOfBody after) (Stmt.topNonlocals after)
        (Stmt.outlinesOfBody after)) where
  kind := Or.inl rfl
  params := rfl
  noParams isClass := by cases isClass
  declares := grows.linked.declares
  imports := grows.linked.imports
  nonlocals := grows.nonlocals
  function _ free := by
    refine ⟨fun noParam => grows.linked.loads free ?_, grows.linked.binds free⟩
    cases isParam with
    | false => rfl
    | true => exact absurd (noParam.symm.trans (inParams rfl)) Bool.false_ne_true
  expanded isClass := by cases isClass

/-- A class whose body has a counterpart, as a definition. -/
theorem class_keeps {body after : List Stmt}
    (grows : BodyGrows shape relation name inClass isParam body after) (flag : Bool)
    (title : String) :
    Outline.Keeps name flag
      (.mk .classScope title [] (Stmt.mentionsOfBody body) (Stmt.topNonlocals body)
        (Stmt.outlinesOfBody body))
      (.mk .classScope title [] (Stmt.mentionsOfBody after) (Stmt.topNonlocals after)
        (Stmt.outlinesOfBody after)) where
  kind := Or.inl rfl
  params := rfl
  noParams _ := rfl
  declares := grows.linked.declares
  imports := grows.linked.imports
  nonlocals := grows.nonlocals
  function isFunction := by cases isFunction
  expanded _ isFunction := by cases isFunction

/-- A statement that has no definitions in it. -/
theorem unchanged {stmt : Stmt} (plain : stmt.isPlain shape = true) (simple : stmt.outlines = []) :
    BodyGrows shape relation name inClass isParam [stmt] [stmt] :=
  .simple plain rfl simple simple (.same _)

end BodyGrows
end Unsugar
