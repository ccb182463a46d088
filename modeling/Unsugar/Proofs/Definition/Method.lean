import Unsugar.Proofs.Definition.Descent
import Unsugar.Proofs.Tree.Revision

/-! Methods that refer to their class. A method gets to its class through a parameter
of the function around it; otherwise it mentions what it mentioned, its own first
parameter aside. -/

namespace Unsugar
namespace Definition

variable {name : String}

/-- A function and its counterpart once methods get to their class through a
parameter. -/
def Adapted (name : String) (inClass : Bool) (before after : Outline) : Prop :=
  after.nonlocals.contains name = before.nonlocals.contains name ∧
  (before.kind = .functionScope →
    Outline.Keeps name inClass before after ∧ after.kind = .functionScope ∧
      after.name = before.name)

mutual

theorem Adapted.refl_throughout : ∀ (inClass : Bool) (outline : Outline),
    outline.Throughout (Adapted name) inClass outline
  | inClass, .mk kind title params mentions nonlocals inner => by
    refine ⟨⟨rfl, fun isFunction => ⟨⟨Or.inl rfl, rfl, ?_, rfl, rfl, rfl, ?_, ?_⟩, isFunction, rfl⟩⟩,
      Adapted.refl_all _ inner⟩
    · intro isClass
      rw [isFunction] at isClass
      cases isClass
    · exact fun _ _ => ⟨fun _ => rfl, id, Or.inl⟩
    · intro isClass
      rw [isFunction] at isClass
      cases isClass

theorem Adapted.refl_all : ∀ (inClass : Bool) (outlines : List Outline),
    Outline.AllThroughout (Adapted name) inClass outlines outlines
  | _, [] => rfl
  | inClass, first :: rest =>
    ⟨first, rest, rfl, Adapted.refl_throughout inClass first, Adapted.refl_all inClass rest⟩

end

/-! ## Expressions -/

/-- Names that a method loads, before and after. -/
def AsLoaded (name : String) (self : Option String) (before after : List String) : Prop :=
  name ≠ "__class__" → self ≠ some name → after.contains name = before.contains name

theorem superVisitor_revises (user : isReserved name = false) (self : Option String) :
    Expr.Revises (.ofState Bool) (AsLoaded name self) (superVisitor self) where
  nil _ _ := rfl
  append first second free other := by
    rw [List.contains_append, List.contains_append, first free other, second free other]
  arguments _ _ _ _ _ _ reply := by cases reply
  expr expr plain := by
    have notSupport : name ≠ supportModule := ne_of_isReserved user rfl
    have notCell : name ≠ cellParam := ne_of_isReserved user rfl
    have same : ∀ id, AsLoaded name self [id] [id] := fun _ _ _ => rfl
    match expr with
    | .name position id =>
      change (Judgement.ofState Bool).Gives _ (if id == "__class__" then _ else _)
      split
      · rename_i isClass
        have isClass : id = "__class__" := by simpa using isClass
        refine fun _ => ⟨rfl, fun free _ => ?_⟩
        have different : ¬ name = id := by
          rw [isClass]
          exact free
        simp [cellContents, Expr.attributeOf, Expr.names, different, notCell]
      · exact Expr.keep_gives same
    | .call callee [] closing =>
      change (Judgement.ofState Bool).Gives _ (if callee.isName "super" then _ else _)
      split
      · rename_i isSuper
        obtain ⟨start, rfl⟩ := Expr.eq_name_of_isName isSuper
        have notSelf : ∀ self', self = some self' → self ≠ some name → ¬ name = self' := by
          rintro self' same other rfl
          exact other same
        cases self with
        | none => exact fun _ => ⟨rfl, fun _ _ => by simp [Expr.names, notSupport]⟩
        | some self' =>
          refine fun _ => ⟨rfl, fun _ other => ?_⟩
          simp [Expr.names, notSupport, notCell, notSelf self' rfl other]
      · exact Expr.keep_gives same
    | .call _ (_ :: _) _ => exact Expr.keep_gives same
    | .literal .. | .keyword .. | .starred .. | .member .. | .list .. | .tuple .. | .set ..
    | .dict .. | .entry .. | .yield .. => exact Expr.keep_gives same

/-! ## Statements -/

/-- The shape of a module without classes. -/
abbrev expanded : Shape := ⟨true, false⟩

/-- Whether a name is the first parameter of the method around a statement. -/
def MethodPlace.isSelf (name : String) : MethodPlace → Bool
  | .outside => false
  | .inside self => decide (self = some name)

/-- What a body of a class becomes, and what a test in it becomes. -/
abbrev Adapts (name : String) (place : MethodPlace) : List Stmt → List Stmt → Prop :=
  BodyGrows expanded (Adapted name) name true (place.isSelf name)

abbrev TestAdapts (name : String) (place : MethodPlace) : Expr → Expr → Prop :=
  TestLinked (Grow (Adapted name) name true (place.isSelf name))

theorem AsLoaded.loading {self : Option String} {before after : List String}
    (same : AsLoaded name self before after) :
    Grow (Adapted name) name true (MethodPlace.isSelf name (.inside self)) (before.map .load)
      (after.map .load) [] [] :=
  .loading fun free notParam => same (free rfl) (of_decide_eq_false notParam)

theorem simple_adapts {self : Option String} {stmt stmt' : Stmt}
    (revised : Stmt.Revised (AsLoaded name self) stmt stmt') :
    Adapts name (.inside self) [stmt] [stmt'] := by
  have target : ∀ {target target'}, Stmt.TargetRevised (AsLoaded name self) target target' →
      Stmt.isPlainTarget target' = true ∧ Grow (Adapted name) name true
        (MethodPlace.isSelf name (.inside self)) (Stmt.targetMentions target)
        (Stmt.targetMentions target') [] [] := by
    rintro _ _ (_ | ⟨_, _, object⟩)
    · exact ⟨rfl, .same _⟩
    · exact ⟨object.1, object.2.loading⟩
  cases revised with
  | expression value => exact .simple value.1 rfl rfl rfl value.2.loading
  | assign bound value =>
    refine .simple (by simp [Stmt.isPlain, value.1, (target bound).1]) rfl rfl rfl ?_
    rw [Stmt.mentions_assign, Stmt.mentions_assign]
    exact value.2.loading.append (target bound).2
  | delete bound =>
    refine .simple (target bound).1 rfl rfl rfl ?_
    rw [Stmt.mentions_delete, Stmt.mentions_delete]
    exact (target bound).2
  | returns plain same => exact .simple plain rfl rfl rfl same.loading
  | raises plain same => exact .simple plain rfl rfl rfl same.loading
  | branch => exact BodyGrows.unchanged rfl rfl
  | declare => exact BodyGrows.unchanged rfl rfl
  | importFrom => exact BodyGrows.unchanged rfl rfl

theorem selfName_mem : ∀ {params : List Param}, selfName params = some name →
    (Collector.paramNames params).contains name = true
  | .mk .normal _ (some ident) _ _ :: rest, named => by
    have same : ident.name = name := by simpa [selfName] using named
    simp [Collector.paramNames, Param.ident, same]

/-- A function whose body, and the defaults of whose parameters, have counterparts. -/
theorem function_adapts {isParam around : Bool} {decorators : List Expr} {position : Position}
    {ident : Ident} {params params' : List Param} {result : Option Expr} {body after : List Stmt}
    (plain : Stmt.isPlain expanded (.function decorators position ident params result body) = true)
    (paramsPlain : params'.all Param.isPlain = true)
    (sameParams : Collector.paramNames params' = Collector.paramNames params)
    (defaults : name ≠ "__class__" → around = false →
      (Expr.namesOfParams params').contains name = (Expr.namesOfParams params).contains name)
    (grows : BodyGrows expanded (Adapted name) name true isParam body after)
    (inParams : isParam = true → (Collector.paramNames params).contains name = true) :
    BodyGrows expanded (Adapted name) name true around
      [.function decorators position ident params result body]
      [.function decorators position ident params' result after] := by
  refine .function (Stmt.isPlain_function_congr plain paramsPlain grows.plain) grows.nonlocals
    (fun free => defaults (free rfl)) ?_
  rw [Stmt.outlines, Stmt.outlines, sameParams]
  exact ⟨_, [], rfl, ⟨⟨grows.nonlocals, fun _ =>
    ⟨BodyGrows.function_keeps grows _ _ inParams, rfl, rfl⟩⟩, grows.linked.inner⟩, rfl⟩

theorem deleteName_gives (user : isReserved name = false) (self : Option String)
    (position start : Position) (id : String) :
    (Judgement.ofState Bool).Gives (Adapts name (.inside self) [.delete position [.name start id]])
      (superPass.simple (.inside self) (.delete position [.name start id])) := by
  change (Judgement.ofState Bool).Gives _ (if id == "__class__" then _ else _)
  split
  · rename_i isClass
    have isClass : id = "__class__" := by simpa using isClass
    have notCell : name ≠ cellParam := ne_of_isReserved user rfl
    have before := @Mentions.Says.bind name id
    have after := @Mentions.Says.load name [cellParam]
    refine fun _ => .simple rfl rfl rfl rfl ⟨rfl, rfl, fun _ _ => ?_, fun free => ?_, rfl⟩
    · refine after.loads.trans ?_
      rw [Stmt.mentions_delete, Stmt.targetMentions, before.loads]
      simpa using notCell
    have different : ¬ id = name := by
      rw [isClass]
      exact (free rfl).symm
    refine ⟨fun bound => ?_, fun bound => ?_⟩
    · rw [Stmt.mentions_delete, Stmt.targetMentions, before.binds] at bound
      exact absurd (of_decide_eq_true bound) different
    · exact absurd (after.binds.symm.trans bound) Bool.false_ne_true
  · exact fun _ => BodyGrows.unchanged rfl rfl

theorem simple_gives (user : isReserved name = false) (self : Option String) (stmt : Stmt)
    (simple : stmt.isSimple = true) (plain : stmt.isPlain expanded = true) :
    (Judgement.ofState Bool).Gives (Adapts name (.inside self) [stmt])
      (superPass.simple (.inside self) stmt) := by
  have revised := Stmt.reviseSimple_gives (superVisitor_revises user self) stmt
    (fun _ _ _ => Or.inl rfl) simple plain
  have other : (Judgement.ofState Bool).Gives (Adapts name (.inside self) [stmt])
      (do return [← stmt.reviseSimple (superVisitor self)]) :=
    fun state => simple_adapts (revised state)
  cases stmt with
  | delete position targets =>
    obtain ⟨target, rfl, bound⟩ := Stmt.delete_of_isPlain plain
    cases target with
    | name start id => exact deleteName_gives user self position start id
    | member => exact other
    | _ => cases bound
  | _ => exact other

theorem superPass_relates (user : isReserved name = false) :
    Pass.Relates (.ofState Bool) expanded superPass (TestAdapts name) (Adapts name)
      (fun place => HandlersLinked expanded (Grow (Adapted name) name true (place.isSelf name))) where
  congruence place := BodyGrows.congruence
  noClasses := rfl
  test place test plain := by
    cases place with
    | outside => exact fun _ => ⟨plain, .same _⟩
    | inside self =>
      intro state
      have given := Expr.revise_gives (superVisitor_revises user self) test plain state
      exact ⟨given.1, given.2.loading⟩
  simple place stmt simple plain := by
    cases place with
    | outside => exact fun _ => BodyGrows.unchanged plain (Stmt.outlines_of_isSimple simple)
    | inside self => exact simple_gives user self stmt simple plain
  function place next decorators position ident params result body plain below := by
    cases place with
    | outside =>
      intro state
      exact function_adapts plain (Stmt.params_of_isPlain plain) rfl (fun _ _ => rfl)
        (below (.inside (selfName params)) state)
        fun isSelf => selfName_mem (of_decide_eq_true isSelf)
    | inside self =>
      intro state
      have given := Expr.reviseParams_gives (superVisitor_revises user self) params
        (Stmt.params_of_isPlain plain) state
      have untouched : BodyGrows expanded (Adapted name) name true false body body :=
        ⟨⟨Stmt.body_of_isPlain plain, rfl, rfl, fun _ _ => rfl, fun _ => ⟨id, Or.inl⟩,
          Adapted.refl_all true _⟩, rfl⟩
      exact function_adapts plain given.1 given.2.1
        (fun free notParam => given.2.2 free (of_decide_eq_false notParam)) untouched (by simp)

end Definition
end Unsugar
