import Unsugar.Proofs.Scope.Growth

/-! Names that no function binds. Looking such a name up from anywhere in a module gets to
the module, and so it does once the definitions have become functions, unless one of them
declares or imports the name. -/

namespace Unsugar

/-! ## Definitions without a name -/

namespace Outline

mutual

/-- What holds of a definition and of all definitions in it. -/
def Everywhere (holds : Outline → Prop) : Outline → Prop
  | mk kind name params mentions nonlocals inner =>
    holds (mk kind name params mentions nonlocals inner) ∧ AllEverywhere holds inner

def AllEverywhere (holds : Outline → Prop) : List Outline → Prop
  | [] => True
  | first :: rest => Everywhere holds first ∧ AllEverywhere holds rest

end

theorem allEverywhere_append {holds : Outline → Prop} {first second : List Outline} :
    AllEverywhere holds (first ++ second) ↔
      AllEverywhere holds first ∧ AllEverywhere holds second := by
  induction first with
  | nil => exact (and_iff_right trivial).symm
  | cons outline rest induction =>
    rw [List.cons_append, AllEverywhere, AllEverywhere, induction, and_assoc]

/-- Whether the body of a definition leaves a name to the scopes around it. -/
def Unbound (name : String) (outline : Outline) : Prop :=
  outline.binding? name = none

theorem unbound_iff {name : String} {outline : Outline} : outline.Unbound name ↔
    outline.params.contains name = false ∧
      Mentions.declaration? outline.mentions name = none ∧
      Mentions.binds outline.mentions name = false := by
  unfold Unbound binding? Binding.among
  cases outline.params.contains name with
  | true => simp
  | false => cases Mentions.declaration? outline.mentions name <;> simp

end Outline

theorem Stmt.not_topNonlocals_of_undeclared {name : String} {body : List Stmt}
    (undeclared : Mentions.declaration? (mentionsOfBody body) name = none) :
    (topNonlocals body).contains name = false := by
  induction body with
  | nil => rfl
  | cons first rest induction =>
    rw [mentionsOfBody, Mentions.declaration?_append, Option.or_eq_none_iff] at undeclared
    have below := induction undeclared.2
    cases first with
    | declare position declaration idents =>
      cases declaration with
      | «global» => exact below
      | «nonlocal» =>
        have here : ∀ ident ∈ idents, ident.name ≠ name := by
          simpa [mentions, Mentions.declaration?, Mention.declaration?] using undeclared.1
        simp only [topNonlocals, List.flatMap_cons, List.contains_append,
          Bool.or_eq_false_iff] at below ⊢
        refine ⟨?_, below⟩
        simpa [eq_comm] using here
    | _ => exact below

/-! ## Lookups -/

namespace Outline

variable {name : String}

/-- A scope around a body that does not bind a name does not end the search for it. -/
theorem Unbound.unowned {outline : Outline} {outer : Enclosing} (unbound : outline.Unbound name)
    (user : isReserved name = false) (unowned : outer.owner? name = none) :
    Enclosing.owner? name (Scope.infoOf outer outline :: outer) = none := by
  have same : (Scope.infoOf outer outline).kind = outline.kind := rfl
  unfold Enclosing.owner?
  rw [same]
  cases kind : outline.kind with
  | moduleScope => rfl
  | classScope => exact unowned
  | functionScope =>
    have binding := Scope.infoOf_binding? outer outline (by simp [kind]) user
    rw [show outline.binding? name = none from unbound, Option.none_or] at binding
    cases captured : Mentions.loads outline.mentions name && outer.captures name with
    | true => simpa [binding, captured] using unowned
    | false => simpa [binding, captured] using unowned

mutual

theorem chains_unowned (user : isReserved name = false) : ∀ (outer : Enclosing) (outline : Outline),
    outer.owner? name = none → outline.Everywhere (·.Unbound name) →
    ∀ chain ∈ (Scope.ofOutline outer outline).chains outer, Enclosing.owner? name chain = none
  | outer, .mk kind title params mentions nonlocals inner, unowned, unbound => by
    rw [Scope.ofOutline, Scope.chains, List.forall_mem_cons]
    have here := unbound.1.unowned user unowned
    exact ⟨here, chainsOfList_unowned user _ inner here unbound.2⟩

theorem chainsOfList_unowned (user : isReserved name = false) :
    ∀ (outer : Enclosing) (outlines : List Outline), outer.owner? name = none →
    AllEverywhere (·.Unbound name) outlines →
    ∀ chain ∈ Scope.chainsOfList outer (Scope.ofOutlines outer outlines),
      Enclosing.owner? name chain = none
  | _, [], _, _ => fun _ member => nomatch member
  | outer, first :: rest, unowned, unbound => by
    rw [Scope.ofOutlines, Scope.chainsOfList, List.forall_mem_append]
    exact ⟨chains_unowned user outer first unowned unbound.1,
      chainsOfList_unowned user outer rest unowned unbound.2⟩

end

end Outline

/-- A name that no definition in a module binds has no owner anywhere in it. -/
theorem Scope.ofModule_unowned {name : String} {shape : Shape} {body : List Stmt}
    (user : isReserved name = false) (plain : Stmt.arePlain shape body = true)
    (unbound : Outline.AllEverywhere (·.Unbound name) (Stmt.outlinesOfBody body)) :
    ∀ chain ∈ (ofModule body).chains [], Enclosing.owner? name chain = none := by
  rw [ofModule_eq_ofOutline plain, Outline.ofModule, ofOutline, chains, List.forall_mem_cons]
  exact ⟨rfl, Outline.chainsOfList_unowned user _ _ rfl unbound⟩

/-! ## Counterparts -/

namespace Outline

variable {name : String} {inClass : Bool} {before after : Outline}

/-- Whether a definition leaves a name to the scopes around it, and is not asked for it by
one inside. A class may have an attribute of that name. -/
def leaves (outline : Outline) (name : String) : Bool :=
  !outline.asks name && match outline.kind with
    | .moduleScope => false
    | .functionScope => (outline.binding? name).isNone
    | .classScope => (Mentions.declaration? outline.mentions name).isNone &&
      !Mentions.imports outline.mentions name

theorem inside_of_leaves {outline : Outline} (leaves : outline.leaves name = true) :
    outline.kind ≠ .moduleScope := by
  intro isModule
  simp [Outline.leaves, isModule] at leaves

/-- The function that such a definition becomes does not bind the name. -/
theorem Keeps.unbound (keeps : Keeps name inClass before after)
    (isFunction : after.kind = .functionScope) (other : name ≠ "__class__")
    (leaves : before.leaves name = true) : after.Unbound name := by
  obtain ⟨unasked, left⟩ := Bool.and_eq_true_iff.mp leaves
  rw [Bool.not_eq_true'] at unasked
  refine unbound_iff.mpr ?_
  rw [keeps.params, keeps.declares]
  cases kind : before.kind with
  | moduleScope => simp [kind] at left
  | functionScope =>
    have unbound : before.Unbound name := by simpa [kind, Unbound] using left
    obtain ⟨noParam, undeclared, notBound⟩ := unbound_iff.mp unbound
    refine ⟨noParam, undeclared, Bool.eq_false_iff.mpr fun bound => ?_⟩
    have reasons := (keeps.function kind fun _ => other).2.2 bound
    simp [notBound, unasked] at reasons
  | classScope =>
    have quiet : Mentions.declaration? before.mentions name = none ∧
        Mentions.imports before.mentions name = false := by
      simpa [kind] using left
    refine ⟨keeps.noParams kind, quiet.1, Bool.eq_false_iff.mpr fun bound => ?_⟩
    have reasons := keeps.expanded kind isFunction (fun _ => other) bound
    simp [quiet, unasked] at reasons

variable {relation : Bool → Outline → Outline → Prop}

mutual

theorem Throughout.unbound (other : name ≠ "__class__")
    (keeps : ∀ flag before after, relation flag before after → Keeps name flag before after)
    (functions : ∀ flag before after, relation flag before after →
      before.kind ≠ .moduleScope → after.kind = .functionScope) :
    ∀ (flag : Bool) (before after : Outline), Throughout relation flag before after →
      before.Everywhere (·.leaves name = true) → after.Everywhere (·.Unbound name)
  | flag, .mk kind title params mentions nonlocals inner,
      .mk kind' title' params' mentions' nonlocals' inner', all, leaves => by
    have isFunction := functions _ _ _ all.1 (inside_of_leaves leaves.1)
    exact ⟨(keeps _ _ _ all.1).unbound isFunction other leaves.1,
      AllThroughout.unbound other keeps functions _ inner inner' all.2 leaves.2⟩

theorem AllThroughout.unbound (other : name ≠ "__class__")
    (keeps : ∀ flag before after, relation flag before after → Keeps name flag before after)
    (functions : ∀ flag before after, relation flag before after →
      before.kind ≠ .moduleScope → after.kind = .functionScope) :
    ∀ (flag : Bool) (before after : List Outline), AllThroughout relation flag before after →
      AllEverywhere (·.leaves name = true) before → AllEverywhere (·.Unbound name) after
  | _, [], _, all, _ => by
    cases all
    trivial
  | flag, first :: rest, _, all, leaves => by
    obtain ⟨counterpart, later, rfl, here, below⟩ := all
    exact ⟨Throughout.unbound other keeps functions flag first counterpart here leaves.1,
      AllThroughout.unbound other keeps functions flag rest later below leaves.2⟩

end

end Outline

/-! ## Bodies -/

/-- Mentions and definitions, and their counterparts: a name that the first do not bind or
declare, the others do not either. -/
structure Spares (name : String) (before after : List Mention) (inner inner' : List Outline) :
    Prop where
  declares : Mentions.declaration? before name = none → Mentions.declaration? after name = none
  binds : Mentions.binds before name = false → Mentions.binds after name = false
  inner : Outline.AllEverywhere (·.Unbound name) inner →
    Outline.AllEverywhere (·.Unbound name) inner'

namespace Spares

variable {name : String}

theorem of_told {before after : List Mention} {loaded : Bool}
    (told : Mentions.Says name after loaded false) : Spares name before after [] [] :=
  ⟨fun _ => told.declares, fun _ => told.binds, id⟩

theorem same (mentions : List Mention) : Spares name mentions mentions [] [] :=
  ⟨id, id, id⟩

theorem additive : Additive (Spares name) where
  nil := .same []
  append first second := by
    refine ⟨fun undeclared => ?_, fun unbound => ?_, fun unbound => ?_⟩
    · rw [Mentions.declaration?_append, Option.or_eq_none_iff] at undeclared ⊢
      exact ⟨first.declares undeclared.1, second.declares undeclared.2⟩
    · rw [Mentions.binds_append, Bool.or_eq_false_iff] at unbound ⊢
      exact ⟨first.binds unbound.1, second.binds unbound.2⟩
    · rw [Outline.allEverywhere_append] at unbound ⊢
      exact ⟨first.inner unbound.1, second.inner unbound.2⟩

/-- A function whose body has a counterpart. -/
theorem function {decorators decorators' : List Expr} {position : Position} {ident : Ident}
    {params params' : List Param} {result : Option Expr} {body after : List Stmt}
    (sameParams : Collector.paramNames params' = Collector.paramNames params)
    (nonlocals : (Stmt.topNonlocals body).contains name = false →
      (Stmt.topNonlocals after).contains name = false)
    (spares : Spares name (Stmt.mentionsOfBody body) (Stmt.mentionsOfBody after)
      (Stmt.outlinesOfBody body) (Stmt.outlinesOfBody after)) :
    Spares name (Stmt.mentions (.function decorators position ident params result body))
      (Stmt.mentions (.function decorators' position ident params' result after))
      (Stmt.outlines (.function decorators position ident params result body))
      (Stmt.outlines (.function decorators' position ident params' result after)) := by
  have told := @Mentions.Says.functionMentions name decorators ident.name params body
  have told' := @Mentions.Says.functionMentions name decorators' ident.name params' after
  refine ⟨fun _ => told'.declares, fun unbound => ?_, ?_⟩
  · rw [Stmt.mentions, told.binds, Bool.or_eq_false_iff, Bool.and_eq_false_imp] at unbound
    rw [Stmt.mentions, told'.binds, Bool.or_eq_false_iff, Bool.and_eq_false_imp]
    exact ⟨unbound.1, fun lends => nonlocals (unbound.2 lends)⟩
  · rw [Stmt.outlines, Stmt.outlines, sameParams]
    rintro ⟨⟨here, inside⟩, -⟩
    obtain ⟨noParam, undeclared, unbound⟩ := Outline.unbound_iff.mp here
    refine ⟨⟨Outline.unbound_iff.mpr ?_, spares.inner inside⟩, trivial⟩
    exact ⟨noParam, spares.declares undeclared, spares.binds unbound⟩

end Spares
end Unsugar
