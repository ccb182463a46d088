import Mathlib.Data.List.Forall2
import Unsugar.Proofs.Scope.Owner

/-! When two modules with corresponding definitions mean the same by a name. A
function of the second may bind more than its counterpart, and a class may have
become a function; the places where that gets in the way are said to hide the name. -/

namespace Unsugar

/-! ## Corresponding definitions -/

namespace Outline

/-- Whether a definition in the body declares a name nonlocal. -/
def asks (outline : Outline) (name : String) : Bool :=
  outline.inner.any (·.nonlocals.contains name)

/-- What a definition and its counterpart have in common, as far as one name is
concerned. `inClass` tells whether a class is around them: inside a class the name
`__class__` is free to change. -/
structure Keeps (name : String) (inClass : Bool) (before after : Outline) : Prop where
  kind : after.kind = before.kind ∨ before.kind = .classScope ∧ after.kind = .functionScope
  params : after.params.contains name = before.params.contains name
  noParams : before.kind = .classScope → before.params.contains name = false
  declares : Mentions.declaration? after.mentions name =
    Mentions.declaration? before.mentions name
  imports : Mentions.imports after.mentions name = Mentions.imports before.mentions name
  nonlocals : after.nonlocals.contains name = before.nonlocals.contains name
  function : before.kind = .functionScope → (inClass = true → name ≠ "__class__") →
    (before.params.contains name = false →
      Mentions.loads after.mentions name = Mentions.loads before.mentions name) ∧
    (Mentions.binds before.mentions name = true → Mentions.binds after.mentions name = true) ∧
    (Mentions.binds after.mentions name = true →
      Mentions.binds before.mentions name = true ∨ before.asks name = true)
  expanded : before.kind = .classScope → after.kind = .functionScope →
    (inClass = true → name ≠ "__class__") → Mentions.binds after.mentions name = true →
    Mentions.imports before.mentions name = true ∨
      (Mentions.declaration? before.mentions name).isSome = true ∨ before.asks name = true

mutual

/-- A relation that holds of all corresponding definitions in two definitions. -/
def Throughout (relation : Bool → Outline → Outline → Prop) (inClass : Bool) :
    Outline → Outline → Prop
  | .mk kind name params mentions nonlocals inner, after =>
    relation inClass (.mk kind name params mentions nonlocals inner) after ∧
      AllThroughout relation (inClass || kind = .classScope) inner after.inner

def AllThroughout (relation : Bool → Outline → Outline → Prop) (inClass : Bool) :
    List Outline → List Outline → Prop
  | [], after => after = []
  | first :: rest, after => ∃ counterpart others, after = counterpart :: others ∧
      Throughout relation inClass first counterpart ∧ AllThroughout relation inClass rest others

end

variable {relation other : Bool → Outline → Outline → Prop} {inClass : Bool}

theorem AllThroughout.append {first second after others : List Outline}
    (head : AllThroughout relation inClass first after)
    (tail : AllThroughout relation inClass second others) :
    AllThroughout relation inClass (first ++ second) (after ++ others) := by
  induction first generalizing after with
  | nil =>
    cases head
    exact tail
  | cons outline rest induction =>
    obtain ⟨counterpart, later, rfl, here, below⟩ := head
    exact ⟨counterpart, later ++ others, rfl, here, induction below⟩

/-- The names that counterparts are asked for are the same. -/
theorem AllThroughout.asks {name : String} {inner after : List Outline}
    (keeps : ∀ flag before after, relation flag before after →
      after.nonlocals.contains name = before.nonlocals.contains name)
    (all : AllThroughout relation inClass inner after) :
    after.any (·.nonlocals.contains name) = inner.any (·.nonlocals.contains name) := by
  induction inner generalizing after with
  | nil =>
    cases all
    rfl
  | cons outline rest induction =>
    obtain ⟨counterpart, later, rfl, here, below⟩ := all
    obtain ⟨kind, title, params, mentions, nonlocals, inside⟩ := outline
    rw [List.any_cons, List.any_cons, keeps _ _ _ here.1, induction below]

mutual

/-- Counterparts of counterparts. The second step may treat less as inside a class. -/
theorem Throughout.trans {composed : Bool → Outline → Outline → Prop}
    (compose : ∀ flag lower before middle after, (lower = true → flag = true) →
      relation flag before middle → other lower middle after →
      AllThroughout relation (flag || before.kind = .classScope) before.inner middle.inner →
      composed flag before after ∧ (middle.kind = .classScope → before.kind = .classScope)) :
    ∀ (flag lower : Bool) (before middle after : Outline), (lower = true → flag = true) →
      Throughout relation flag before middle → Throughout other lower middle after →
      Throughout composed flag before after
  | flag, lower, .mk kind name params mentions nonlocals inner,
      .mk kind' name' params' mentions' nonlocals' inner', after, weaker, first, second => by
    have both := compose flag lower _ _ after weaker first.1 second.1 first.2
    refine ⟨both.1, AllThroughout.trans compose _ _ inner inner' after.inner ?_ first.2 second.2⟩
    intro inside
    rcases (Bool.or_eq_true _ _).mp inside with inside | inside
    · simp [weaker inside]
    · have isClass : kind = .classScope := both.2 (of_decide_eq_true inside)
      simp [isClass]

theorem AllThroughout.trans {composed : Bool → Outline → Outline → Prop}
    (compose : ∀ flag lower before middle after, (lower = true → flag = true) →
      relation flag before middle → other lower middle after →
      AllThroughout relation (flag || before.kind = .classScope) before.inner middle.inner →
      composed flag before after ∧ (middle.kind = .classScope → before.kind = .classScope)) :
    ∀ (flag lower : Bool) (before middle after : List Outline), (lower = true → flag = true) →
      AllThroughout relation flag before middle → AllThroughout other lower middle after →
      AllThroughout composed flag before after
  | _, _, [], middle, after, _, first, second => by
    cases first
    exact second
  | flag, lower, outline :: rest, middle, after, weaker, first, second => by
    obtain ⟨counterpart, later, rfl, here, below⟩ := first
    obtain ⟨last, others, rfl, hereToo, belowToo⟩ := second
    exact ⟨last, others, rfl, Throughout.trans compose flag lower outline _ last weaker here hereToo,
      AllThroughout.trans compose flag lower rest _ others weaker below belowToo⟩

end

theorem Keeps.isClass {name : String} {before after : Outline}
    (keeps : Keeps name inClass before after) (isClass : after.kind = .classScope) :
    before.kind = .classScope := by
  rcases keeps.kind with same | ⟨before, _⟩
  · exact same.symm.trans isClass
  · exact before

theorem Keeps.trans {name : String} {lower : Bool} {before middle after : Outline}
    (weaker : lower = true → inClass = true) (first : Keeps name inClass before middle)
    (second : Keeps name lower middle after) (asks : middle.asks name = before.asks name) :
    Keeps name inClass before after where
  kind := by
    rcases first.kind with same | ⟨isClass, isFunction⟩
    · rw [← same]
      exact second.kind
    · rcases second.kind with same | ⟨isClass', _⟩
      · exact Or.inr ⟨isClass, same.trans isFunction⟩
      · rw [isFunction] at isClass'
        cases isClass'
  params := second.params.trans first.params
  noParams := first.noParams
  declares := second.declares.trans first.declares
  imports := second.imports.trans first.imports
  nonlocals := second.nonlocals.trans first.nonlocals
  function isFunction free := by
    have middleFunction : middle.kind = .functionScope := by
      rcases first.kind with same | ⟨isClass, _⟩
      · exact same.trans isFunction
      · rw [isFunction] at isClass
        cases isClass
    obtain ⟨loads, grows, added⟩ := first.function isFunction free
    obtain ⟨loads', grows', added'⟩ := second.function middleFunction fun inside => free (weaker inside)
    refine ⟨fun noParam => ?_, fun bound => grows' (grows bound), fun bound => ?_⟩
    · exact (loads' (first.params.trans noParam)).trans (loads noParam)
    · rcases added' bound with bound | asked
      · exact added bound
      · exact Or.inr (asks.symm.trans asked)
  expanded isClass isFunction free bound := by
    have lowerFree : lower = true → name ≠ "__class__" := fun inside => free (weaker inside)
    rcases first.kind with same | ⟨_, middleFunction⟩
    · have found := second.expanded (same.trans isClass) isFunction lowerFree bound
      rwa [first.imports, first.declares, asks] at found
    · rcases (second.function middleFunction lowerFree).2.2 bound with bound | asked
      · exact first.expanded isClass middleFunction free bound
      · exact Or.inr (Or.inr (asks.symm.trans asked))

/-- Whether the counterpart of a definition may bind a name that the definition
itself leaves to the scopes around it. -/
def hides (outline : Outline) (name : String) : Bool :=
  match outline.kind with
  | .moduleScope => false
  | .functionScope => (outline.binding? name).isNone && outline.asks name
  | .classScope =>
    match Mentions.declaration? outline.mentions name with
    | some .global => true
    | some .nonlocal => false
    | none => Mentions.imports outline.mentions name || outline.asks name

end Outline

/-! ## Chains of scopes -/

namespace Scope

mutual

/-- For each scope, in source order, the scope itself and those around it. -/
def chains (outer : Enclosing) : Scope → List Enclosing
  | mk info children => (info :: outer) :: chainsOfList (info :: outer) children

def chainsOfList (outer : Enclosing) : List Scope → List Enclosing
  | [] => []
  | first :: rest => chains outer first ++ chainsOfList outer rest

end

end Scope

/-- A definition and its scope. -/
structure Site where
  outline : Outline
  info : ScopeInfo

namespace Outline

mutual

/-- For each definition, in source order, the definition and those around it. -/
def sites (outer : List Site) : Outline → List (List Site)
  | .mk kind name params mentions nonlocals inner =>
    let outline := Outline.mk kind name params mentions nonlocals inner
    let site : Site := ⟨outline, Scope.infoOf (outer.map Site.info) outline⟩
    (site :: outer) :: sitesOfList (site :: outer) inner

def sitesOfList (outer : List Site) : List Outline → List (List Site)
  | [] => []
  | first :: rest => sites outer first ++ sitesOfList outer rest

end

mutual

/-- The sites of a definition have its scopes. -/
theorem chains_ofOutline : ∀ (outer : List Site) (outline : Outline),
    (Scope.ofOutline (outer.map Site.info) outline).chains (outer.map Site.info) =
      (sites outer outline).map (·.map Site.info)
  | outer, .mk kind name params mentions nonlocals inner => by
    rw [Scope.ofOutline, Scope.chains, sites, List.map_cons]
    congr 1
    exact chainsOfList_ofOutlines (⟨.mk kind name params mentions nonlocals inner,
      Scope.infoOf (outer.map Site.info) (.mk kind name params mentions nonlocals inner)⟩ :: outer)
      inner

theorem chainsOfList_ofOutlines : ∀ (outer : List Site) (outlines : List Outline),
    Scope.chainsOfList (outer.map Site.info) (Scope.ofOutlines (outer.map Site.info) outlines) =
      (sitesOfList outer outlines).map (·.map Site.info)
  | _, [] => rfl
  | outer, first :: rest => by
    rw [Scope.ofOutlines, Scope.chainsOfList, sitesOfList, List.map_append,
      chains_ofOutline outer first, chainsOfList_ofOutlines outer rest]

end

end Outline

/-! ## One name in corresponding chains -/

namespace Enclosing

/-- Scopes of which the same one, by its place, owns a name. -/
def Agree (name : String) (before after : Enclosing) : Prop :=
  after.ownerPlace? name = before.ownerPlace? name ∧ after.captures name = before.captures name

end Enclosing

namespace Outline

variable {name : String} {inClass : Bool} {before after : Outline} {outer outer' : Enclosing}

/-- A function binds a name that it does not hide as its counterpart does. -/
theorem Keeps.binding?_eq (keeps : Keeps name inClass before after)
    (isFunction : before.kind = .functionScope) (free : inClass = true → name ≠ "__class__")
    (clear : before.hides name = false) : after.binding? name = before.binding? name := by
  obtain ⟨_, grows, added⟩ := keeps.function isFunction free
  unfold binding?
  rw [keeps.params, keeps.declares]
  cases isParam : before.params.contains name with
  | true => rfl
  | false =>
    cases declared : Mentions.declaration? before.mentions name with
    | some declaration => rfl
    | none =>
      cases bound : Mentions.binds before.mentions name with
      | true => rw [grows bound]
      | false =>
        have unfixed : before.binding? name = none := by
          rw [binding?, isParam, declared, bound]
          rfl
        have unasked : before.asks name = false := by
          simpa [hides, isFunction, unfixed] using clear
        have unbound : Mentions.binds after.mentions name = false := by
          refine Bool.eq_false_iff.mpr fun found => ?_
          rcases added found with found | found
          · simp [bound] at found
          · simp [unasked] at found
        rw [unbound]

theorem Keeps.infoOf_binding?_eq (keeps : Keeps name inClass before after)
    (isFunction : before.kind = .functionScope) (free : inClass = true → name ≠ "__class__")
    (clear : before.hides name = false) (user : isReserved name = false)
    (agree : Enclosing.Agree name outer outer') :
    (Scope.infoOf outer' after).binding? name = (Scope.infoOf outer before).binding? name := by
  have isFunction' : after.kind = .functionScope := by
    rcases keeps.kind with same | ⟨isClass, _⟩
    · exact same.trans isFunction
    · rw [isFunction] at isClass
      cases isClass
  rw [Scope.infoOf_binding? outer before (by simp [isFunction]) user,
    Scope.infoOf_binding? outer' after (by simp [isFunction']) user,
    keeps.binding?_eq isFunction free clear, agree.2]
  cases isParam : before.params.contains name with
  | true =>
    have own : before.binding? name = some .own := by
      rw [binding?, isParam]
      rfl
    simp [own]
  | false => rw [(keeps.function isFunction free).1 isParam]

/-- A class that has become a function still lets a name through that it does not
hide. -/
theorem Keeps.infoOf_expanded (keeps : Keeps name inClass before after)
    (isClass : before.kind = .classScope) (isFunction : after.kind = .functionScope)
    (free : inClass = true → name ≠ "__class__") (clear : before.hides name = false)
    (user : isReserved name = false)
    (owned : Mentions.declaration? before.mentions name = some .nonlocal →
      outer.captures name = true) (agree : Enclosing.Agree name outer outer') :
    (Scope.infoOf outer' after).binding? name = none ∨
      (Scope.infoOf outer' after).binding? name = some .nonlocal ∧
        outer'.captures name = true := by
  rw [Scope.infoOf_binding? outer' after (by simp [isFunction]) user]
  have isParam : after.params.contains name = false := keeps.params.trans (keeps.noParams isClass)
  cases declared : Mentions.declaration? before.mentions name with
  | some declaration =>
    cases declaration with
    | «global» => simp [hides, isClass, declared] at clear
    | «nonlocal» =>
      have bound : after.binding? name = some .nonlocal := by
        rw [binding?, isParam, keeps.declares, declared]
        rfl
      exact Or.inr ⟨by simp [bound], agree.2.trans (owned declared)⟩
  | none =>
    have quiet : Mentions.imports before.mentions name = false ∧ before.asks name = false := by
      simpa [hides, isClass, declared] using clear
    have unbound : Mentions.binds after.mentions name = false := by
      refine Bool.eq_false_iff.mpr fun found => ?_
      have reasons := keeps.expanded isClass isFunction free found
      simp [quiet.1, quiet.2, declared] at reasons
    have unfixed : after.binding? name = none := by
      rw [binding?, isParam, keeps.declares, declared, unbound]
      rfl
    rw [unfixed]
    cases captured : (Mentions.loads after.mentions name && outer'.captures name) with
    | true => exact Or.inr ⟨rfl, (Bool.and_eq_true_iff.mp captured).2⟩
    | false => exact Or.inl rfl

/-- One more scope around a body, and its counterpart. -/
theorem Keeps.agree (keeps : Keeps name inClass before after)
    (free : inClass = true → name ≠ "__class__") (clear : before.hides name = false)
    (user : isReserved name = false)
    (owned : before.kind = .classScope →
      Mentions.declaration? before.mentions name = some .nonlocal → outer.captures name = true)
    (agree : Enclosing.Agree name outer outer') :
    Enclosing.Agree name (Scope.infoOf outer before :: outer)
      (Scope.infoOf outer' after :: outer') := by
  have beforeKind : (Scope.infoOf outer before).kind = before.kind := rfl
  have afterKind : (Scope.infoOf outer' after).kind = after.kind := rfl
  cases kind : before.kind with
  | moduleScope =>
    have same : after.kind = .moduleScope := by
      rcases keeps.kind with same | ⟨isClass, _⟩
      · exact same.trans kind
      · rw [kind] at isClass
        cases isClass
    simp [Enclosing.Agree, Enclosing.ownerPlace?, Enclosing.captures, beforeKind, afterKind, kind,
      same]
  | functionScope =>
    have same : after.kind = .functionScope := by
      rcases keeps.kind with same | ⟨isClass, _⟩
      · exact same.trans kind
      · rw [kind] at isClass
        cases isClass
    have binding := keeps.infoOf_binding?_eq kind free clear user agree
    simp [Enclosing.Agree, Enclosing.ownerPlace?, Enclosing.captures, beforeKind, afterKind, kind,
      same, binding, agree.1, agree.2]
  | classScope =>
    rcases keeps.kind with same | ⟨_, isFunction⟩
    · simp [Enclosing.Agree, Enclosing.ownerPlace?, Enclosing.captures, beforeKind, afterKind, kind,
        same, agree.1, agree.2]
    · rcases keeps.infoOf_expanded kind isFunction free clear user (owned kind) agree with
        unbound | ⟨bound, captured⟩
      · simp [Enclosing.Agree, Enclosing.ownerPlace?, Enclosing.captures, beforeKind, afterKind,
          kind, isFunction, unbound, agree.1, agree.2]
      · simp [Enclosing.Agree, Enclosing.ownerPlace?, Enclosing.captures, beforeKind, afterKind,
          kind, isFunction, bound, agree.1, ← agree.2, captured]

/-- A name that a class declares nonlocal has an owner, if there are no errors. -/
theorem captures_of_unbound (isClass : before.kind = .classScope)
    (isParam : before.params.contains name = false) (user : isReserved name = false)
    (accepted : Scope.unbound outer (Scope.infoOf outer before) = [])
    (declared : Mentions.declaration? before.mentions name = some .nonlocal) :
    outer.captures name = true := by
  have kind : (Scope.infoOf outer before).kind = .classScope := isClass
  have tells := Names.ofOutline_tells before (by simp [isClass]) user
  have listed : name ∈ (Scope.infoOf outer before).names.nonlocals := by
    have contains : (Scope.infoOf outer before).names.nonlocals.contains name = true := by
      refine tells.nonlocals.trans ?_
      rw [isParam, declared]
      rfl
    simpa using contains
  have owned : ¬ (outer.owner? name).isNone = true := by
    have nothing : (Scope.sortNames (Scope.infoOf outer before).names.nonlocals).filter
        (fun name => (outer.owner? name).isNone) = [] := by
      simpa [Scope.unbound, kind] using accepted
    exact List.filter_eq_nil_iff.mp nothing name (Scope.mem_sortNames.mpr listed)
  refine Enclosing.captures_of_owner? ?_
  cases found : outer.owner? name with
  | none => simp [found] at owned
  | some => rfl

/-- A scope with those around it, and their counterparts: unless the name is hidden
on the way, the scope of a function binds it alike, and it has its owner in the same
place. -/
def Corresponds (renames : Outline → ScopeInfo → Prop) (name : String) (chain : List Site)
    (counterpart : Enclosing) : Prop :=
  List.Forall₂ (fun site info => renames site.outline info) chain counterpart ∧
  ∀ site outer info outer', chain = site :: outer → counterpart = info :: outer' →
    site.info.kind = .functionScope →
    (∀ site ∈ chain, site.outline.hides name = false) →
    (name = "__class__" → ∀ site ∈ chain, site.info.kind ≠ .classScope) →
    info.binding? name = site.info.binding? name ∧
      Enclosing.ownerPlace? name outer' = Enclosing.ownerPlace? name (outer.map Site.info)

/-- What is known of the scopes around two corresponding definitions. -/
structure Around (renames : Outline → ScopeInfo → Prop) (name : String) (inClass : Bool)
    (outer : List Site) (outer' : Enclosing) : Prop where
  renamed : List.Forall₂ (fun site info => renames site.outline info) outer outer'
  inClass : inClass = true → ∃ site ∈ outer, site.info.kind = .classScope
  agree : (∀ site ∈ outer, site.outline.hides name = false) →
    (name = "__class__" → ∀ site ∈ outer, site.info.kind ≠ .classScope) →
    Enclosing.Agree name (outer.map Site.info) outer'

variable {renames : Outline → ScopeInfo → Prop} {relation : Bool → Outline → Outline → Prop}

mutual

theorem sites_correspond (user : isReserved name = false)
    (keeps : ∀ flag before after, relation flag before after → Keeps name flag before after)
    (renamed : ∀ flag before after outer, relation flag before after →
      renames before (Scope.infoOf outer after)) : ∀ (flag : Bool) (outer : List Site) (outer' : Enclosing)
    (before after : Outline), Around renames name flag outer outer' →
    Throughout relation flag before after →
    (Scope.ofOutline (outer.map Site.info) before).errors (outer.map Site.info) = [] →
    List.Forall₂ (Corresponds renames name) (sites outer before)
      ((Scope.ofOutline outer' after).chains outer')
  | flag, outer, outer', .mk kind title params mentions nonlocals inner,
      .mk kind' title' params' mentions' nonlocals' inner', around, all, accepted => by
    let before := Outline.mk kind title params mentions nonlocals inner
    let after := Outline.mk kind' title' params' mentions' nonlocals' inner'
    let site : Site := ⟨before, Scope.infoOf (outer.map Site.info) before⟩
    have kept : Keeps name flag before after := keeps flag _ _ all.1
    obtain ⟨first, unbound⟩ := List.append_eq_nil_iff.mp accepted
    obtain ⟨_, below⟩ := List.append_eq_nil_iff.mp first
    have owned : before.kind = .classScope →
        Mentions.declaration? before.mentions name = some .nonlocal →
        Enclosing.captures name (outer.map Site.info) = true := fun isClass declared =>
      captures_of_unbound isClass (kept.noParams isClass) user unbound declared
    have free : (name = "__class__" → ∀ site ∈ outer, site.info.kind ≠ .classScope) →
        flag = true → name ≠ "__class__" := by
      intro outside inside same
      obtain ⟨found, member, isClass⟩ := around.inClass inside
      exact outside same found member isClass
    have titled : List.Forall₂ (fun site info => renames site.outline info) (site :: outer)
        (Scope.infoOf outer' after :: outer') :=
      .cons (renamed flag _ _ outer' all.1) around.renamed
    refine .cons ⟨titled, ?_⟩ ?_
    · rintro _ _ _ _ ⟨⟩ ⟨⟩ isFunction clear outside
      have outerClear := fun site member => clear site (List.mem_cons_of_mem _ member)
      have outerOutside := fun same site member => outside same site (List.mem_cons_of_mem _ member)
      have agree := around.agree outerClear outerOutside
      exact ⟨kept.infoOf_binding?_eq isFunction (free outerOutside)
        (clear site List.mem_cons_self) user agree, agree.1⟩
    · refine sitesOfList_correspond user keeps renamed _ (site :: outer)
        (Scope.infoOf outer' after :: outer') inner inner' ⟨titled, ?_, ?_⟩ all.2 below
      · intro inside
        rcases (Bool.or_eq_true _ _).mp inside with inside | isClass
        · obtain ⟨found, member, foundClass⟩ := around.inClass inside
          exact ⟨found, List.mem_cons_of_mem _ member, foundClass⟩
        · exact ⟨site, List.mem_cons_self, of_decide_eq_true isClass⟩
      · intro clear outside
        have outerClear := fun site member => clear site (List.mem_cons_of_mem _ member)
        have outerOutside := fun same site member =>
          outside same site (List.mem_cons_of_mem _ member)
        exact kept.agree (free outerOutside) (clear site List.mem_cons_self) user owned
          (around.agree outerClear outerOutside)

theorem sitesOfList_correspond (user : isReserved name = false)
    (keeps : ∀ flag before after, relation flag before after → Keeps name flag before after)
    (renamed : ∀ flag before after outer, relation flag before after →
      renames before (Scope.infoOf outer after)) : ∀ (flag : Bool) (outer : List Site) (outer' : Enclosing)
    (before after : List Outline), Around renames name flag outer outer' →
    AllThroughout relation flag before after →
    Scope.errorsOfList (outer.map Site.info) (Scope.ofOutlines (outer.map Site.info) before) = [] →
    List.Forall₂ (Corresponds renames name) (sitesOfList outer before)
      (Scope.chainsOfList outer' (Scope.ofOutlines outer' after))
  | _, _, _, [], after, _, all, _ => by
    cases all
    exact .nil
  | flag, outer, outer', first :: rest, after, around, all, accepted => by
    obtain ⟨counterpart, others, rfl, here, below⟩ := all
    have parts := List.append_eq_nil_iff.mp accepted
    exact List.rel_append
      (sites_correspond user keeps renamed flag outer outer' first counterpart around here parts.1)
      (sitesOfList_correspond user keeps renamed flag outer outer' rest others around below parts.2)

end

end Outline
end Unsugar
