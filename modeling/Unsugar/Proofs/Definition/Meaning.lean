import Unsugar.Desugar
import Unsugar.Proofs.Definition.Class
import Unsugar.Proofs.Hints
import Unsugar.Proofs.Lowering.Passes

/-! What names mean once the definitions of a module are explicit. Every function of a
lowered module has a counterpart, and so has every class; a name that is not hidden on
the way is bound alike in a function and in its counterpart, and its owners are
counterparts too. -/

namespace Unsugar
namespace Definition

variable {name : String}

/-! ## The two steps -/

theorem renameFunctions_gives (user : isReserved name = false) {scope : Scope} {body : List Stmt}
    (plain : Stmt.arePlain Stmt.lowered body = true)
    (fit : Scope.FitAll name scope.children (Stmt.outlinesOfBody body)) :
    Desugar.Gives (fun _ => False) (BodyGrows renamed (Renamed name) name false false body)
      (renameFunctions scope body) := by
  have becomes := body_becomes functionPass_descends (functionPass_leaves user) false
    (.ofModule scope) body scope.children [] plain fit
  rw [List.append_nil] at becomes
  exact becomes.run.imp fun _ ⟨_, given⟩ => given.2

theorem expandClasses_gives (user : isReserved name = false) {scope : Scope} {body : List Stmt}
    (plain : Stmt.arePlain renamed body = true)
    (fit : Scope.FitAll name scope.children (Stmt.outlinesOfBody body)) :
    Desugar.Gives (fun _ => False) (BodyGrows expanded (Expanded name) name false false body)
      (expandClasses scope body) := by
  have becomes := body_becomes classPass_descends (classPass_leaves user) false
    (.ofModule scope) body scope.children [] plain fit
  rw [List.append_nil] at becomes
  exact becomes.run.imp fun _ ⟨_, given⟩ => given.2

/-- The kind and the name of the counterpart of a definition. -/
def Titled (before : Outline) (kind : ScopeKind) (title : String) : Prop :=
  match before.kind with
  | .moduleScope => kind = .moduleScope
  | .functionScope => kind = .functionScope ∧
    if isReserved before.name then title = before.name
    else ∃ number, title = numberedName ("fn_" ++ before.name) number
  | .classScope => kind = .functionScope ∧
    ∃ number, title = numberedName ("class_ns_" ++ before.name) number

/-- A definition and its counterpart after both steps. -/
structure Redefined (name : String) (inClass : Bool) (before after : Outline) : Prop where
  keeps : Outline.Keeps name inClass before after
  title : Titled before after.kind after.name

theorem Redefined.of_steps {inClass : Bool} {before middle after : List Outline}
    (first : Outline.AllThroughout (Renamed name) inClass before middle)
    (second : Outline.AllThroughout (Expanded name) inClass middle after) :
    Outline.AllThroughout (Redefined name) inClass before after := by
  refine Outline.AllThroughout.trans ?_ inClass inClass before middle after id first second
  intro flag lower before middle after weaker renamed expanded inner
  have asks : middle.asks name = before.asks name :=
    inner.asks fun _ _ _ renamed => renamed.keeps.nonlocals
  refine ⟨⟨renamed.keeps.trans weaker expanded.keeps asks, ?_⟩, fun isClass => ?_⟩
  · have title := expanded.title
    have renames := renamed.title
    rw [renamed.kind] at title
    unfold Renames at renames
    unfold Titled
    cases kind : before.kind with
    | moduleScope =>
      rcases expanded.keeps.kind with same | ⟨isClass, _⟩
      · exact same.trans (renamed.kind.trans kind)
      · simp [renamed.kind, kind] at isClass
    | functionScope =>
      simp only [kind, reduceCtorEq, if_false, true_and] at title renames
      refine ⟨expanded.kind, ?_⟩
      rw [title]
      cases reserved : isReserved before.name with
      | true => simpa [reserved] using renames
      | false => simpa [reserved] using renames
    | classScope =>
      simp only [kind, if_true, reduceCtorEq, false_and, if_false] at title renames
      rw [renames] at title
      exact ⟨expanded.kind, title⟩
  · exact renamed.kind ▸ isClass

theorem Redefined.of_modules {body middle result : List Stmt}
    (first : BodyGrows renamed (Renamed name) name false false body middle)
    (second : BodyGrows expanded (Expanded name) name false false middle result) :
    Outline.Throughout (Redefined name) false (.ofModule body) (.ofModule result) := by
  refine ⟨⟨⟨Or.inl rfl, rfl, ?_, ?_, ?_, ?_, ?_, ?_⟩, rfl⟩, ?_⟩
  · intro isClass
    cases isClass
  · exact second.linked.declares.trans first.linked.declares
  · exact second.linked.imports.trans first.linked.imports
  · exact second.nonlocals.trans first.nonlocals
  · intro isFunction
    cases isFunction
  · intro isClass
    cases isClass
  · exact Redefined.of_steps first.linked.inner second.linked.inner

/-! ## Meanings -/

/-- A scope with those around it, and their counterparts. Unless it is hidden on the
way, a user's name is bound alike in a function and in its counterpart, and has its
owner in the same place. Inside a class, `__class__` is no user's name. -/
structure SameMeanings (chain : List Site) (counterpart : Enclosing) : Prop where
  titled : List.Forall₂ (fun site info => Titled site.outline info.kind info.name) chain counterpart
  names : ∀ name site outer info outer', isReserved name = false →
    chain = site :: outer → counterpart = info :: outer' → site.info.kind = .functionScope →
    (∀ site ∈ chain, site.outline.hides name = false) →
    (name = "__class__" → ∀ site ∈ chain, site.info.kind ≠ .classScope) →
    info.binding? name = site.info.binding? name ∧
      ∃ place : Option Nat,
        Enclosing.owner? name (outer.map Site.info) = place.bind ((outer.map Site.info)[·]?) ∧
        Enclosing.owner? name outer' = place.bind (outer'[·]?)

theorem SameMeanings.of_corresponds {chains : List (List Site)} {counterparts : List Enclosing}
    (corresponds : ∀ name, isReserved name = false → List.Forall₂
      (Outline.Corresponds (fun outline info => Titled outline info.kind info.name) name) chains
      counterparts) :
    List.Forall₂ SameMeanings chains counterparts := by
  induction chains generalizing counterparts with
  | nil =>
    cases corresponds "x" rfl
    exact .nil
  | cons chain others induction =>
    cases counterparts with
    | nil => cases corresponds "x" rfl
    | cons counterpart rest =>
      refine .cons ⟨(List.forall₂_cons.mp (corresponds "x" rfl)).1.1, ?_⟩ (induction ?_)
      · intro name site outer info outer' user chained counterchained isFunction clear outside
        have here := (List.forall₂_cons.mp (corresponds name user)).1.2 site outer info outer'
          chained counterchained isFunction clear outside
        refine ⟨here.1, _, Enclosing.owner?_eq_getElem? name _, ?_⟩
        rw [Enclosing.owner?_eq_getElem?, here.2]
      · intro name user
        exact (List.forall₂_cons.mp (corresponds name user)).2

/-- In a lowered module without scope errors the definitions can be made explicit, and
what names mean stays the same. -/
theorem definitions_keep_meanings (options : Options) (source body : List Stmt)
    (start context : Context) (before steps : List Step)
    (lowered : Lowering.lowerModule options (manglePrivate (takeHints source).2) start before =
      (.ok (body, context), steps))
    (accepted : (Scope.ofModule body).errors [] = []) :
    ∃ result after later,
      (renameFunctions (Scope.ofModule body) body >>= expandClasses (Scope.ofModule body)) context
        steps = (.ok (result, after), later) ∧
      ((Outline.ofModule body).sites []).map (·.map Site.info) = (Scope.ofModule body).chains [] ∧
      List.Forall₂ SameMeanings ((Outline.ofModule body).sites [])
        ((Scope.ofModule result).chains []) := by
  have plain : Stmt.arePlain Stmt.lowered body = true :=
    Stmt.arePlain_of_areLowered rfl body
      (Lowering.areLowered_of_lowerUntilDone _ (manglePrivate_takeHints_fits source) lowered)
  have scopes := Scope.ofModule_eq_ofOutline plain
  have fit : ∀ name, isReserved name = false →
      Scope.FitAll name (Scope.ofModule body).children (Stmt.outlinesOfBody body) := by
    intro name user
    rw [scopes]
    exact (Scope.ofOutline_fits user [] (.ofModule body)).children
  -- The two steps are the same run for all names; each name only adds what is known of it.
  have first := fun name user => renameFunctions_gives user plain (fit name user)
  obtain ⟨middle, between, during, firstRun⟩ := (first "x" rfl).runs context steps
  have renamed := fun name user => (first name user).holds_of_run firstRun
  have second := fun name user => expandClasses_gives user (renamed "x" rfl).plain
    (Scope.FitAll.throughout (fun _ _ _ given => given.keeps) false _ _ _ (fit name user)
      (renamed name user).linked.inner)
  obtain ⟨result, after, later, secondRun⟩ := (second "x" rfl).runs between during
  have expanded := fun name user => (second name user).holds_of_run secondRun
  refine ⟨result, after, later, ?_, ?_, ?_⟩
  · rw [Desugar.run_bind, firstRun]
    exact secondRun
  · rw [scopes]
    exact (Outline.chains_ofOutline [] (.ofModule body)).symm
  · refine SameMeanings.of_corresponds fun name user => ?_
    rw [Scope.ofModule_eq_ofOutline (expanded "x" rfl).plain]
    rw [scopes] at accepted
    exact Outline.sites_correspond user (fun _ _ _ given => given.keeps)
      (fun _ _ _ _ given => given.title) false [] [] _ _
      ⟨.nil, by simp, fun _ _ => ⟨rfl, rfl⟩⟩
      (Redefined.of_modules (renamed name user) (expanded name user)) accepted

/-! ## Modules -/

def functionOf (name : String) (params : List Param) (body : List Stmt) : Stmt :=
  .function [] .unknown ⟨.unknown, name⟩ params none body

def classOf (name : String) (body : List Stmt) : Stmt :=
  .classDef [] .unknown ⟨.unknown, name⟩ [] body

/-- A counter that a function changes and a method of a class reads. -/
def sharedCounter : List Stmt :=
  [functionOf "f" []
    [.store "n" (.ofNat 0),
     functionOf "step" []
      [.declare .unknown .nonlocal [⟨.unknown, "n"⟩], .store "n" (.ofNat 1)],
     classOf "C" [functionOf "m" [.plain "self"] [.returns .unknown (some (.ofName "n"))]],
     .returns .unknown (some (.ofName "step"))]]

theorem sharedCounter_keeps_meanings : ∃ context steps,
    Lowering.lowerModule .standard (manglePrivate (takeHints sharedCounter).2)
      (.ofModule sharedCounter) [] = (.ok (sharedCounter, context), steps) ∧
    (Scope.ofModule sharedCounter).errors [] = [] ∧
    (∀ chain ∈ (Outline.ofModule sharedCounter).sites [], ∀ site ∈ chain,
      site.outline.hides "n" = false) ∧
    ∃ result after later,
      (renameFunctions (Scope.ofModule sharedCounter) sharedCounter >>=
        expandClasses (Scope.ofModule sharedCounter)) context steps = (.ok (result, after), later) ∧
      ((Outline.ofModule sharedCounter).sites []).map (·.map Site.info) =
        (Scope.ofModule sharedCounter).chains [] ∧
      List.Forall₂ SameMeanings ((Outline.ofModule sharedCounter).sites [])
        ((Scope.ofModule result).chains []) :=
  ⟨_, _, rfl, by decide +kernel, by decide +kernel,
    definitions_keep_meanings .standard sharedCounter sharedCounter (.ofModule sharedCounter) _ [] _
      rfl (by decide +kernel)⟩

/-- The names of a scope and of those around it, and what a name means there. -/
structure Meaning where
  scopes : List String
  binding : Option Binding
  owner : Option String
  deriving DecidableEq

/-- What a name means in the scope at a place of the source order. -/
def meaningAt (scope : Scope) (place : Nat) (name : String) : Option Meaning := do
  match ← (scope.chains [])[place]? with
  | [] => none
  | info :: outer =>
    return ⟨(info :: outer).map (·.name), info.binding? name, (Enclosing.owner? name outer).map (·.name)⟩

/-- What a name means in a module without scope errors before and after its definitions
are made explicit. -/
def meanings (source : List Stmt) (place : Nat) (name : String) : Option (Meaning × Meaning) :=
  match Lowering.lowerModule .standard (manglePrivate (takeHints source).2) (.ofModule source) [] with
  | (.ok (body, context), steps) =>
    let scope := Scope.ofModule body
    match scope.errors [], (renameFunctions scope body >>= expandClasses scope) context steps with
    | [], (.ok (result, _), _) => do
      return (← meaningAt scope place name, ← meaningAt (Scope.ofModule result) place name)
    | _, _ => none
  | _ => none

/-- A method that refers to its class where a variable has the same name. -/
def classReference : List Stmt :=
  [functionOf "f" []
    [.store "__class__" (.ofNat 1),
     classOf "C" [functionOf "m" [.plain "self"] [.returns .unknown (some (.ofName "__class__"))]]]]

/-- A variable that is declared nonlocal two functions further in. -/
def deepNonlocal : List Stmt :=
  [functionOf "f" []
    [.store "x" (.ofNat 1),
     functionOf "g" []
      [functionOf "h" []
        [.declare .unknown .nonlocal [⟨.unknown, "x"⟩], .store "x" (.ofNat 2)]]]]

/-- A class that declares the variable of a function around it global. -/
def globalInClass : List Stmt :=
  [functionOf "f" []
    [.store "x" (.ofNat 1),
     classOf "C"
      [.declare .unknown .global [⟨.unknown, "x"⟩],
       functionOf "m" [.plain "self"] [.returns .unknown (some (.ofName "x"))]]]]

/-- A class that imports a future feature under the name of a variable around it. -/
def importInClass : List Stmt :=
  [functionOf "f" []
    [.store "x" (.ofNat 1),
     classOf "C"
      [.importFrom .unknown "__future__" 0
        [⟨.unknown, "annotations", some ⟨.unknown, "x"⟩⟩] .unknown,
       functionOf "m" [.plain "self"] [.returns .unknown (some (.ofName "x"))]]]]

/-- The exceptions are real: a method's `__class__` is no variable afterwards, and a
hidden name gets another owner or none. -/
theorem meanings_change :
    meanings classReference 3 "__class__" = some
      (⟨["m", "C", "f", ""], some .nonlocal, some "f"⟩,
       ⟨["_dp_fn_m_1", "_dp_class_ns_C_3", "_dp_fn_f_2", ""], none, some "_dp_fn_f_2"⟩) ∧
    meanings deepNonlocal 3 "x" = some
      (⟨["h", "g", "f", ""], some .nonlocal, some "f"⟩,
       ⟨["_dp_fn_h_1", "_dp_fn_g_2", "_dp_fn_f_3", ""], some .nonlocal, some "_dp_fn_g_2"⟩) ∧
    meanings globalInClass 3 "x" = some
      (⟨["m", "C", "f", ""], some .nonlocal, some "f"⟩,
       ⟨["_dp_fn_m_1", "_dp_class_ns_C_3", "_dp_fn_f_2", ""], none, none⟩) ∧
    meanings importInClass 3 "x" = some
      (⟨["m", "C", "f", ""], some .nonlocal, some "f"⟩,
       ⟨["_dp_fn_m_1", "_dp_class_ns_C_3", "_dp_fn_f_2", ""], some .nonlocal,
        some "_dp_class_ns_C_3"⟩) := by
  decide +kernel

end Definition
end Unsugar
