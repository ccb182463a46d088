import Unsugar.Proofs.Definition.Closure
import Unsugar.Proofs.Definition.Finish
import Unsugar.Proofs.Definition.Meaning

/-! What follows once a module is lowered never refuses anything. Where closures are made
explicit, looking up a name that the definitions of the lowered module leave alone gets to
the module from anywhere in the result, also where the transformation itself looks it up. -/

namespace Unsugar

/-! ## Definitions -/

namespace Definition

variable {name : String}

theorem Redefined.isFunction {inClass : Bool} {before after : Outline}
    (redefined : Redefined name inClass before after) (inside : before.kind ≠ .moduleScope) :
    after.kind = .functionScope := by
  have title := redefined.title
  unfold Titled at title
  cases kind : before.kind with
  | moduleScope => exact absurd kind inside
  | functionScope =>
    rw [kind] at title
    exact title.1
  | classScope =>
    rw [kind] at title
    exact title.1

/-- The definitions of a lowered module can always be made explicit, and each has its
counterpart. -/
theorem definitions_give (user : isReserved name = false)
    {body : List Stmt} (plain : Stmt.arePlain Stmt.lowered body = true) :
    Desugar.Gives (fun _ => False)
      (fun result => Stmt.arePlain expanded result = true ∧
        Outline.AllThroughout (Redefined name) false (Stmt.outlinesOfBody body)
          (Stmt.outlinesOfBody result))
      (renameFunctions (Scope.ofModule body) body >>= expandClasses (Scope.ofModule body)) := by
  have fit : Scope.FitAll name (Scope.ofModule body).children (Stmt.outlinesOfBody body) := by
    rw [Scope.ofModule_eq_ofOutline plain]
    exact (Scope.ofOutline_fits user [] (.ofModule body)).children
  refine (renameFunctions_gives user plain fit).bind fun renamed grows => ?_
  have fitRenamed := Scope.FitAll.throughout (fun _ _ _ given => given.keeps) false _ _ _ fit
    grows.linked.inner
  exact (expandClasses_gives user grows.plain fitRenamed).imp fun result further =>
    ⟨further.plain, Redefined.of_steps grows.linked.inner further.linked.inner⟩

end Definition

/-! ## Names -/

namespace Desugar

theorem scopes_gives (body : List Stmt) :
    Gives (¬ ·.IsRefusal) (· = Scope.ofModule body) (scopes body) := by
  simp only [scopes]
  split
  · exact .pure rfl
  · exact fun _ _ => id

theorem resolveNames_gives {name : String} (user : isReserved name = false) (options : Options)
    {body : List Stmt} (plain : Stmt.arePlain Definition.expanded body = true) :
    Gives (¬ ·.IsRefusal)
      (fun result => options.explicitScopes = false → Closure.BodyResolved name body result)
      (resolveNames options body) := by
  unfold resolveNames
  split
  · rename_i explicit
    refine (Gives.note _).bind fun _ _ => (Gives.note _).bind fun _ _ => .pure fun closures => ?_
    rw [closures] at explicit
    cases explicit
  · refine (Gives.note _).bind fun _ _ => (scopes_gives body).bind fun scope _ => ?_
    exact (resolveClosures_gives user plain).anyway.imp fun _ resolved _ => resolved

/-- What follows once a module is lowered. -/
def complete (options : Options) (body : List Stmt) : Desugar (List Stmt) := do
  note (.phase .stage2)
  let scope ← scopes body
  let body ← renameFunctions scope body
  let body ← expandClasses scope body
  return finish options (← resolveNames options body)

theorem complete_gives {name : String} (user : isReserved name = false) (options : Options)
    {body : List Stmt} (plain : Stmt.arePlain Stmt.lowered body = true) :
    Gives (¬ ·.IsRefusal)
      (fun result => options.explicitScopes = false → name ≠ "__class__" →
        Outline.AllEverywhere (·.leaves name = true) (Stmt.outlinesOfBody body) →
        LeftToModule name result)
      (complete options body) := by
  refine (Gives.note _).bind fun _ _ => (scopes_gives body).bind ?_
  rintro _ rfl
  rw [← bind_assoc]
  refine (Definition.definitions_give user plain).anyway.bind fun expanded ⟨plain', all⟩ => ?_
  refine (resolveNames_gives user options plain').bind fun resolved given => .pure ?_
  intro closures other leaves
  have unbound := all.unbound other (fun _ _ _ given => given.keeps)
    (fun _ _ _ given => given.isFunction) _ _ _ leaves
  have left : LeftToModule name resolved :=
    ⟨(given closures).plain, (given closures).linked.inner unbound⟩
  exact left.finish options

/-- The transformation of a module lowers it and then completes it. -/
theorem run_module (options : Options) (file : String) (body : List Stmt) (context : Context)
    (steps : List Step) : Desugar.module options file body context steps =
      (Lowering.lowerModule options (manglePrivate (takeHints body).2) >>= complete options) context
        (.phase .stage1 :: .annotations (takeHints body).1 :: .phase (.annotations file) :: steps) :=
  rfl

end Desugar

/-! ## Lookups -/

/-- In a transformed module whose closures are explicit, a name has no owner anywhere if the
definitions of the lowered module leave it alone. So looking it up gets to the module, also
where the transformation itself does so. -/
theorem left_names_reach_module {options : Options} {file : String} {source result : List Stmt}
    {context after : Context} {steps later : List Step} (closures : options.explicitScopes = false)
    (ran : Desugar.module options file source context steps = (.ok (result, after), later)) :
    ∃ before lowered between during,
      Lowering.lowerModule options (manglePrivate (takeHints source).2) context before =
        (.ok (lowered, between), during) ∧
      ∀ name, isReserved name = false → name ≠ "__class__" →
        Outline.AllEverywhere (·.leaves name = true) (Stmt.outlinesOfBody lowered) →
        ∀ chain ∈ (Scope.ofModule result).chains [], Enclosing.owner? name chain = none := by
  rw [Desugar.run_module, Desugar.run_bind] at ran
  generalize ahead : Lowering.lowerModule options (manglePrivate (takeHints source).2) context _ =
    made at ran
  obtain ⟨failure | ⟨lowered, between⟩, during⟩ := made
  · cases ran
  · refine ⟨_, lowered, between, during, ahead, fun name user other leaves => ?_⟩
    have plain : Stmt.arePlain Stmt.lowered lowered = true :=
      Stmt.arePlain_of_areLowered rfl lowered
        (Lowering.areLowered_of_lowerUntilDone _ (manglePrivate_takeHints_fits source) ahead)
    have left := (Desugar.complete_gives user options plain).holds_of_run ran closures other leaves
    exact left.unowned user

end Unsugar

