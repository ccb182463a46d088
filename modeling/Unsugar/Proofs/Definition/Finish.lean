import Unsugar.Desugar
import Unsugar.Proofs.Definition.Method
import Unsugar.Proofs.Scope.Unbound

/-! The last changes to a module bind nothing in a function: superfluous statements go,
tests are wrapped, and what is added is added to the module itself. -/

namespace Unsugar
namespace Finish

open Definition (expanded)
open Stmt

variable {name : String}

/-- A body, and its counterpart: what was left to the scopes around it still is. -/
abbrev BodySpared (name : String) : List Stmt → List Stmt → Prop :=
  BodyLinked expanded name (Spares name)

theorem congruence : Pass.Congruence (TestLinked (Spares name)) (BodySpared name)
    (HandlersLinked expanded (Spares name)) :=
  BodyLinked.congruence Spares.additive

theorem unchanged {stmt : Stmt} (simple : stmt.isSimple = true)
    (plain : stmt.isPlain expanded = true) : BodySpared name [stmt] [stmt] :=
  .simple plain rfl (outlines_of_isSimple simple) (outlines_of_isSimple simple) (.same _)

theorem function_spared {decorators : List Expr} {position : Position} {ident : Ident}
    {params : List Param} {result : Option Expr} {body after : List Stmt}
    (plain : Stmt.isPlain expanded (.function decorators position ident params result body) = true)
    (spared : BodySpared name body after) :
    BodySpared name [.function decorators position ident params result body]
      [.function decorators position ident params result after] := by
  refine ⟨⟨?_, ?_⟩, rfl⟩
  · rw [arePlain_cons,
      isPlain_function_congr plain (params_of_isPlain plain) spared.plain]
    rfl
  · simp only [mentionsOfBody, outlinesOfBody, List.append_nil]
    exact .function rfl (fun silent => spared.nonlocals.trans silent) spared.linked

/-! ## Superfluous statements -/

theorem refill_spared {body kept : List Stmt} (spared : BodySpared name body kept) :
    BodySpared name body (refill body kept) := by
  unfold refill
  split
  · rename_i empty
    rw [List.isEmpty_iff.mp empty]
    exact congruence.nil
  · exact spared.orPass

mutual

theorem stripStmt_spared : ∀ stmt : Stmt, stmt.isPlain expanded = true →
    BodySpared name [stmt] [stripStmt stmt]
  | .conditional position test body elsePosition orelse, plain => by
    have parts : (test.isPlain = true ∧ arePlain expanded body = true) ∧
        arePlain expanded orelse = true := by
      simpa [isPlain] using plain
    exact congruence.conditional ⟨parts.1.1, .same _⟩ (refill_spared (strip_spared body parts.1.2))
      (refill_spared (strip_spared orelse parts.2))
  | .whileLoop position test body orelse, plain => by
    have parts : (test.isPlain = true ∧ arePlain expanded body = true) ∧
        arePlain expanded orelse = true := by
      simpa [isPlain] using plain
    exact congruence.whileLoop ⟨parts.1.1, .same _⟩ (refill_spared (strip_spared body parts.1.2))
      (refill_spared (strip_spared orelse parts.2))
  | .tryBlock position body handlers orelse final, plain => by
    have parts : ((arePlain expanded body = true ∧ areHandlersPlain expanded handlers = true) ∧
        arePlain expanded orelse = true) ∧ arePlain expanded final = true := by
      simpa [isPlain] using plain
    exact congruence.tryBlock (refill_spared (strip_spared body parts.1.1.1))
      (stripHandlers_spared handlers parts.1.1.2) (refill_spared (strip_spared orelse parts.1.2))
      (refill_spared (strip_spared final parts.2))
  | .function decorators position ident params result body, plain =>
    function_spared plain (refill_spared (strip_spared body (body_of_isPlain plain)))
  | .expression .., plain | .assign .., plain | .delete .., plain | .branch .., plain
  | .returns .., plain | .raises .., plain | .declare .., plain | .importFrom .., plain =>
    unchanged rfl plain

/-- What is left of a body without its superfluous statements. -/
theorem strip_spared : ∀ body : List Stmt, arePlain expanded body = true →
    BodySpared name body (strip body)
  | [], _ => congruence.nil
  | first :: rest, plain => by
    have parts := Bool.and_eq_true_iff.mp plain
    have below := strip_spared rest parts.2
    rw [strip]
    split
    · rename_i generated
      have gone : BodySpared name [first] [] := by
        cases first with
        | branch => exact ⟨⟨rfl, .same []⟩, rfl⟩
        | _ => cases generated
      exact congruence.append gone below
    · exact congruence.append (stripStmt_spared first parts.1) below

theorem stripHandlers_spared : ∀ handlers : List Handler,
    areHandlersPlain expanded handlers = true →
    HandlersLinked expanded (Spares name) handlers (stripHandlers handlers)
  | [], _ => congruence.handlersNil
  | .mk position none none body :: rest, plain => by
    have parts : arePlain expanded body = true ∧ areHandlersPlain expanded rest = true := by
      simpa [areHandlersPlain] using plain
    exact congruence.handlersCons (refill_spared (strip_spared body parts.1))
      (stripHandlers_spared rest parts.2)

end

/-! ## Tests -/

theorem isPlain_truth {test : Expr} (plain : test.isPlain = true) :
    (truth test).isPlain = true := by
  unfold truth
  split
  · exact plain
  · split
    · exact plain
    · simp [plain]

theorem truthPass_relates : Pass.Relates .ofId expanded truthPass
    (fun _ => TestLinked (Spares name)) (fun _ => BodySpared name)
    (fun _ => HandlersLinked expanded (Spares name)) where
  congruence _ := congruence
  noClasses := rfl
  test _ _ plain := ⟨isPlain_truth plain, .of_told (.load _)⟩
  simple _ _ simple plain := unchanged simple plain
  function _ _ _ _ _ _ _ _ plain below := function_spared plain (below ())

end Finish

/-! ## Modules -/

/-- A module without classes whose functions leave a name to the module. -/
structure LeftToModule (name : String) (body : List Stmt) : Prop where
  plain : Stmt.arePlain Definition.expanded body = true
  unbound : Outline.AllEverywhere (·.Unbound name) (Stmt.outlinesOfBody body)

namespace LeftToModule

variable {name : String} {body after : List Stmt}

theorem spared (left : LeftToModule name body) (spared : Finish.BodySpared name body after) :
    LeftToModule name after :=
  ⟨spared.plain, spared.linked.inner left.unbound⟩

theorem makeTestsExplicit (left : LeftToModule name body) :
    LeftToModule name (makeTestsExplicit body) :=
  left.spared (Pass.body_relates Finish.truthPass_relates () body left.plain)

theorem cleanUpGlobals (left : LeftToModule name body) :
    LeftToModule name (cleanUpGlobals body) := by
  unfold Unsugar.cleanUpGlobals
  split
  · exact left
  · refine ⟨by simp [left.plain], ?_⟩
    rw [Stmt.outlinesOfBody_append, Outline.allEverywhere_append]
    exact ⟨left.unbound, trivial⟩

theorem bindSupport (left : LeftToModule name body) : LeftToModule name (bindSupport body) := by
  unfold Unsugar.bindSupport
  split
  · exact left
  · refine ⟨Stmt.arePlain_insertAt rfl left.plain, ?_⟩
    rw [Stmt.outlinesOfBody_insertAt]
    · exact left.unbound
    · rfl

theorem finish (options : Options) (left : LeftToModule name body) :
    LeftToModule name (Desugar.finish options body) := by
  have optional : ∀ {choice : Bool} {before after : List Stmt}, LeftToModule name before →
      (LeftToModule name before → LeftToModule name after) →
      LeftToModule name (if choice then after else before) := by
    intro choice before after left keeps
    cases choice
    · exact left
    · exact keeps left
  have stripped := left.spared (Finish.strip_spared body left.plain)
  exact optional (optional (optional stripped makeTestsExplicit) cleanUpGlobals) bindSupport

/-- Whatever looks the name up, anywhere in the module, gets to the module. -/
theorem unowned (left : LeftToModule name body) (user : isReserved name = false) :
    ∀ chain ∈ (Scope.ofModule body).chains [], Enclosing.owner? name chain = none :=
  Scope.ofModule_unowned user left.plain left.unbound

end LeftToModule
end Unsugar
