import Unsugar.Proofs.Lowering.Settled
import Unsugar.Proofs.Lowering.Statement

/-! How many passes it takes to lower a module. The first pass reaches the lowered
form, and a second one, if there is one, finds nothing left to do. -/

namespace Unsugar
namespace Lowering

/-- The state in which the next pass starts. -/
def nextPass (context : Context) : Context :=
  { context with passes := context.passes + 1, modified := false }

/-- One round: a pass, and then the remaining ones if a rule applied in it. -/
theorem lowerUntilDone_succ (options : Options) (remaining : Nat) (body : List Stmt)
    (context : Context) (steps : List Step) :
    lowerUntilDone options (remaining + 1) body context steps =
      match lowerBody ⟨options, .moduleFrame⟩ body (nextPass context) steps with
      | (.error reason, later) => (.error reason, later)
      | (.ok (result, found), later) =>
        if found.modified then
          lowerUntilDone options remaining result found (.pass found.passes true :: later)
        else (.ok (result, found), .pass found.passes false :: later) := by
  rw [lowerUntilDone, Desugar.run_bind]
  change (lowerBody ⟨options, .moduleFrame⟩ body >>= _) (nextPass context) steps = _
  rw [Desugar.run_bind]
  rcases lowerBody ⟨options, .moduleFrame⟩ body (nextPass context) steps with
    ⟨reason | ⟨result, found⟩, later⟩
  · rfl
  · obtain ⟨counter, reserved, helpers, functions, passes, modified, nodes⟩ := found
    cases modified <;> rfl

theorem lowerUntilDone_of_areLowered {options : Options} {body : List Stmt} {hinted : Bool}
    (lowered : Stmt.areLowered ⟨options, hinted⟩ body = true) (remaining : Nat)
    (context : Context) (steps : List Step) :
    lowerUntilDone options (remaining + 1) body context steps =
      (.ok (body, nextPass context), .pass (context.passes + 1) false :: steps) := by
  rw [lowerUntilDone_succ, lowerBody_of_areLowered ⟨options, .moduleFrame⟩ rfl body lowered]
  rfl

/-- What the first pass makes of a module is lowered. -/
theorem lowerBody_reaches (options : Options) (body : List Stmt) :
    MakesBody ⟨options, true⟩ (lowerBody ⟨options, .moduleFrame⟩ body) :=
  lowerBody_makes ⟨options, .moduleFrame⟩ rfl body (Stmt.hintsFitBody_of_hinted rfl body)

/-- What lowering makes of a module is lowered, and has no hints if the module has none. -/
theorem areLowered_of_lowerUntilDone {options : Options} {hinted : Bool} {source body : List Stmt}
    {context after : Context} {steps later : List Step} (remaining : Nat)
    (fits : Stmt.hintsFitBody ⟨options, hinted⟩ source = true)
    (run : lowerUntilDone options remaining source context steps = (.ok (body, after), later)) :
    Stmt.areLowered ⟨options, hinted⟩ body = true := by
  have makes : MakesBody ⟨options, hinted⟩ (lowerBody ⟨options, .moduleFrame⟩ source) :=
    lowerBody_makes ⟨options, .moduleFrame⟩ rfl source fits
  have ended := makes (nextPass context) steps
  cases remaining with
  | zero => cases run
  | succ remaining =>
    rw [lowerUntilDone_succ] at run
    revert ended run
    rcases lowerBody ⟨options, .moduleFrame⟩ source (nextPass context) steps with
      ⟨reason | ⟨result, found⟩, last⟩ <;> intro ended run
    · cases run
    · have lowered : Stmt.areLowered ⟨options, hinted⟩ result = true :=
        Stmt.areLowered_iff.mpr ended.1
      simp only at run
      split at run
      · cases remaining with
        | zero => cases run
        | succ remaining =>
          rw [lowerUntilDone_of_areLowered lowered] at run
          cases run
          exact lowered
      · cases run
        exact lowered

/-- Lowering a module in a state in which no pass was made is refused, or ends
after one pass in which no rule applied, or after two: what the first pass makes of
the module is the result, which has the lowered form, and no rule applies to it any
more, whatever is around it. -/
theorem lowerModule_converges (options : Options) (source body : List Stmt)
    (steps : List Step) :
    match lowerModule options body (.ofModule source) steps with
    | (.error reason, _) => ∃ position construct, reason = .unsupported position construct
    | (.ok (result, after), _) =>
      (∃ found later, lowerBody ⟨options, .moduleFrame⟩ body (nextPass (.ofModule source)) steps =
        (.ok (result, found), later) ∧ after.passes = if found.modified then 2 else 1) ∧
      Stmt.areLowered ⟨options, true⟩ result = true ∧
      ∀ frame, lowerBody ⟨options, frame⟩ result = pure result := by
  have unfolded : lowerModule options body (.ofModule source) steps =
      lowerUntilDone options (7 + 1) body (.ofModule source) steps := rfl
  have ended := lowerBody_reaches options body (nextPass (.ofModule source)) steps
  rw [unfolded, lowerUntilDone_succ]
  revert ended
  rcases lowerBody ⟨options, .moduleFrame⟩ body (nextPass (.ofModule source)) steps with
    ⟨reason | ⟨result, found⟩, later⟩ <;> intro ended
  · cases reason with
    | unsupported position construct => exact ⟨position, construct, rfl⟩
    | _ => exact ended.elim
  · have lowered : Stmt.areLowered ⟨options, true⟩ result = true :=
      Stmt.areLowered_iff.mpr ended.1
    have settled : ∀ frame, lowerBody ⟨options, frame⟩ result = pure result :=
      fun frame => lowerBody_of_areLowered ⟨options, frame⟩ rfl result lowered
    have first : found.passes = 1 := ended.2
    cases modified : found.modified with
    | true =>
      simp only [modified, if_true, lowerUntilDone_of_areLowered lowered]
      refine ⟨⟨found, later, rfl, ?_⟩, lowered, settled⟩
      simp [modified, nextPass, first]
    | false =>
      simp only [modified]
      exact ⟨⟨found, later, rfl, by simp [modified, first]⟩, lowered, settled⟩

end Lowering
end Unsugar
