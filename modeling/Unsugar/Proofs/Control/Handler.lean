import Unsugar.Lowering.Statement
import Unsugar.Proofs.Control.Basic
import Unsugar.Proofs.Lowering.Settled

/-! Typed handlers. The choice that a single bare handler makes between them does
what they do: types are evaluated one after the other, the first handler whose type
takes the exception is run, and the exception goes on if there is none. -/

namespace Unsugar

/-! ## The choice as statements -/

namespace Lowering

/-- A handler whose parts stay as they are. -/
def Catch.ofHandler : Handler → Catch
  | .mk position type ident body => ⟨position, type.map pure, ident, pure body⟩

/-- The choice between handlers whose parts stay as they are. -/
def choiceAmong : List Handler → List Stmt
  | [] => [.raises .unknown none none]
  | .mk _ none _ body :: _ => body
  | .mk position (some type) ident body :: rest =>
    [.conditional position (.supportCall "exception_matches" [currentException, type])
      (namingException ident position body) .unknown (choiceAmong rest)]

theorem choosingHandler_ofHandlers (handlers : List Handler) :
    choosingHandler (handlers.map .ofHandler) = pure (choiceAmong handlers) := by
  induction handlers with
  | nil => rfl
  | cons handler rest induction =>
    obtain ⟨position, type, ident, body⟩ := handler
    cases type with
    | none => rfl
    | some type =>
      have test : supporting "exception_matches" [pure currentException, pure type] =
          pure (.supportCall "exception_matches" [currentException, type]) :=
        supporting_pure _ [currentException, type]
      rw [List.map_cons, Catch.ofHandler, Option.map_some, choosingHandler, test, induction,
        pure_bind]
      rfl

end Lowering

/-! ## Handlers that name their exception -/

namespace Action

variable {State Value : Type}

/-- Errors that no handler takes go on. -/
theorem catching_raises (body : Action State (Interruption Value) Unit) :
    catching body (fun error => ofResult (.error (.raises error))) (pure ()) = body := by
  have goesOn : caught (fun error => ofResult (.error (.raises error))) (pure ()) =
      (ofResult : _ → Action State (Interruption Value) Unit) := by
    funext ended
    rcases ended with (_ | _ | _ | _) | _
    all_goals rfl
  rw [catching_eq_followed, goesOn, followed_ofResult]

end Action

namespace Language

open Lowering

variable {Value Memory : Type} (language : Language Value Memory) {hidden : List String}

/-- Deleting a name that has just been given a value leaves it without one. -/
theorem runAll_store_drop (name : String) (handled : Option Value) :
    language.runAll hidden [.store name .absent, .drop name] handled =
      Action.setting hidden name none := by
  have drops : language.run hidden (.drop name) handled =
      Action.raising (language.drop hidden name) := rfl
  calc language.runAll hidden [.store name .absent, .drop name] handled
      = (do
          Action.setting hidden name (some (language.constant .none))
          let _ ← Action.raising (language.load hidden name)
          Action.setting hidden name none) := by
        simp only [runAll, run_store, drops, eval_absent, drop, pure_bind, bind_pure_unit,
          Action.raising_bind, Action.raising_setting]
    _ = (do
          Action.setting hidden name (some (language.constant .none))
          Action.setting hidden name none) :=
        language.setting_load name _ fun _ => Action.setting hidden name none
    _ = Action.setting hidden name none := Action.setting_setting _ _

theorem eval_currentException (error : Value) :
    language.eval hidden (some error) currentException = pure error := by
  rw [currentException, eval_supportCall, evalAll, pure_bind]
  rfl

theorem runAll_namingException (ident : Option Ident) (position : Position) (body : List Stmt)
    (error : Value) :
    language.runAll hidden (namingException ident position body) (some error) =
      naming hidden ident error (language.runAll hidden body (some error)) := by
  cases ident with
  | none => rfl
  | some ident =>
    have bound : language.run hidden (.store ident.name currentException) (some error) =
        Action.setting hidden ident.name (some error) := by
      rw [run_store, eval_currentException, pure_bind, Action.raising_setting]
    have unbound : language.run hidden (.tryBlock position body [] []
          [.store ident.name .absent, .drop ident.name]) (some error) =
        Action.ensuring (language.runAll hidden body (some error)) fun _ =>
          Action.setting hidden ident.name none := by
      rw [run]
      simp only [runAll_store_drop]
      exact congrArg (Action.ensuring · _) (Action.catching_raises _)
    simp only [namingException, runAll, bound, unbound, naming, bind_pure_unit]

/-! ## The choice -/

/-- A test for the type of an exception evaluates the type, and asks for no more. -/
theorem holds_exceptionMatches (error : Value) (type : Expr) :
    language.holds hidden (some error)
        (.supportCall "exception_matches" [currentException, type]) = (do
      let type ← language.eval hidden (some error) type
      Action.ofVisible (language.catches error type)) := by
  simp only [holds, eval_supportCall, evalAll, eval_currentException, pure_bind, bind_assoc,
    perform, holds_boolean, bind_pure]

theorem runAll_choiceAmong (error : Value) : ∀ handlers : List Handler,
    language.runAll hidden (choiceAmong handlers) (some error) =
      language.runHandlers hidden handlers error
  | [] => by
    simp only [choiceAmong, runAll, run, runHandlers, bind_pure_unit, Option.getD_some]
  | .mk _ none _ body :: _ => by rw [choiceAmong, runHandlers]
  | .mk position (some type) ident body :: rest => by
    have later := runAll_choiceAmong error rest
    simp only [choiceAmong, runAll, run, runHandlers, holds_exceptionMatches,
      runAll_namingException, later, Action.raising_bind, bind_assoc, bind_pure_unit]

end Language

/-! ## The whole statement -/

namespace Lowering

/-- A statement with typed handlers becomes one with a single bare handler, and does
the same in every language: the types of the handlers are evaluated in order and no
further than the first that takes the exception, its handler alone is run, an
exception that none takes goes on, what handlers raise is not caught by others, and
the name of the exception has no value afterwards. The other clauses are kept. -/
theorem catching_keeps_meaning (position : Position) (body : List Stmt) (handlers : List Handler)
    (orelse final : List Stmt) :
    ∃ chosen,
      catching position (return body) (handlers.map .ofHandler) (return orelse) (return final) = (do
        Desugar.apply .tryBlock .visit position
        return [.tryBlock position body [.mk .unknown none none chosen] orelse final]) ∧
      ∀ {Value Memory : Type} (language : Language Value Memory) (hidden : List String)
        (handled : Option Value),
        language.run hidden (.tryBlock position body [.mk .unknown none none chosen] orelse final)
          handled =
        language.run hidden (.tryBlock position body handlers orelse final) handled := by
  refine ⟨choiceAmong handlers, ?_, ?_⟩
  · simp only [catching, choosingHandler_ofHandlers, pure_bind]
  · intro Value Memory language hidden handled
    have chosen : ∀ error, language.runHandlers hidden
        [.mk .unknown none none (choiceAmong handlers)] error =
        language.runHandlers hidden handlers error := fun error => by
      rw [Language.runHandlers, language.runAll_choiceAmong]
    simp only [Language.run, chosen]

end Lowering
end Unsugar
