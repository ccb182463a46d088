import Unsugar.Proofs.Token.Call

/-! Bounds that are never reached. The rounds of a call and the characters of a string
are counted down from a bound. A reading that does not run out of its bound ends in the
same way under any larger one, and within a text no call runs out. -/

namespace Unsugar.Lexer

open Scanner

variable {α β : Type}

/-- The second reading ends as the first one does, unless that runs out of its bound. -/
def Extends (first second : Lexer α) : Prop :=
  ∀ scanner, second scanner = first scanner ∨
    ∃ position after, first scanner = .error ⟨position, .pastEnd⟩ after

namespace Extends

theorem refl (reading : Lexer α) : Extends reading reading :=
  fun _ => .inl rfl

theorem trans {first second third : Lexer α} (lower : Extends first second)
    (upper : Extends second third) : Extends first third := by
  intro scanner
  rcases lower scanner with same | out
  · rw [← same]
    exact upper scanner
  · exact .inr out

theorem bind {first second : Lexer α} {next other : α → Lexer β} (before : Extends first second)
    (after : ∀ value, Extends (next value) (other value)) :
    Extends (first >>= next) (second >>= other) := by
  intro scanner
  change EStateM.bind second other scanner = EStateM.bind first next scanner ∨
    ∃ position after, EStateM.bind first next scanner = .error ⟨position, .pastEnd⟩ after
  unfold EStateM.bind
  rcases before scanner with same | ⟨position, last, out⟩
  · rw [same]
    cases first scanner with
    | ok value middle => exact after value middle
    | error fault middle => exact .inl rfl
  · rw [out]
    exact .inr ⟨position, last, rfl⟩

/-- What is read first does not depend on the bound. -/
theorem after {reading : Lexer α} {next other : α → Lexer β}
    (rest : ∀ value, Extends (next value) (other value)) :
    Extends (reading >>= next) (reading >>= other) :=
  bind (refl reading) rest

theorem ite {condition : Prop} [Decidable condition] {first second third fourth : Lexer α}
    (whenTrue : Extends first third) (whenFalse : Extends second fourth) :
    Extends (if condition then first else second) (if condition then third else fourth) := by
  split
  case isTrue => exact whenTrue
  case isFalse => exact whenFalse

end Extends

theorem stringBody_extends (start : Position) (quote : Char) (triple : Bool) (fuel : Nat) :
    Extends (stringBody start quote triple fuel) (stringBody start quote triple (fuel + 1)) := by
  induction fuel with
  | zero => exact fun scanner => .inr ⟨scanner.position, scanner, rfl⟩
  | succ fuel induction =>
    have further : ∀ build : List Char → List Char,
        Extends (do return build (← stringBody start quote triple fuel))
          (do return build (← stringBody start quote triple (fuel + 1))) :=
      fun build => induction.bind fun _ => .refl _
    refine .after fun ended => .ite (.refl _) (.after fun char => .after fun closed => ?_)
    refine .ite (.refl _) (.ite (.refl _) (.ite ?_ (further (char :: ·))))
    exact .after fun ended => .ite (.refl _) (.after fun escaped => further (char :: escaped :: ·))

theorem string_extends (start : Position) (marks : List Char) (fuel : Nat) :
    Extends (string start marks fuel) (string start marks (fuel + 1)) := by
  have body := fun quote triple => stringBody_extends start quote triple fuel
  refine .after fun quote => .after fun scanner => .ite (.after fun _ => ?_) ?_
  · exact (body quote _).bind fun _ => .refl _
  · exact (body quote _).bind fun _ => .refl _

theorem wordAt_extends (char : Char) (fuel : Nat) :
    Extends (wordAt char fuel) (wordAt char (fuel + 1)) := by
  refine .after fun scanner => .ite (string_extends _ _ _) (.ite ?_ (.refl _))
  cases marksBeforeQuote? scanner.rest with
  | some count => exact .after fun _ => string_extends _ _ _
  | none => exact .refl _

theorem next_extends (fuel : Nat) : Extends (next fuel) (next (fuel + 1)) := by
  induction fuel with
  | zero => exact fun scanner => .inr ⟨scanner.position, scanner, rfl⟩
  | succ fuel induction =>
    refine .after fun first => .after fun blank => .after fun opened => .ite (.refl _) ?_
    refine .after fun _ => .after fun char => .ite ?_ (.ite ?_ (.ite ?_ (wordAt_extends char fuel)))
    · refine .after fun _ => .after fun scanner => .ite ?_ (.ite ?_ (.refl _))
      · exact .after fun _ => induction
      · exact .after fun _ => induction
    · exact .after fun scanner => .ite (.refl _) (.ite (.after fun _ => induction) (.refl _))
    · exact .after fun _ => .after fun second => .ite (.refl _) (.after fun _ => induction)

theorem next_extends_add (fuel more : Nat) : Extends (next fuel) (next (fuel + more)) := by
  induction more with
  | zero => exact .refl _
  | succ more induction => exact induction.trans (next_extends _)

/-- Within a text a call has the same end under each bound that is large enough. -/
theorem next_eq_of_le {scanner : Scanner} {fuel larger : Nat} (steady : scanner.Steady)
    (enough : scanner.size + 2 ≤ fuel) (le : fuel ≤ larger) :
    next larger scanner = next fuel scanner := by
  obtain ⟨more, rfl⟩ := Nat.exists_eq_add_of_le le
  rcases next_extends_add fuel more scanner with same | ⟨position, after, out⟩
  · exact same
  · have ended := next_ends fuel steady enough
    unfold Ends at ended
    rw [out] at ended
    cases ended.2

end Unsugar.Lexer
