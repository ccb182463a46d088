import Unsugar.Grammar.Statement
import Unsugar.Proofs.Grammar.Grammatical

/-! What parsers give. A judgement says what holds of each value that a parser gives; it
follows a parser through its steps, and says nothing about the texts that are refused. -/

namespace Unsugar
namespace Parser

variable {α β σ : Type} {holds : α → Prop} {result : β → Prop}

/-- Each value that a parser gives has a property. -/
def Yields (holds : α → Prop) (parser : Parser α) : Prop :=
  ∀ cursor, match parser cursor with
    | .ok value _ => holds value
    | .error .. => True

namespace Yields

theorem pure {value : α} (valid : holds value) : Yields holds (Pure.pure value : Parser α) :=
  fun _ => valid

theorem bind {parser : Parser α} {next : α → Parser β} (first : Yields holds parser)
    (rest : ∀ value, holds value → Yields result (next value)) :
    Yields result (parser >>= next) := by
  intro cursor
  have given := first cursor
  change match EStateM.bind parser next cursor with
    | .ok value _ => result value
    | .error .. => True
  unfold EStateM.bind
  revert given
  cases parser cursor with
  | ok value after => exact fun given => rest value given after
  | error fault after => exact fun _ => trivial

theorem known {value : α} {next : α → Parser β} (rest : Yields result (next value)) :
    Yields result (Pure.pure value >>= next) := by
  rw [pure_bind]
  exact rest

/-- Whatever a parser gives, what comes after it decides. -/
theorem after {parser : Parser α} {next : α → Parser β}
    (rest : ∀ value, Yields result (next value)) : Yields result (parser >>= next) := by
  have any : Yields (fun _ => True) parser := by
    intro cursor
    cases parser cursor <;> trivial
  exact any.bind fun value _ => rest value

theorem map {parser : Parser α} {change : α → β} (given : Yields holds parser)
    (implies : ∀ value, holds value → result (change value)) :
    Yields result (change <$> parser) := by
  rw [map_eq_pure_bind]
  exact given.bind fun value valid => .pure (implies value valid)

theorem imp {parser : Parser α} {weaker : α → Prop} (given : Yields holds parser)
    (implies : ∀ value, holds value → weaker value) : Yields weaker parser := by
  rw [← bind_pure parser]
  exact given.bind fun value valid => .pure (implies value valid)

theorem ite {condition : Prop} [Decidable condition] {first second : Parser α}
    (whenTrue : Yields holds first) (whenFalse : Yields holds second) :
    Yields holds (if condition then first else second) := by
  split
  · exact whenTrue
  · exact whenFalse

theorem complain (complaint : Complaint) : Yields holds (Parser.complain complaint) :=
  fun _ => trivial

theorem complainAt (position : Position) (complaint : Complaint) :
    Yields holds (Parser.complainAt position complaint) :=
  fun _ => trivial

/-- Nothing comes after a complaint. -/
theorem halt (complaint : Complaint) {next : α → Parser β} :
    Yields result (Parser.complain complaint >>= next) :=
  fun _ => trivial

theorem stop (position : Position) (complaint : Complaint) {next : α → Parser β} :
    Yields result (Parser.complainAt position complaint >>= next) :=
  fun _ => trivial

theorem unexpected (want : Wanted) : Yields holds (Parser.unexpected want) :=
  after fun _ => complain _

theorem demandNone (fault? : Option Fault) :
    Yields (fun _ => fault?.isNone = true) (Grammar.demandNone fault?) := by
  cases fault? with
  | none => exact .pure rfl
  | some fault => exact fun _ => trivial

/-- What holds at the start and after each step holds at the end. -/
theorem repeating (holds : σ → Prop) {state : σ} {step : σ → Parser (Option σ)}
    (start : holds state)
    (steps : ∀ state, holds state → Yields (∀ next ∈ ·, holds next) (step state)) :
    Yields holds (Parser.repeating state step) := by
  have iterates : ∀ fuel state, holds state → Yields holds (Parser.iterate step fuel state) := by
    intro fuel
    induction fuel with
    | zero => exact fun _ _ => complain _
    | succ fuel induction =>
      intro state valid
      refine (steps state valid).bind fun next given => ?_
      cases next with
      | none => exact .pure valid
      | some next => exact induction next (given next rfl)
  exact after fun cursor => iterates cursor.bound state start

/-- One more item, made of what a parser gives, of a list that is read from left to
right. -/
theorem moreOf {items : List β} {parser : Parser α} {build : α → β}
    (each : ∀ item ∈ items, result item) (given : Yields holds parser)
    (builds : ∀ value, holds value → result (build value)) :
    Yields (∀ next ∈ ·, ∀ item ∈ next, result item)
      (do return some (build (← parser) :: items)) := by
  refine given.bind fun value valid => .pure ?_
  rintro _ ⟨⟩
  exact List.forall_mem_cons.mpr ⟨builds value valid, each⟩

theorem more {items : List α} {parser : Parser α} (each : ∀ item ∈ items, holds item)
    (given : Yields holds parser) :
    Yields (∀ next ∈ ·, ∀ item ∈ next, holds item) (do return some ((← parser) :: items)) :=
  moreOf each given fun _ valid => valid

/-- The end of a list. -/
theorem done {holds : σ → Prop} : Yields (∀ next ∈ ·, holds next)
    (Pure.pure none : Parser (Option σ)) :=
  .pure (by simp)

end Yields

/-- What a parser gives has its property when it is run over a text. -/
theorem Yields.of_run {parser : Parser α} (given : Yields holds parser) {scanner : Scanner}
    {value : α} (run : (Cursor.run parser scanner).1 = .ok value) : holds value := by
  have entered : ∀ cursor : Cursor, (match parser cursor with
      | .ok value cursor => (Except.ok value, cursor.after)
      | .error fault cursor => (Except.error fault, cursor.after)).1 = .ok value → holds value := by
    intro cursor found
    have ended := given cursor
    revert ended found
    cases parser cursor with
    | ok value after =>
      rintro ⟨⟩ ended
      exact ended
    | error fault after => rintro ⟨⟩
  unfold Cursor.run at run
  split at run
  · cases run
  · exact entered _ run
  · exact entered _ run

/-- A parser of grammatical expressions. -/
abbrev GivesGrammatical (parser : Parser Expr) : Prop :=
  Yields (·.isGrammatical = true) parser

end Parser
end Unsugar
