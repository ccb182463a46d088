import Unsugar.Proofs.Grammar.Yield

/-! The parts of a parsed formatted string are texts and replacement fields, and all of
them are grammatical. -/

namespace Unsugar.Grammar

/-- Each value that a step of reading a formatted string gives has a property. -/
def Reads {α : Type} (holds : α → Prop) (step : Except Complaint α) : Prop :=
  ∀ value, step = .ok value → holds value

namespace Reads

variable {α β : Type} {holds : α → Prop} {result : β → Prop}

theorem pure {value : α} (valid : holds value) : Reads holds (Pure.pure value) := by
  rintro _ ⟨⟩
  exact valid

theorem throw (complaint : Complaint) : Reads holds (throw complaint) := by
  rintro _ ⟨⟩

theorem known {value : α} {next : α → Except Complaint β} (rest : Reads result (next value)) :
    Reads result (Pure.pure value >>= next) :=
  rest

/-- Nothing comes after a complaint. -/
theorem stop (complaint : Complaint) {next : α → Except Complaint β} :
    Reads result (MonadExcept.throw complaint >>= next) := by
  rintro _ ⟨⟩

theorem bind {step : Except Complaint α} {next : α → Except Complaint β} (first : Reads holds step)
    (rest : ∀ value, holds value → Reads result (next value)) : Reads result (step >>= next) := by
  cases step with
  | error complaint => rintro _ ⟨⟩
  | ok value => exact rest value (first value rfl)

theorem ite {condition : Prop} [Decidable condition] {first second : Except Complaint α}
    (whenTrue : Reads holds first) (whenFalse : Reads holds second) :
    Reads holds (if condition then first else second) := by
  split
  · exact whenTrue
  · exact whenFalse

theorem after {step : Except Complaint α} {next : α → Except Complaint β}
    (rest : ∀ value, Reads result (next value)) : Reads result (step >>= next) := by
  have any : Reads (fun _ => True) step := fun _ _ => trivial
  exact any.bind fun value _ => rest value

end Reads

/-- A part of a formatted string that is grammatical. -/
def IsGoodPart (part : Expr) : Prop :=
  part.isPart = true ∧ part.isGrammatical = true

theorem mergeTexts_good : ∀ {parts : List Expr}, (∀ part ∈ parts, IsGoodPart part) →
    ∀ part ∈ mergeTexts parts, IsGoodPart part
  | [], _ => by simp [mergeTexts]
  | first :: rest, each => by
    obtain ⟨here, later⟩ := List.forall_mem_cons.mp each
    have merged := mergeTexts_good later
    have isText : ∀ position raw text, IsGoodPart (.literal position raw (.text text)) :=
      fun _ _ _ => ⟨rfl, rfl⟩
    cases first with
    | literal position raw constant =>
      cases constant with
      | text value =>
        rw [mergeTexts]
        split
        · rename_i found
          obtain ⟨next, tail⟩ := List.forall_mem_cons.mp (found ▸ merged)
          split
          · exact List.forall_mem_cons.mpr ⟨next, tail⟩
          · exact List.forall_mem_cons.mpr ⟨isText _ _ _, tail⟩
        · split
          · exact merged
          · exact List.forall_mem_cons.mpr ⟨isText _ _ _, merged⟩
      | _ => exact List.forall_mem_cons.mpr ⟨here, merged⟩
    | _ => exact List.forall_mem_cons.mpr ⟨here, merged⟩

theorem fstring_grammatical {parts : List Expr} (each : ∀ part ∈ parts, IsGoodPart part)
    (position : Position) (raw : String) :
    (Expr.fstring position raw (mergeTexts parts)).isGrammatical = true := by
  have merged := mergeTexts_good each
  simp only [Expr.isGrammatical, Bool.and_eq_true, List.all_eq_true]
  exact ⟨fun part member => (merged part member).1,
    Expr.areGrammatical_iff.mpr fun part member => (merged part member).2⟩

theorem textPart_good (position : Position) (plain : Bool) (text : List Char) :
    Reads (∀ part ∈ ·, IsGoodPart part) (textPart position plain text) := by
  unfold textPart
  split
  · exact .pure (by simp)
  · split
    · exact .pure (by simp [IsGoodPart, Expr.isPart, Expr.isGrammatical])
    · exact .throw _

theorem field_good {position : Position} {readValue : FieldReader} {readSpec : SpecReader}
    (values : ∀ text, Reads (·.isGrammatical = true) (readValue text))
    (specs : ∀ text, Reads (∀ part ∈ ·, IsGoodPart part) (readSpec text)) (chars : List Char) :
    Reads (∀ part ∈ ·.1, IsGoodPart part) (Grammar.field position readValue readSpec chars) := by
  have finished : ∀ (shows : Bool) (text : List Char) {value : Expr} {spec : Option Expr}
      (conversion : Option Conversion), value.isGrammatical = true →
      Expr.isGrammaticalOption spec = true →
      ∀ part ∈ (if shows then [Expr.literal position "" (.text (String.ofList (text ++ ['='])))]
        else []) ++ [.field position value conversion spec], IsGoodPart part := by
    intro shows text value spec conversion valueValid specValid part member
    have isField : IsGoodPart (.field position value conversion spec) :=
      ⟨rfl, by simp [Expr.isGrammatical, valueValid, specValid]⟩
    cases shows with
    | true =>
      rcases List.mem_append.mp member with label | field
      · rw [List.mem_singleton.mp label]
        exact ⟨rfl, rfl⟩
      · exact List.mem_singleton.mp field ▸ isField
    | false => exact List.mem_singleton.mp member ▸ isField
  unfold Grammar.field
  split
  · refine .ite (.stop _) ((values _).bind fun value valueValid => ?_)
    -- Whether there is a conversion or not, the format comes next, and then the brace.
    refine .ite ?_ (.after fun _ => .ite ?_ ?_)
    · split
      · refine .after fun _ => .ite ?_ (.known (.ite (.stop _) (.pure ?_)))
        · split
          · refine (specs _).bind fun parts good => .known (.ite (.stop _) (.pure ?_))
            exact finished _ _ _ valueValid (fstring_grammatical good position "")
          · exact .stop _
        · exact finished _ _ _ valueValid rfl
      · exact .stop _
    · split
      · refine (specs _).bind fun parts good => .known (.ite (.stop _) (.pure ?_))
        exact finished _ _ _ valueValid (fstring_grammatical good position "")
      · exact .stop _
    · exact .known (.ite (.stop _) (.pure (finished _ _ _ valueValid rfl)))
  · exact .throw _

theorem parts_good {position : Position} {plain nests : Bool} {readValue : FieldReader}
    {readSpec : SpecReader} (values : ∀ text, Reads (·.isGrammatical = true) (readValue text))
    (specs : ∀ text, Reads (∀ part ∈ ·, IsGoodPart part) (readSpec text)) :
    ∀ (fuel : Nat) (chars : List Char), Reads (∀ part ∈ ·, IsGoodPart part)
      (Grammar.parts position plain nests readValue readSpec fuel chars)
  | 0, _ => .throw _
  | fuel + 1, chars => by
    refine .after fun (text, rest) => .ite (textPart_good _ _ _) (.ite (.stop _) ?_)
    refine (textPart_good _ _ _).bind fun before beforeGood => ?_
    refine (field_good values specs _).bind fun (here, rest) hereGood => ?_
    refine (parts_good values specs fuel _).bind fun after afterGood => .pure ?_
    simpa [or_imp, forall_and] using ⟨beforeGood, hereGood, afterGood⟩

theorem body_good {position : Position} {plain : Bool} {readValue : FieldReader}
    (values : ∀ text, Reads (·.isGrammatical = true) (readValue text)) :
    ∀ (levels : Nat) (chars : List Char), Reads (∀ part ∈ ·, IsGoodPart part)
      (Grammar.body position plain readValue levels chars)
  | 0, _ => parts_good values (fun _ => .throw _) _ _
  | levels + 1, _ => parts_good values (body_good values levels) _ _

theorem formattedString_good {position : Position} {plain : Bool} {readValue : FieldReader}
    (values : ∀ text, Reads (·.isGrammatical = true) (readValue text)) (chars : List Char) :
    Reads (∀ part ∈ ·, IsGoodPart part) (formattedString position plain readValue chars) := by
  rw [formattedString, map_eq_pure_bind]
  exact (body_good values 2 chars).bind fun parts good => .pure (mergeTexts_good good)

theorem allParts_good {read : StringsRead} (each : ∀ part ∈ read.parts, IsGoodPart part) :
    ∀ part ∈ read.allParts, IsGoodPart part := by
  have isText : IsGoodPart (.literal .unknown "" (.text read.text)) := ⟨rfl, rfl⟩
  unfold StringsRead.allParts
  split
  · exact each
  · exact List.forall_mem_append.mpr ⟨each, by simpa using isText⟩

end Unsugar.Grammar
