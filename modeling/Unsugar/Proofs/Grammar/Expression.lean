import Unsugar.Proofs.Grammar.FormattedString

/-! Parsed expressions are grammatical, one production at a time. -/

namespace Unsugar.Grammar

open Unsugar.Parser

variable {self : Productions}

/-- Items separated by commas, the last one first. -/
theorem items_grammatical {first : Expr} (valid : first.isGrammatical = true)
    {step : List Expr → Parser (Option (List Expr))}
    (steps : ∀ items : List Expr, (∀ item ∈ items, item.isGrammatical = true) →
      Yields (∀ next ∈ ·, ∀ item ∈ next, item.isGrammatical = true) (step items)) :
    Yields (Expr.areGrammatical ·.reverse = true) (repeating [first] step) := by
  refine (Yields.repeating _ (by simpa using valid) steps).imp fun items each => ?_
  exact Expr.areGrammatical_iff.mpr (by simpa using each)

section Parts

variable (given : ∀ goal, GivesGrammatical (self goal))

include given

/-! ## Parts of expressions -/

theorem starOrTest_grammatical : GivesGrammatical (starOrTest self) :=
  .after fun _ => .ite (.after fun _ => (given _).bind fun _ valid => .pure valid) (given _)

theorem expressionList_grammatical : GivesGrammatical (expressionList self) := by
  refine (starOrTest_grammatical given).bind fun first valid => ?_
  refine .after fun _ => .ite (.pure valid) ?_
  refine (items_grammatical valid fun items each => ?_).bind fun _ each => .pure each
  exact .after fun _ => .after fun _ => .ite .done (.more each (starOrTest_grammatical given))

theorem namedTest_grammatical : GivesGrammatical (namedTest self) := by
  refine (given _).bind fun value valid => .after fun _ => .ite ?_ (.pure valid)
  cases value with
  | name position id => exact .after fun _ => (given _).bind fun _ valid => .pure valid
  | _ => exact .after fun _ => .pure valid

theorem namedOrStar_grammatical : GivesGrammatical (namedOrStar self) :=
  .after fun _ => .ite (starOrTest_grammatical given) (namedTest_grammatical given)

theorem displayTail_grammatical {first : Expr} (valid : first.isGrammatical = true)
    (closing : Symbol) :
    Yields (Expr.areGrammatical · = true) (displayTail self first closing) := by
  refine (items_grammatical valid fun items each => ?_).bind fun _ each => .pure each
  exact .after fun _ => .ite .done <| .after fun _ => .ite .done <|
    .more each (namedOrStar_grammatical given)

theorem yieldExpression_grammatical : GivesGrammatical (yieldExpression self) := by
  refine .after fun _ => .after fun _ => .ite ?_ (.after fun _ => .ite (.pure rfl) ?_)
  · exact (given _).bind fun _ valid => .pure valid
  · exact (expressionList_grammatical given).bind fun _ valid => .pure valid

theorem target_grammatical : GivesGrammatical (target self) :=
  .after fun _ => .ite (.after fun _ => (given _).bind fun _ valid => .pure valid) (given _)

theorem loopTarget_grammatical :
    Yields (Expr.isGrammaticalTarget false · = true) (loopTarget self) := by
  have checked : ∀ whole : Expr, whole.isGrammatical = true →
      Yields (Expr.isGrammaticalTarget false · = true)
        (do demandNone (targetFault false whole); return whole) := fun whole valid =>
    (Yields.demandNone _).bind fun _ none => .pure (by simp [Expr.isGrammaticalTarget, none, valid])
  refine (target_grammatical given).bind fun first valid => .after fun _ => ?_
  refine .ite ?_ (checked first valid)
  refine (items_grammatical valid fun items each => ?_).bind fun items each => checked _ each
  exact .after fun _ => .ite .done <| .after fun _ => .ite .done <|
    .more each (target_grammatical given)

theorem comprehension_grammatical (kind : ComprehensionKind) (opening : Position) {body : Expr}
    (closing : Symbol) (valid : body.isGrammatical = true) (fits : body.fitsKind kind = true) :
    GivesGrammatical (Grammar.comprehension self kind opening body closing) := by
  have clauses : ∀ clauses : List Clause, (∀ clause ∈ clauses, clause.isGrammatical = true) →
      ∀ closes,
        GivesGrammatical (return .comprehension kind opening body clauses.reverse closes) := by
    intro clauses each closes
    have reversed : Expr.areClausesGrammatical clauses.reverse = true :=
      Expr.areClausesGrammatical_iff.mpr (by simpa using each)
    exact .pure (by simp [Expr.isGrammatical, fits, valid, reversed])
  unfold Grammar.comprehension
  cases body.starPosition? with
  | some position => exact .stop _ _
  | none =>
    refine (Yields.repeating (∀ clause ∈ ·, Clause.isGrammatical clause = true) (by simp)
      fun items each => .after fun _ => .ite .done <| .after fun _ => ?_).bind
      fun items each => .ite ?_ ?_
    · split
      · refine .after fun _ => (loopTarget_grammatical given).bind fun target isTarget => ?_
        refine .after fun _ => .moreOf each (given _) fun iterable valid => ?_
        simp [Clause.isGrammatical, isTarget, valid]
      · exact .after fun _ => .moreOf each (given _) fun _ valid => valid
      · exact .complain _
      · exact .ite (.stop _ _) (.unexpected _)
    · exact .after fun closes => clauses items each closes
    · exact clauses items each _

/-! ## Parameters and arguments -/

omit given in
/-- A hint is what its parser gives, or there is none. -/
theorem typeHint_grammatical {parser : Parser Expr} (valid : GivesGrammatical parser)
    (hinted : Bool) : Yields (Expr.isGrammaticalOption · = true) (typeHint hinted parser) :=
  .after fun _ => .ite (.after fun _ => valid.bind fun _ valid => .pure valid) (.pure rfl)

theorem param_grammatical (hinted : Bool) :
    Yields (·.isGrammatical = true) (param self hinted) := by
  have whole : ∀ kind position ident {hint default}, Expr.isGrammaticalOption hint = true →
      Expr.isGrammaticalOption default = true →
      (Param.mk kind position ident hint default).isGrammatical = true := by
    intro kind position ident hint default hintValid defaultValid
    simp [Param.isGrammatical, Param.hint, Param.default, hintValid, defaultValid]
  have hints : Yields (Expr.isGrammaticalOption · = true) (typeHint hinted (self .test)) :=
    typeHint_grammatical (given _) hinted
  refine .after fun _ => ?_
  split
  · exact .after fun _ => .pure rfl
  · refine .after fun _ => .after fun _ => ?_
    split
    · refine .after fun _ => ?_
      exact (typeHint_grammatical (starOrTest_grammatical given) hinted).bind fun _ valid =>
        .pure (whole _ _ _ valid rfl)
    · exact .pure rfl
  · exact .after fun _ => .after fun _ => hints.bind fun _ valid => .pure (whole _ _ _ valid rfl)
  · refine .after fun _ => hints.bind fun hint hintValid => .after fun _ => .ite ?_ ?_
    · exact ((given _).map fun _ valid => valid).bind fun _ valid =>
        .pure (whole _ _ _ hintValid valid)
    · exact .known (.pure (whole _ _ _ hintValid rfl))

theorem params_grammatical (closing : Symbol) (hinted : Bool) :
    Yields (Expr.areParamsGrammatical · = true) (params self closing hinted) := by
  refine (Yields.repeating (∀ item ∈ ·.1, item.isGrammatical = true) (by simp)
    fun read each => ?_).bind fun read each => .after fun _ => .pure ?_
  · obtain ⟨items, more⟩ := read
    refine .after fun _ => .ite .done ?_
    refine (param_grammatical given hinted).bind fun item valid => .after fun _ => .pure ?_
    rintro _ ⟨⟩
    exact List.forall_mem_cons.mpr ⟨valid, each⟩
  · exact Expr.areParamsGrammatical_iff.mpr (by simpa using each)

/-- Arguments that are read so far, all grammatical. -/
structure ArgumentsRead.Grammatical (read : ArgumentsRead) : Prop where
  items : ∀ item ∈ read.items, item.isGrammatical = true
  generator : ∀ generator ∈ read.generator, generator.isGrammatical = true

theorem argument_grammatical {read : ArgumentsRead} (before : read.Grammatical) :
    Yields ArgumentsRead.Grammatical (argument self read) := by
  have add : ∀ item : Expr, item.isGrammatical = true → ∀ more,
      ArgumentsRead.Grammatical { read with items := item :: read.items, more } :=
    fun item valid _ => ⟨List.forall_mem_cons.mpr ⟨valid, before.items⟩, before.generator⟩
  refine .after fun _ => ?_
  split
  · refine .after fun _ => (given _).bind fun value valid => ?_
    exact .after fun _ => .pure (add (.starred _ _ value) valid _)
  · refine .after fun _ => (given _).bind fun value valid => ?_
    exact .after fun _ => .pure (add (.starred _ _ value) valid _)
  · refine (namedTest_grammatical given).bind fun value valid => .after fun _ => ?_
    split
    · split
      · refine .after fun _ => (given _).bind fun value valid => ?_
        exact .after fun _ => .pure (add (.keyword _ _ value) valid _)
      · exact .complainAt _ _
    · refine .ite (.stop _ _) ?_
      refine (comprehension_grammatical given .generator .unknown _ valid rfl).bind
        fun generator valid => .pure ⟨before.items, ?_⟩
      rintro _ ⟨⟩
      exact valid
    · exact .after fun _ => .pure (add _ valid _)

theorem arguments_grammatical : Yields (Expr.areGrammatical · = true) (arguments self) := by
  refine (Yields.repeating ArgumentsRead.Grammatical ⟨by simp, by simp⟩ fun read before => ?_).bind
    fun read valid => ?_
  · refine .after fun _ => .ite .done ?_
    refine (argument_grammatical given before).bind fun read valid => .pure ?_
    rintro _ ⟨⟩
    exact valid
  · split
    · rename_i generator found
      exact .pure (by simpa [Expr.areGrammatical] using valid.generator generator found)
    · exact .after fun _ => .pure (Expr.areGrammatical_iff.mpr (by simpa using valid.items))

/-! ## Strings -/

theorem fieldValue_grammatical (position : Position) (text : List Char) :
    Reads (·.isGrammatical = true) (fieldValue self position text) := by
  unfold fieldValue
  extract_lets scanner placed whole
  have wholeValid : GivesGrammatical whole := by
    refine (given _).bind fun value valid => .after fun _ => .ite (.after fun _ => ?_) ?_
    · exact .after fun _ => .ite (.after fun _ => .pure valid) (.pure valid)
    · exact .after fun _ => .ite (.after fun _ => .pure valid) (.pure valid)
  split
  · rename_i value ended
    exact .pure (Yields.of_run wholeValid ended)
  · exact .throw _

theorem stringAfter_good (inBytes : Bool) {read : StringsRead}
    (before : ∀ part ∈ read.parts, IsGoodPart part) :
    Yields (∀ next ∈ ·, ∀ part ∈ next.parts, IsGoodPart part) (stringAfter self inBytes read) := by
  have step : ∀ next : StringsRead, (∀ part ∈ next.parts, IsGoodPart part) →
      Yields (∀ next ∈ ·, ∀ part ∈ next.parts, IsGoodPart part)
        (advance >>= fun _ => pure (some next)) := by
    intro next each
    refine .after fun _ => .pure ?_
    rintro _ ⟨⟩
    exact each
  refine .after fun cursor => ?_
  dsimp only
  cases cursor.lexeme.token with
  | string value => exact .ite (.stop _ _) (step _ before)
  | bytes value => exact .ite (.stop _ _) (step _ before)
  | fstring chars plain =>
    refine .ite (.stop _ _) ?_
    split
    · exact .complainAt _ _
    · rename_i parts found
      have good := formattedString_good (fieldValue_grammatical given _) _ parts found
      exact step _ (List.forall_mem_append.mpr ⟨allParts_good before, good⟩)
  | _ => exact .done

theorem strings_grammatical (inBytes : Bool) : GivesGrammatical (strings self inBytes) := by
  refine .after fun _ => ?_
  refine (Yields.repeating (∀ part ∈ ·.parts, IsGoodPart part) (by simp)
    fun read before => stringAfter_good given inBytes before).bind fun read each => ?_
  exact .ite (.pure (fstring_grammatical (allParts_good each) _ _)) (.pure rfl)

/-! ## Productions -/

theorem listDisplay_grammatical : GivesGrammatical (listDisplay self) := by
  refine .after fun _ => .after fun _ => .ite (.after fun _ => .pure rfl) ?_
  refine (namedOrStar_grammatical given).bind fun first valid => .after fun _ => .ite ?_ ?_
  · exact comprehension_grammatical given _ _ _ valid rfl
  · exact (displayTail_grammatical given valid _).bind fun _ each => .after fun _ => .pure each

theorem unpackedMapping_grammatical : GivesGrammatical (unpackedMapping self) :=
  .after fun _ => (given _).bind fun _ valid => .pure valid

theorem dictEntry_grammatical : GivesGrammatical (dictEntry self) := by
  refine .after fun _ => .ite (unpackedMapping_grammatical given) ?_
  refine (given _).bind fun key keyValid => .after fun _ => ?_
  exact (given _).bind fun value valueValid =>
    .pure (by simp [Expr.isGrammatical, keyValid, valueValid])

theorem dictTail_grammatical (opening : Position) {first : Expr}
    (valid : first.isGrammatical = true) : GivesGrammatical (dictTail self opening first) := by
  refine (items_grammatical valid fun items each => ?_).bind
    fun _ each => .after fun _ => .pure each
  exact .after fun _ => .ite .done <| .after fun _ => .ite .done <|
    .more each (dictEntry_grammatical given)

theorem braceDisplay_grammatical : GivesGrammatical (braceDisplay self) := by
  refine .after fun opening => .after fun _ => .ite (.after fun _ => .pure rfl) ?_
  refine .after fun _ => .ite ?_ ?_
  · exact (unpackedMapping_grammatical given).bind fun _ valid =>
      dictTail_grammatical given opening valid
  refine (namedOrStar_grammatical given).bind fun first firstValid => .after fun _ => .ite ?_ ?_
  · refine .ite (.stop _ _) (.after fun _ => (given _).bind fun value valueValid => ?_)
    have valid : (Expr.entry first value).isGrammatical = true := by
      simp [Expr.isGrammatical, firstValid, valueValid]
    refine .after fun _ => .ite ?_ (dictTail_grammatical given opening valid)
    exact comprehension_grammatical given .dict opening _ valid rfl
  · refine .after fun _ => .ite (comprehension_grammatical given _ _ _ firstValid rfl) ?_
    exact (displayTail_grammatical given firstValid _).bind fun _ each => .after fun _ => .pure each

theorem parenthesized_grammatical : GivesGrammatical (parenthesized self) := by
  refine .after fun opening => .after fun _ => .ite (.after fun _ => .pure rfl) ?_
  refine .after fun _ => .ite ?_ ?_
  · exact (yieldExpression_grammatical given).bind fun _ valid => .after fun _ => .pure valid
  refine (namedOrStar_grammatical given).bind fun first valid => .after fun _ => .ite ?_ ?_
  · exact comprehension_grammatical given _ _ _ valid rfl
  refine .after fun _ => .ite ?_ (.ite (.stop _ _) (.after fun _ => .pure valid))
  exact (displayTail_grammatical given valid _).bind fun _ each => .after fun _ => .pure each

theorem primary_grammatical : GivesGrammatical (primary self) := by
  refine .after fun cursor => ?_
  dsimp only
  split
  all_goals first
    | exact .after fun _ => .pure rfl
    | exact strings_grammatical given _
    | exact listDisplay_grammatical given
    | exact braceDisplay_grammatical given
    | exact parenthesized_grammatical given
    | exact .unexpected _

theorem subscriptItem_grammatical : GivesGrammatical (subscriptItem self) := by
  have optional : Yields (Expr.isGrammaticalOption · = true) (some <$> self .test) :=
    (given _).map fun _ valid => valid
  have sliced : ∀ lower : Option Expr, Expr.isGrammaticalOption lower = true → GivesGrammatical (do
      let position ← advance
      let absent : Parser Bool := do return (← seesMark .comma) || (← seesMark .closeBracket)
      let upper ← if (← seesMark .colon) || (← absent) then pure none else some <$> self .test
      let step ←
        if ← skipMark .colon then
          if ← absent then pure none else some <$> self .test
        else pure none
      return .slice position lower upper step) := by
    intro lower lowerValid
    refine .after fun position => .after fun _ => .after fun _ => ?_
    have whole : ∀ upper step : Option Expr, Expr.isGrammaticalOption upper = true →
        Expr.isGrammaticalOption step = true →
        (Expr.slice position lower upper step).isGrammatical = true := by
      intro upper step upperValid stepValid
      simp [Expr.isGrammatical, lowerValid, upperValid, stepValid]
    refine .ite (.known (.after fun _ => .ite (.after fun _ => .ite ?_ ?_) ?_))
      (optional.bind fun upper upperValid => .after fun _ => .ite (.after fun _ => .ite ?_ ?_) ?_)
    · exact .known (.pure (whole none none rfl rfl))
    · exact optional.bind fun step stepValid => .pure (whole none step rfl stepValid)
    · exact .known (.pure (whole none none rfl rfl))
    · exact .known (.pure (whole upper none upperValid rfl))
    · exact optional.bind fun step stepValid => .pure (whole upper step upperValid stepValid)
    · exact .known (.pure (whole upper none upperValid rfl))
  refine .after fun _ => .ite (sliced none rfl) ?_
  have first : Yields (fun lower => ∃ value : Expr, lower = some value ∧ value.isGrammatical = true)
      (some <$> namedOrStar self) :=
    (namedOrStar_grammatical given).map fun value valid => ⟨value, rfl, valid⟩
  refine first.bind ?_
  rintro _ ⟨value, rfl, valid⟩
  exact .after fun _ => .ite (.pure valid) (sliced (some value) valid)

theorem subscriptKey_grammatical : GivesGrammatical (subscriptKey self) := by
  refine (subscriptItem_grammatical given).bind fun first valid => .after fun _ =>
    .ite (.pure valid) ?_
  refine (items_grammatical valid fun items each => ?_).bind fun _ each => .pure each
  exact .after fun _ => .ite .done <| .after fun _ => .ite .done <|
    .more each (subscriptItem_grammatical given)

theorem suffixed_grammatical : GivesGrammatical (suffixed self) := by
  refine (primary_grammatical given).bind fun first valid => ?_
  refine Yields.repeating _ valid fun value valid => .after fun _ => ?_
  split
  · exact .after fun _ => .after fun _ => .pure (by rintro _ ⟨⟩; exact valid)
  · refine .after fun _ => (subscriptKey_grammatical given).bind fun key keyValid => ?_
    refine .after fun _ => .pure ?_
    rintro _ ⟨⟩
    simp [Expr.isGrammatical, valid, keyValid]
  · refine .after fun _ => (arguments_grammatical given).bind fun items each => ?_
    refine .after fun _ => .pure ?_
    rintro _ ⟨⟩
    simp [Expr.isGrammatical, valid, each]
  · exact .done

theorem power_grammatical : GivesGrammatical (power self) := by
  have rest : GivesGrammatical (do
      let base ← suffixed self
      if ← seesMark (.operator .power) then
        let position ← advance
        return .binary base position .power (← self .factor)
      return base) := by
    refine (suffixed_grammatical given).bind fun base valid => .after fun _ => .ite ?_ (.pure valid)
    exact .after fun _ => (given _).bind fun right rightValid =>
      .pure (by simp [Expr.isGrammatical, valid, rightValid])
  exact .after fun _ => .ite (.after fun _ => rest) rest

theorem factor_grammatical : GivesGrammatical (factor self) := by
  refine .after fun _ => ?_
  split
  · exact .after fun _ => (given _).bind fun _ valid => .pure valid
  · exact power_grammatical given

theorem operand_grammatical (level : Nat) : GivesGrammatical (operand self level) := by
  refine (factor_grammatical given).bind fun first valid => ?_
  refine Yields.repeating _ valid fun left valid => .after fun _ => ?_
  split
  · refine .after fun _ => (given _).bind fun right rightValid => .pure ?_
    rintro _ ⟨⟩
    simp [Expr.isGrammatical, valid, rightValid]
  · exact .done

/-- A chain has as many operators as right operands. -/
theorem comparison_grammatical : GivesGrammatical (comparison self) := by
  refine (operand_grammatical given 0).bind fun left valid => ?_
  refine (Yields.repeating (fun read => read.1.length = read.2.length ∧
    ∀ item ∈ read.2, item.isGrammatical = true) ⟨rfl, by simp⟩ fun read before => ?_).bind
    fun read each => ?_
  · obtain ⟨ops, rights⟩ := read
    refine .after fun op => ?_
    cases op with
    | none => exact .done
    | some op =>
      refine (operand_grammatical given 0).bind fun right rightValid => .pure ?_
      rintro _ ⟨⟩
      exact ⟨by simpa using before.1, List.forall_mem_cons.mpr ⟨rightValid, before.2⟩⟩
  · obtain ⟨ops, rights⟩ := read
    dsimp only
    split
    · exact .pure valid
    · rename_i some
      have rightsValid : Expr.areGrammatical rights.reverse = true :=
        Expr.areGrammatical_iff.mpr (by simpa using each.2)
      have sameLength : ops.length = rights.length := each.1
      have nonempty : rights ≠ [] := by
        rintro rfl
        exact some (by simpa using sameLength)
      exact .pure (by simp [Expr.isGrammatical, sameLength, nonempty, valid, rightsValid])

theorem negation_grammatical : GivesGrammatical (negation self) :=
  .after fun _ => .ite (.after fun _ => (given _).bind fun _ valid => .pure valid)
    (comparison_grammatical given)

omit given in
theorem logicalChain_grammatical {operand : Parser Expr} (each : GivesGrammatical operand)
    (word : Keyword) (op : LogicalOp) : GivesGrammatical (logicalChain operand word op) := by
  refine each.bind fun first valid => Yields.repeating _ valid fun left valid => ?_
  refine .after fun _ => .ite .done (.after fun _ => each.bind fun right rightValid => .pure ?_)
  rintro _ ⟨⟩
  simp [Expr.isGrammatical, valid, rightValid]

theorem disjunction_grammatical : GivesGrammatical (disjunction self) :=
  logicalChain_grammatical (logicalChain_grammatical (negation_grammatical given) _ _) _ _

theorem lambda_grammatical (body : Goal) : GivesGrammatical (Grammar.lambda self body) := by
  refine .after fun _ => (params_grammatical given _ _).bind fun items each => .after fun _ => ?_
  exact (given _).bind fun body valid => .pure (by simp [Expr.isGrammatical, each, valid])

theorem plainTest_grammatical : GivesGrammatical (plainTest self) :=
  .after fun _ => .ite (lambda_grammatical given _) (disjunction_grammatical given)

theorem test_grammatical : GivesGrammatical (test self) := by
  refine .after fun _ => .ite (lambda_grammatical given _) ?_
  refine (disjunction_grammatical given).bind fun value valid => ?_
  refine .after fun _ => .ite (.pure valid) ?_
  refine .after fun _ => (disjunction_grammatical given).bind fun condition conditionValid => ?_
  refine .after fun _ => .ite (.stop _ _) ?_
  refine .after fun _ => (given _).bind fun other otherValid => ?_
  exact .pure (by simp [Expr.isGrammatical, valid, conditionValid, otherValid])

theorem production_grammatical : ∀ goal, GivesGrammatical (production self goal)
  | .test => test_grammatical given
  | .plainTest => plainTest_grammatical given
  | .disjunction => disjunction_grammatical given
  | .negation => negation_grammatical given
  | .operand level => operand_grammatical given level
  | .factor => factor_grammatical given
  | .primary => primary_grammatical given

end Parts

theorem productions_grammatical : ∀ (depth : Nat) (goal : Goal),
    GivesGrammatical (productions depth goal)
  | 0, _ => .complain _
  | depth + 1, goal => production_grammatical (productions_grammatical depth) goal

end Unsugar.Grammar
