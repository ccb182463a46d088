import Unsugar.Proofs.Grammar.WellFormed
import Unsugar.Proofs.Refusal.Parts

/-! Lowering an expression evaluates all of it: it is refused if a finding of the expression
is certain, and only for the reason of a finding. -/

namespace Unsugar
namespace Lowering

theorem findings_of_negated? {kind : ScopeKind} {position : Position} {op : UnaryOp}
    {operand number : Expr} (negated : Expr.negated? position op operand = some number) :
    operand.findings kind = [] := by
  unfold Expr.negated? at negated
  split at negated
  · rfl
  · cases negated

mutual

theorem lower_refuses (env : Env) : ∀ expr : Expr, expr.isWellFormed = true →
    Refuses (expr.findings env.frame.kind) (lower env expr)
  | .name .., _ => .pure
  | .literal .., _ => .pure
  | .fstring _ _ parts, valid => by
    obtain ⟨each, partsValid⟩ := Bool.and_eq_true_iff.mp valid
    exact .touch (joining_refuses (lowerParts_refuse env parts each partsValid))
  | .field _ value _ spec, valid => by
    obtain ⟨valueValid, specValid⟩ := Bool.and_eq_true_iff.mp valid
    exact .touch (formatting_refuses (lower_refuses env value valueValid)
      (lowerSpec_refuses env spec specValid))
  | .call callee arguments _, valid => by
    obtain ⟨calleeValid, argumentsValid⟩ := Bool.and_eq_true_iff.mp valid
    refine (operands_refuses (.cons (lower_refuses env callee calleeValid)
      (Item.arguments_refuse (lowerItems_refuse env arguments argumentsValid)))).last
        fun values => ?_
    cases values <;> exact .pure
  | .keyword _ _ value, valid => (lower_refuses env value valid).last fun _ => .pure
  | .starred _ _ value, valid => (lower_refuses env value valid).last fun _ => .pure
  | .member object _ _, valid => memberOf_refuses (lower_refuses env object valid)
  | .subscript object key _, valid => by
    obtain ⟨objectValid, keyValid⟩ := Bool.and_eq_true_iff.mp valid
    exact .touch (supporting_refuses (.pair (lower_refuses env object objectValid)
      (lower_refuses env key keyValid)))
  | .slice _ first last step, valid => by
    obtain ⟨both, stepValid⟩ := Bool.and_eq_true_iff.mp valid
    obtain ⟨firstValid, lastValid⟩ := Bool.and_eq_true_iff.mp both
    exact .touch (supporting_refuses (.cons (lowerOrAbsent_refuses env first firstValid)
      (.pair (lowerOrAbsent_refuses env last lastValid)
        (lowerOrAbsent_refuses env step stepValid))))
  | .binary left _ _ right, valid => by
    obtain ⟨leftValid, rightValid⟩ := Bool.and_eq_true_iff.mp valid
    exact .touch (supporting_refuses (.pair (lower_refuses env left leftValid)
      (lower_refuses env right rightValid)))
  | .logical left _ _ right, valid => by
    obtain ⟨leftValid, rightValid⟩ := Bool.and_eq_true_iff.mp valid
    exact shortCircuit_refuses (lower_refuses env left leftValid)
      (lower_refuses env right rightValid)
  | .compare left ops rights, valid => by
    simp only [Expr.isWellFormed, Bool.and_eq_true, beq_iff_eq] at valid
    obtain ⟨⟨⟨sameLength, some⟩, leftValid⟩, rightsValid⟩ := valid
    -- There are as many operators as operands, so pairing them drops no operand.
    refine chained_refuses (lower_refuses env left leftValid)
      (lowerList_refuse env rights rightsValid ops sameLength) ?_
    rcases rights with _ | ⟨right, rights⟩ <;> rcases ops with _ | ⟨op, ops⟩ <;>
      simp_all [lowerList]
  | .unary position op operand, valid => by
    refine .touch ?_
    cases negated : Expr.negated? position op operand with
    | none => exact supporting_refuses (.single (lower_refuses env operand valid))
    | some number =>
      rw [Expr.findings, findings_of_negated? negated]
      exact .pure
  | .conditional test whenTrue whenFalse, valid => by
    obtain ⟨both, falseValid⟩ := Bool.and_eq_true_iff.mp valid
    obtain ⟨testValid, trueValid⟩ := Bool.and_eq_true_iff.mp both
    exact choosing_refuses (lower_refuses env test testValid)
      (lower_refuses env whenTrue trueValid) (lower_refuses env whenFalse falseValid)
  | .lambda position params body, valid => by
    obtain ⟨paramsValid, bodyValid⟩ := Bool.and_eq_true_iff.mp valid
    refine .touch <| .fresh fun name => (Refuses.emit (Refuses.flush ?_)).last fun _ => .pure
    refine (lowerParams_refuses env params paramsValid).bind fun _ => ?_
    refine (Refuses.lift (Refuses.flush ?_)).last fun _ => .pure
    exact (lower_refuses { env with frame := .functionFrame name } body bodyValid).last
      fun _ => .pure
  | .list _ items _, valid => by
    have each := lowerItems_refuse env items valid
    exact display_refuses each (.touch (supporting_refuses (.single (splat_refuses each))))
  | .tuple _ items _, valid => by
    have each := lowerItems_refuse env items valid
    exact display_refuses each (.touch (splat_refuses each))
  | .set _ items _, valid => by
    have each := lowerItems_refuse env items valid
    exact display_refuses each (.touch (supporting_refuses (.single (splat_refuses each))))
  | .dict _ items _, valid => by
    have each := lowerItems_refuse env items valid
    exact display_refuses each (.touch (merge_refuses each))
  | .entry key value, valid => by
    obtain ⟨keyValid, valueValid⟩ := Bool.and_eq_true_iff.mp valid
    refine (operands_refuses (.pair (lower_refuses env key keyValid)
      (lower_refuses env value valueValid))).last fun values => ?_
    split <;> exact .pure
  | .comprehension kind opening body clauses closing, valid => by
    simp only [Expr.isWellFormed, Bool.and_eq_true] at valid
    obtain ⟨⟨fits, bodyValid⟩, clausesValid⟩ := valid
    refine .touch <| .fresh fun name => .fresh fun iterator => declaring_refuses.bind fun _ => ?_
    -- Only the first iterable is evaluated here; the loops run in a function of their own.
    have called : Refuses (Expr.findingsOfFirst env.frame.kind clauses)
        (applying (return .ofName name) [supporting "iter" (firstIterable env clauses)]) :=
      calling_refuses (.single (supporting_refuses (firstIterable_refuses env clauses clausesValid)))
    have inner := lower_refuses { env with frame := .functionFrame name } body bodyValid
    have entry : kind = .dict → EachRefuses (body.findings .functionScope)
        (lowerEntry { env with frame := .functionFrame name } body) := fun isDict => by
      subst isDict
      exact lowerEntry_refuses { env with frame := .functionFrame name } body bodyValid fits
    have loops := fun result => lowerClauses_refuses { env with frame := .functionFrame name } rfl
      (some (.ofName iterator)) clauses clausesValid
      (@collecting_refuses _ kind result _ _ inner entry)
    cases kind with
    | generator => exact .known ((Refuses.emit ((loops "").last fun _ => .pure)).bind fun _ => called)
    | _ =>
      exact .fresh fun result =>
        (Refuses.emit ((loops result).last fun _ => .pure)).bind fun _ => called
  | .named target value, valid => assigning_refuses (lower_refuses env value valid)
  | .yield _ _ value, valid => (lowerOption_refuses env value valid).last fun _ => .pure

theorem lowerOption_refuses (env : Env) : ∀ value : Option Expr,
    Expr.isWellFormedOption value = true →
    Refuses (Expr.findingsOfOption env.frame.kind value) (lowerOption env value)
  | none, _ => .pure
  | some value, valid => (lower_refuses env value valid).last fun _ => .pure

theorem lowerOrAbsent_refuses (env : Env) : ∀ value : Option Expr,
    Expr.isWellFormedOption value = true →
    Refuses (Expr.findingsOfOption env.frame.kind value) (lowerOrAbsent env value)
  | none, _ => .pure
  | some value, valid => lower_refuses env value valid

theorem lowerList_refuse (env : Env) : ∀ rights : List Expr, Expr.areWellFormed rights = true →
    ∀ ops : List CompareOp, ops.length = rights.length →
    ChainRefuses (Expr.findingsOfList env.frame.kind rights)
      (ops.zip (rights.zip (lowerList env rights)))
  | [], _, ops, _ => by
    cases ops <;> exact .nil
  | first :: rest, valid, ops, sameLength => by
    obtain ⟨firstValid, restValid⟩ := Bool.and_eq_true_iff.mp valid
    cases ops with
    | nil => cases sameLength
    | cons op ops =>
      refine .cons (lower_refuses env first firstValid)
        (Expr.findings_of_isReusable env.frame.kind) ?_
      exact lowerList_refuse env rest restValid ops (Nat.succ.inj sameLength)

theorem lowerItems_refuse (env : Env) : ∀ items : List Expr, Expr.areWellFormed items = true →
    EachRefuses (Expr.findingsOfList env.frame.kind items) ((lowerItems env items).map Item.value)
  | [], _ => .nil
  | first :: rest, valid => by
    obtain ⟨firstValid, restValid⟩ := Bool.and_eq_true_iff.mp valid
    have later := lowerItems_refuse env rest restValid
    have here := lower_refuses env first firstValid
    cases first with
    | starred _ _ value => exact .cons (lower_refuses env value firstValid) later
    | _ => exact .cons here later

theorem lowerParts_refuse (env : Env) : ∀ parts : List Expr, parts.all Expr.isPart = true →
    Expr.areWellFormed parts = true →
    EachRefuses (Expr.findingsOfList env.frame.kind parts)
      ((lowerParts env parts).map Part.action)
  | [], _, _ => .nil
  | first :: rest, areParts, valid => by
    obtain ⟨firstPart, restParts⟩ := Bool.and_eq_true_iff.mp areParts
    obtain ⟨firstValid, restValid⟩ := Bool.and_eq_true_iff.mp valid
    have later := lowerParts_refuse env rest restParts restValid
    cases first with
    | literal _ _ constant =>
      cases constant with
      | text value => exact .cons .pure later
      | _ => cases firstPart
    | field _ value _ spec =>
      obtain ⟨valueValid, specValid⟩ := Bool.and_eq_true_iff.mp firstValid
      exact .cons (formatting_refuses (lower_refuses env value valueValid)
        (lowerSpec_refuses env spec specValid)) later
    | _ => cases firstPart

theorem lowerSpec_refuses (env : Env) : ∀ spec : Option Expr,
    Expr.isWellFormedOption spec = true →
    EachRefuses (Expr.findingsOfOption env.frame.kind spec) (lowerSpec env spec)
  | none, _ => .nil
  | some spec, valid => .single (lower_refuses env spec valid)

theorem lowerParams_refuses (env : Env) : ∀ params : List Param,
    Expr.areDefaultsWellFormed params = true →
    Refuses (Expr.findingsOfDefaults env.frame.kind params) (lowerParams env params)
  | [], _ => .pure
  | .mk _ _ _ _ default :: rest, valid => by
    obtain ⟨defaultValid, restValid⟩ := Bool.and_eq_true_iff.mp valid
    refine (lowerOption_refuses env default defaultValid).bind fun _ => ?_
    exact (lowerParams_refuses env rest restValid).last fun _ => .pure

theorem lowerEntry_refuses (env : Env) (expr : Expr) (valid : expr.isWellFormed = true)
    (isEntry : expr.isEntry = true) :
    EachRefuses (expr.findings env.frame.kind) (lowerEntry env expr) := by
  cases expr with
  | entry key value =>
    obtain ⟨keyValid, valueValid⟩ := Bool.and_eq_true_iff.mp valid
    exact .pair (lower_refuses env key keyValid) (lower_refuses env value valueValid)
  | _ => cases isEntry

theorem firstIterable_refuses (env : Env) : ∀ clauses : List Clause,
    Expr.areClausesWellFormed clauses = true →
    EachRefuses (Expr.findingsOfFirst env.frame.kind clauses) (firstIterable env clauses)
  | .loop _ _ iterable :: _, valid => by
    simp only [Expr.areClausesWellFormed, Bool.and_eq_true] at valid
    exact .single (lower_refuses env iterable valid.1.2)
  | .filter .. :: _, _ => .nil
  | [], _ => .nil

theorem lowerClauses_refuses (env : Env) (inside : env.frame.kind = .functionScope)
    (given : Option Expr) : ∀ clauses : List Clause, Expr.areClausesWellFormed clauses = true →
    ∀ {found : List Finding} {inner : Desugar (List Stmt)}, Desugar.Refuses found inner →
    Desugar.Refuses (Expr.findingsOfClauses given.isSome clauses ++ found)
      (lowerClauses env given inner clauses)
  | [], _, _, _, innerRefuses => innerRefuses
  | .loop position target iterable :: rest, valid, found, inner, innerRefuses => by
    simp only [Expr.areClausesWellFormed, Bool.and_eq_true, Option.isNone_iff_eq_none] at valid
    obtain ⟨⟨⟨faultless, targetValid⟩, iterableValid⟩, restValid⟩ := valid
    have assigns : ∀ item, Desugar.Refuses (target.targetFindings env.frame.kind)
        (assignTo env target (.ofName item) (return .ofName item)) := fun item =>
      assignTo_refuses env target targetValid faultless _ .pure
    have later := lowerClauses_refuses env inside none rest restValid innerRefuses
    have looped : ∀ {first : List Finding} {source : Lowering Expr}, Refuses first source →
        Desugar.Refuses (first ++ (target.targetFindings .functionScope ++
          Expr.findingsOfClauses false rest) ++ found)
        (looping position (fun item => assignTo env target item (return item)) source
          (lowerClauses env none inner rest) none) := fun sourceRefuses => by
      rw [inside] at assigns
      have none : OptionRefuses [] none := rfl
      simpa using looping_refuses sourceRefuses assigns later none
    cases given with
    | none =>
      have iterableRefuses := lower_refuses env iterable iterableValid
      rw [inside] at iterableRefuses
      exact looped iterableRefuses
    | some given => exact looped Refuses.pure
  | .filter _ test :: rest, valid, found, inner, innerRefuses => by
    obtain ⟨testValid, restValid⟩ := Bool.and_eq_true_iff.mp valid
    rw [Expr.findingsOfClauses, List.append_assoc, ← inside]
    refine Refuses.flush ((lower_refuses env test testValid).bind fun _ => ?_)
    exact (Refuses.lift (lowerClauses_refuses env inside none rest restValid innerRefuses)).last
      fun _ => .pure

theorem assignTo_refuses (env : Env) : ∀ target : Expr, target.isWellFormed = true →
    Grammar.targetFault false target = none → ∀ (value : Expr) {found : List Finding}
    {lowered : Lowering Expr}, Refuses found lowered →
    Desugar.Refuses (found ++ target.targetFindings env.frame.kind)
      (assignTo env target value lowered)
  | .name .., _, _, _, _, _, given => by
    rw [Expr.targetFindings, List.append_nil]
    · exact Refuses.flush (given.last fun _ => .pure)
    all_goals simp
  | .tuple _ items _, valid, faultless, _, _, _, given => by
    exact unpacking_refuses (Grammar.drop_stars_of_targetsFault faultless) given fun name =>
      assignItems_refuses env name items valid (Grammar.targetFault_of_targetsFault faultless) 0
  | .list _ items _, valid, faultless, _, _, _, given => by
    exact unpacking_refuses (Grammar.drop_stars_of_targetsFault faultless) given fun name =>
      assignItems_refuses env name items valid (Grammar.targetFault_of_targetsFault faultless) 0
  | .member object position id, valid, _, value, _, lowered, given => by
    have objectRefuses := lower_refuses env object valid
    rw [assignTo]
    refine .ite ?_ ?_
    · refine .after saveAhead_gives_name fun saved _ => .apply ?_
      exact finishing_refuses given fun valueRefuses =>
        settingAttribute_refuses valueRefuses objectRefuses
    · have finished : ∀ saved, Desugar.Refuses _ (finishing saved lowered fun lowered => do
          let value ← lowered
          return .assign [.member (← lower env object) position id] value) := fun saved =>
        finishing_refuses given fun valueRefuses =>
          valueRefuses.bind fun _ => objectRefuses.last fun _ => .pure
      have named : Desugar.Gives (fun _ => False) (fun _ => True) (some <$> Desugar.fresh "tmp") :=
        (Desugar.Gives.fresh "tmp").map fun _ _ => trivial
      refine .ite (.after named fun saved _ => ?_) (.known (finished none))
      exact .ite (.apply (finished saved)) (finished saved)
  | .subscript object key _, valid, _, value, _, _, given => by
    obtain ⟨objectValid, keyValid⟩ := Bool.and_eq_true_iff.mp valid
    refine .after saveAhead_gives_name fun saved _ => .apply ?_
    exact finishing_refuses given fun valueRefuses =>
      settingItem_refuses valueRefuses (lower_refuses env object objectValid)
        (lower_refuses env key keyValid)
  | .starred .., _, _, _, _, _, _ =>
    .refuse (List.mem_append_right _ (List.mem_cons_self ..)) rfl
  | .literal .., _, faultless, _, _, _, _ | .fstring .., _, faultless, _, _, _, _
  | .field .., _, faultless, _, _, _, _ | .call .., _, faultless, _, _, _, _
  | .keyword .., _, faultless, _, _, _, _ | .slice .., _, faultless, _, _, _, _
  | .binary .., _, faultless, _, _, _, _ | .logical .., _, faultless, _, _, _, _
  | .compare .., _, faultless, _, _, _, _ | .unary .., _, faultless, _, _, _, _
  | .conditional .., _, faultless, _, _, _, _ | .lambda .., _, faultless, _, _, _, _
  | .set .., _, faultless, _, _, _, _ | .dict .., _, faultless, _, _, _, _
  | .entry .., _, faultless, _, _, _, _ | .comprehension .., _, faultless, _, _, _, _
  | .named .., _, faultless, _, _, _, _ | .yield .., _, faultless, _, _, _, _ => by
    cases faultless

theorem assignItems_refuses (env : Env) (unpacked : String) : ∀ items : List Expr,
    Expr.areWellFormed items = true → (∀ item ∈ items, Grammar.targetFault false item = none) →
    ∀ index, Desugar.Refuses (Expr.elementFindings env.frame.kind items)
      (assignItems env unpacked index items)
  | [], _, _, _ => .pure
  | target :: rest, valid, faultless, index => by
    obtain ⟨targetValid, restValid⟩ := Bool.and_eq_true_iff.mp valid
    obtain ⟨targetFaultless, restFaultless⟩ := List.forall_mem_cons.mp faultless
    have later := assignItems_refuses env unpacked rest restValid restFaultless (index + 1)
    have here := fun value : Expr =>
      assignTo_refuses env target targetValid targetFaultless value (@Refuses.pure Expr value)
    cases target with
    | starred _ _ target =>
      have inner := Grammar.targetFault_of_starred targetFaultless
      exact (assignTo_refuses env target targetValid inner _ Refuses.pure).bind
        fun _ => later.last fun _ => .pure
    | _ => exact (here _).bind fun _ => later.last fun _ => .pure

end

end Lowering
end Unsugar
