import Unsugar.Proofs.Lowering.Parts
import Unsugar.Proofs.Lowering.Settled

/-! Lowering an expression reaches the lowered form: whatever the expression is, what
lowering makes of it, and of the statements that come ahead, has nothing left that a
rule applies to. -/

namespace Unsugar
namespace Lowering

variable {form : Form} {spread : Prop}

/-! ## Expressions and targets -/

/-- An assignment to an attribute that is left as it is. -/
theorem storingMember_makes {env : Env} (agrees : env.options = form.options) {object : Expr}
    {position : Position} {id : String} {lowered value : Lowering Expr}
    (kept : ¬ (env.options.lowerAttributes && !object.isReservedPath) = true)
    (unchanged : object.isReservedPath = true → lowered = pure object)
    (objectMade : Makes form spread lowered) (valueMade : Makes form True value) :
    MakesStmt form (do
      let value ← value
      return .assign [.member (← lowered) position id] value) := by
  refine valueMade.bind fun value made => ?_
  by_cases reserved : object.isReservedPath = true
  · rw [unchanged reserved, pure_bind]
    refine .pure ?_
    simp [Stmt.isLowered, Form.keepsMember, reserved, Expr.isLowered_of_isReservedPath reserved,
      made.1]
  · have attributes : form.options.lowerAttributes = false := by
      simpa [agrees, reserved] using kept
    refine objectMade.bind fun object objectMade => .pure ?_
    simp [Stmt.isLowered, Form.keepsMember, attributes, objectMade.1, made.1]

/-- A function without hints. -/
theorem isLowered_unhinted {position : Position} {ident : Ident} {params : List Param}
    {body : List Stmt} (paramsLowered : params.all (·.isLowered form) = true)
    (bodyLowered : Stmt.areLowered form body = true) :
    (Stmt.function [] position ident (params.map Param.withoutHint) none body).isLowered form =
      true := by
  have kept : (params.map Param.withoutHint).all (·.isLowered form) = true := by
    simpa [Param.isLowered] using paramsLowered
  simp [Stmt.isLowered, Form.keepsHints, kept, bodyLowered]

/-- The function made from a comprehension. -/
theorem isLowered_collector {position : Position} {ident : Ident} {kind : ComprehensionKind}
    {iterator result : String} {declares loops : List Stmt}
    (declaresLowered : Stmt.areLowered form declares = true)
    (loopsLowered : Stmt.areLowered form loops = true) :
    Stmt.areLowered form [.function [] position ident [.plain iterator] none
      (declares ++ (emptyResult kind).toList.map (Stmt.store result) ++ loops ++
        (emptyResult kind).toList.map fun _ => .returns .unknown (some (.ofName result)))] =
      true := by
  have unhinted : (Param.plain iterator).hint = none := rfl
  have paramLowered : (Param.plain iterator).isLowered form = true := rfl
  cases kind <;>
    simp [Stmt.isLowered, Form.keepsHints, unhinted, paramLowered, emptyResult,
      Expr.isLoweredOption, Expr.isLowered, Expr.listOf, Expr.dictOf, declaresLowered,
      loopsLowered]

/-- The items of a display, once lowered, if none is unpacked. -/
theorem operands_arguments {items : List (Item (Lowering Expr))}
    (each : ∀ item ∈ items, item.Makes form) (plain : items.any Item.isUnpacked = false) :
    Gives (·.isLowered form = true) (∀ value ∈ ·, IsMade form False value)
      (operands (items.map Item.argument)) := by
  refine operands_makes fun action member => ?_
  obtain ⟨item, itemMember, rfl⟩ := List.mem_map.mp member
  exact Item.argument_makes_plain (each item itemMember)
    (by simpa using List.any_eq_false.mp plain item itemMember)

/-- A display is left as it is if none of its items is unpacked. -/
theorem display_makes {items : List (Item (Lowering Expr))} {build : List Expr → Expr}
    {other : Lowering Expr} (each : ∀ item ∈ items, item.Makes form)
    (builds : ∀ values, (build values).isLowered form =
      (!values.any isStarred && Expr.areLowered form values))
    (plain : ∀ values, isStarred (build values) = false) (otherMade : Makes form spread other) :
    Makes form spread (if items.any Item.isUnpacked then other
      else do return build (← operands (items.map Item.argument))) := by
  split
  · exact otherMade
  · rename_i whole
    refine (operands_arguments each (by simpa using whole)).bind fun values made => .pure ⟨?_, ?_⟩
    · rw [builds, any_isStarred_eq_false made]
      exact Expr.areLowered_iff.mpr fun value member => (made value member).1
    · simp [plain]

mutual

theorem lower_makes (env : Env) (agrees : env.options = form.options) :
    ∀ expr : Expr, Makes form (isStarred expr = true) (lower env expr)
  | .name .. => .pure ⟨rfl, fun starred => by cases starred⟩
  | .literal .. => .pure ⟨rfl, fun starred => by cases starred⟩
  | .fstring _ _ parts =>
    Gives.touch.bind fun _ _ => joining_makes agrees (lowerParts_makes env agrees parts)
  | .field _ value _ spec =>
    Gives.touch.bind fun _ _ =>
      formatting_makes (lower_makes env agrees value).anywhere (lowerSpec_makes env agrees spec)
  | .call callee arguments closing => by
    have items := lowerItems_makes env agrees arguments
    have each : ∀ action ∈ lower env callee :: (lowerItems env arguments).map Item.argument,
        Makes form True action := by
      refine List.forall_mem_cons.mpr ⟨(lower_makes env agrees callee).anywhere, ?_⟩
      exact List.forall_mem_map.mpr fun item member => Item.argument_makes (items item member)
    refine (operands_lowered each).bind fun values lowered => ?_
    match values, lowered with
    | _ :: _, lowered => exact .pure (isMade_of_call lowered)
    | [], _ => exact .pure isMade_absent
  | .keyword _ _ value =>
    (lower_makes env agrees value).bind fun _ made =>
      .pure ⟨made.1, fun starred => by cases starred⟩
  | .starred _ _ value =>
    (lower_makes env agrees value).bind fun _ made => .pure ⟨made.1, fun _ => rfl⟩
  | .member object _ _ =>
    memberOf_makes agrees (lower_of_isReservedPath env) (lower_makes env agrees object)
  | .subscript object key _ => by
    refine Gives.touch.bind fun _ _ => supporting_makes ?_
    simpa using ⟨(lower_makes env agrees object).anywhere, (lower_makes env agrees key).anywhere⟩
  | .slice _ first last step => by
    refine Gives.touch.bind fun _ _ => supporting_makes ?_
    simpa using ⟨lowerOrAbsent_makes env agrees first, lowerOrAbsent_makes env agrees last,
      lowerOrAbsent_makes env agrees step⟩
  | .binary left _ _ right => by
    refine Gives.touch.bind fun _ _ => supporting_makes ?_
    simpa using ⟨(lower_makes env agrees left).anywhere, (lower_makes env agrees right).anywhere⟩
  | .logical left _ _ right =>
    shortCircuit_makes (lower_makes env agrees left).anywhere
      (lower_makes env agrees right).anywhere
  | .compare left ops rights => by
    have each := lowerList_makes env agrees rights
    refine (chained_makes (lower_makes env agrees left).anywhere fun right member => ?_).imp
      fun _ made => ⟨made.1, fun starred => (made.2 starred).elim⟩
    have inner := (List.of_mem_zip member).2
    exact each right.2.2 (List.of_mem_zip inner).2
  | .unary position op operand => by
    refine Gives.touch.bind fun _ _ => ?_
    split
    · rename_i number found
      exact .pure (negated?_isMade found)
    · exact supporting_makes (by simpa using (lower_makes env agrees operand).anywhere)
  | .conditional test whenTrue whenFalse =>
    choosing_makes (lower_makes env agrees test).anywhere
      (lower_makes env agrees whenTrue).anywhere (lower_makes env agrees whenFalse).anywhere
  | .lambda position params body => by
    refine Gives.touch.bind fun _ _ => ?_
    refine (Gives.fresh "lambda").bind fun name _ => ?_
    refine (Gives.emit (Gives.flush ?_)).bind fun _ _ => .pure (isMade_ofName name)
    refine (lowerParams_gives env agrees params).bind fun params lowered => ?_
    refine MakesBody.lifted (Gives.flush ?_) fun result resultLowered => .pure ?_
    · refine (lower_makes { env with frame := .functionFrame name } agrees body).bind ?_
      exact fun _ made => .pure made.1
    · exact isLowered_unhinted lowered.1 resultLowered
  | .list opening items closing => by
    have each := lowerItems_makes env agrees items
    exact display_makes each (fun _ => rfl) (fun _ => rfl) <| Gives.touch.bind fun _ _ =>
      supporting_makes (by simpa using splat_makes each)
  | .tuple opening items closing => by
    have each := lowerItems_makes env agrees items
    exact display_makes each (fun _ => rfl) (fun _ => rfl) <| Gives.touch.bind fun _ _ =>
      splat_makes each
  | .set opening items closing => by
    have each := lowerItems_makes env agrees items
    exact display_makes each (fun _ => rfl) (fun _ => rfl) <| Gives.touch.bind fun _ _ =>
      supporting_makes (by simpa using splat_makes each)
  | .dict opening items closing => by
    have each := lowerItems_makes env agrees items
    exact display_makes each (fun _ => rfl) (fun _ => rfl) <| Gives.touch.bind fun _ _ =>
      merge_makes each
  | .entry key value => by
    have each : ∀ action ∈ [lower env key, lower env value], Makes form True action := by
      simpa using ⟨(lower_makes env agrees key).anywhere, (lower_makes env agrees value).anywhere⟩
    refine (operands_lowered each).bind fun values lowered => ?_
    match values, lowered with
    | [_, _], lowered =>
      exact .pure ⟨by simpa [Expr.isLowered] using lowered, fun starred => by cases starred⟩
    | [], _ | [_], _ | _ :: _ :: _ :: _, _ => exact .pure isMade_absent
  | .comprehension kind opening body clauses closing => by
    refine Gives.touch.bind fun _ _ => ?_
    refine (Gives.fresh kind.text).bind fun name _ => ?_
    refine (Gives.fresh "iter").bind fun iterator _ => ?_
    refine declaring_gives.bind fun declares declaresLowered => ?_
    have made : Makes form (isStarred (.comprehension kind opening body clauses closing) = true)
        (applying (return .ofName name) [supporting "iter" (firstIterable env clauses)]) := by
      refine applying_makes (.pure (isMade_ofName name)) ?_
      simpa using supporting_makes (firstIterable_makes env agrees clauses)
    have bodyMade := lower_makes { env with frame := .functionFrame name } agrees body
    have entryMade := lowerEntry_makes { env with frame := .functionFrame name } agrees body
    have loops := fun result (reserved : kind ≠ .generator → isReserved result = true) =>
      lowerClauses_makes { env with frame := .functionFrame name } agrees
        (some (.ofName iterator)) (by simp)
        (collecting_makes reserved bodyMade.anywhere entryMade) clauses
    cases kind with
    | generator =>
      refine (Gives.emit ((loops "" fun different => (different rfl).elim).bind
        fun _ loopsLowered => MakesBody.pure ?_)).bind fun _ _ => made
      exact isLowered_collector declaresLowered loopsLowered
    | _ =>
      refine (Gives.fresh "result").bind fun result reserved => ?_
      refine (Gives.emit ((loops result fun _ => reserved).bind
        fun _ loopsLowered => MakesBody.pure ?_)).bind fun _ _ => made
      exact isLowered_collector declaresLowered loopsLowered
  | .named target value => assigning_makes (lower_makes env agrees value)
  | .yield position delegates value =>
    (lowerOption_gives env agrees value).bind fun _ lowered =>
      .pure ⟨lowered, fun starred => by cases starred⟩

theorem lowerOption_gives (env : Env) (agrees : env.options = form.options) :
    ∀ value : Option Expr, Gives (·.isLowered form = true) (Expr.isLoweredOption form · = true)
      (lowerOption env value)
  | none => .pure rfl
  | some value => (lower_makes env agrees value).bind fun _ made => .pure made.1

theorem lowerOrAbsent_makes (env : Env) (agrees : env.options = form.options) :
    ∀ value : Option Expr, Makes form True (lowerOrAbsent env value)
  | none => .pure isMade_absent
  | some value => (lower_makes env agrees value).anywhere

theorem lowerList_makes (env : Env) (agrees : env.options = form.options) :
    ∀ items : List Expr, ∀ action ∈ lowerList env items, Makes form True action
  | [] => by simp [lowerList]
  | first :: rest => List.forall_mem_cons.mpr
      ⟨(lower_makes env agrees first).anywhere, lowerList_makes env agrees rest⟩

theorem lowerItems_makes (env : Env) (agrees : env.options = form.options) :
    ∀ items : List Expr, ∀ item ∈ lowerItems env items, item.Makes form
  | [] => by simp [lowerItems]
  | first :: rest => by
    have restMade := lowerItems_makes env agrees rest
    have firstMade := lower_makes env agrees first
    cases first with
    | starred _ _ value =>
      exact List.forall_mem_cons.mpr ⟨(lower_makes env agrees value).anywhere, restMade⟩
    | _ =>
      refine List.forall_mem_cons.mpr ⟨firstMade.imp fun _ made => ?_, restMade⟩
      exact ⟨made.1, fun starred => absurd (made.2 starred) (by simp [isStarred])⟩

theorem lowerParts_makes (env : Env) (agrees : env.options = form.options) :
    ∀ parts : List Expr, ∀ part ∈ lowerParts env parts, part.Makes form
  | [] => by simp [lowerParts]
  | first :: rest => by
    have restMade := lowerParts_makes env agrees rest
    cases first with
    | literal _ _ constant =>
      cases constant with
      | text value => exact List.forall_mem_cons.mpr ⟨trivial, restMade⟩
      | _ => exact restMade
    | field _ value _ spec =>
      refine List.forall_mem_cons.mpr ⟨?_, restMade⟩
      exact formatting_makes (lower_makes env agrees value).anywhere
        (lowerSpec_makes env agrees spec)
    | _ => exact restMade

theorem lowerSpec_makes (env : Env) (agrees : env.options = form.options) :
    ∀ spec : Option Expr, ∀ action ∈ lowerSpec env spec, Makes form True action
  | none => by simp [lowerSpec]
  | some spec => by simpa [lowerSpec] using (lower_makes env agrees spec).anywhere

theorem lowerParams_gives (env : Env) (agrees : env.options = form.options) :
    ∀ params : List Param, Gives (·.isLowered form = true)
      (fun lowered => lowered.all (·.isLowered form) = true ∧
        lowered.map Param.hint = params.map Param.hint) (lowerParams env params)
  | [] => .pure ⟨rfl, rfl⟩
  | .mk _ _ _ _ value :: rest => by
    refine (lowerOption_gives env agrees value).bind fun _ lowered => ?_
    refine (lowerParams_gives env agrees rest).bind fun _ restLowered => .pure ⟨?_, ?_⟩
    · simpa [Param.isLowered, Param.default, lowered] using restLowered.1
    · simpa [Param.hint] using restLowered.2

theorem lowerEntry_makes (env : Env) (agrees : env.options = form.options) (expr : Expr) :
    ∀ action ∈ lowerEntry env expr, Makes form True action := by
  cases expr with
  | entry key value =>
    simpa [lowerEntry] using
      ⟨(lower_makes env agrees key).anywhere, (lower_makes env agrees value).anywhere⟩
  | _ => simp [lowerEntry]

theorem firstIterable_makes (env : Env) (agrees : env.options = form.options) :
    ∀ clauses : List Clause, ∀ action ∈ firstIterable env clauses, Makes form True action
  | .loop _ _ iterable :: _ => by
    simpa [firstIterable] using (lower_makes env agrees iterable).anywhere
  | .filter .. :: _ => by simp [firstIterable]
  | [] => by simp [firstIterable]

theorem lowerClauses_makes (env : Env) (agrees : env.options = form.options)
    (given : Option Expr) (givenLowered : ∀ source ∈ given, source.isLowered form = true)
    {inner : Desugar (List Stmt)} (innerMade : MakesBody form inner) :
    ∀ clauses : List Clause, MakesBody form (lowerClauses env given inner clauses)
  | [] => innerMade
  | .loop _ target iterable :: rest => by
    have restMade := lowerClauses_makes env agrees none (by simp) innerMade rest
    have assigns : ∀ name, MakesBody form (assignTo env target (.ofName name)
        (return .ofName name)) := fun name =>
      assignTo_makes env agrees target _ (.pure (isMade_ofName name))
    have source := (lower_makes env agrees iterable).anywhere
    cases given with
    | none =>
      rw [lowerClauses]
      exact looping_makes assigns source restMade (by simp)
    | some given =>
      rw [lowerClauses]
      have kept : Makes form True (return given) :=
        .pure ⟨givenLowered given rfl, fun _ => trivial⟩
      exact looping_makes assigns kept restMade (by simp)
  | .filter _ test :: rest => by
    refine Gives.flush ((lower_makes env agrees test).bind fun _ testMade => ?_)
    refine (lowerClauses_makes env agrees none (by simp) innerMade rest).lifted
      fun body bodyLowered => .pure ?_
    simp [testMade.1, bodyLowered]

theorem assignTo_makes (env : Env) (agrees : env.options = form.options) :
    ∀ (target value : Expr) {lowered : Lowering Expr}, Makes form True lowered →
      MakesBody form (assignTo env target value lowered)
  | .name .., _, _, made =>
    Gives.flush (made.bind fun _ valueMade => .pure valueMade.1)
  | .tuple _ items _, _, _, made =>
    unpacking_makes made fun name => assignItems_makes env agrees name 0 items
  | .list _ items _, _, _, made =>
    unpacking_makes made fun name => assignItems_makes env agrees name 0 items
  | .member object position id, value, lowered, made => by
    have objectMade := lower_makes env agrees object
    rw [assignTo]
    split
    · refine saveAhead_gives.bind fun _ _ => (Desugar.Gives.apply _ _ _).bind fun _ _ => ?_
      exact finishing_makes made fun _ valueMade =>
        settingAttribute_makes objectMade.anywhere valueMade
    · rename_i kept
      have finished := fun saved => @finishing_makes form saved lowered _ made fun _ valueMade =>
        @storingMember_makes _ _ _ agrees _ position id _ _ kept (lower_of_isReservedPath env)
          objectMade valueMade
      by_cases saves : (object.needsStatements && !value.isPure) = true
      · simp only [saves, if_true]
        have named : Desugar.Gives Failure.IsRefusal (fun _ => True)
            (some <$> Desugar.fresh "tmp") := (Desugar.Gives.fresh "tmp").map fun _ _ => trivial
        refine named.bind fun saved _ => ?_
        split
        · exact (Desugar.Gives.apply _ _ _).bind fun _ _ => finished saved
        · exact finished saved
      · simp only [saves]
        exact finished none
  | .subscript object key _, value, _, made =>
    saveAhead_gives.bind fun _ _ => (Desugar.Gives.apply _ _ _).bind fun _ _ =>
      finishing_makes made fun _ valueMade =>
        settingItem_makes (lower_makes env agrees object).anywhere
          (lower_makes env agrees key).anywhere valueMade
  | .starred .., _, _, _ => .refuse _ _
  | .literal .., _, _, _ | .fstring .., _, _, _ | .field .., _, _, _ | .call .., _, _, _
  | .keyword .., _, _, _ | .slice .., _, _, _ | .binary .., _, _, _ | .logical .., _, _, _
  | .compare .., _, _, _ | .unary .., _, _, _ | .conditional .., _, _, _ | .lambda .., _, _, _
  | .set .., _, _, _ | .dict .., _, _, _ | .entry .., _, _, _ | .comprehension .., _, _, _
  | .named .., _, _, _ | .yield .., _, _, _ => .refuse _ _

theorem assignItems_makes (env : Env) (agrees : env.options = form.options) (unpacked : String) :
    ∀ (index : Nat) (items : List Expr),
      MakesBody form (assignItems env unpacked index items)
  | _, [] => MakesBody.pure rfl
  | index, target :: rest => by
    have targetMade : ∀ value lowered, Makes form True lowered →
        MakesBody form (assignTo env target value lowered) := fun value _ made =>
      assignTo_makes env agrees target value made
    have restMade := assignItems_makes env agrees unpacked (index + 1) rest
    have joined : ∀ here : Desugar (List Stmt), MakesBody form here →
        MakesBody form (do return (← here) ++ (← assignItems env unpacked (index + 1) rest)) := by
      intro here hereMade
      refine hereMade.bind fun before beforeLowered => ?_
      refine restMade.bind fun after afterLowered => MakesBody.pure ?_
      simp [beforeLowered, afterLowered]
    cases target with
    | starred _ _ target =>
      exact joined _ (assignTo_makes env agrees target _ (.pure (isMade_supportCall (by simp))))
    | _ => exact joined _ (targetMade _ _ (.pure (isMade_supportCall (by simp))))

end

end Lowering
end Unsugar
