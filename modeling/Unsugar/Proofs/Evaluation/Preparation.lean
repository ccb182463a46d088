import Unsugar.Proofs.Evaluation.Ahead

/-! Preparation. What is set aside for a residual prepares for it: run first, it makes
the residual mean what it is to mean. Preparations are put together as lowering puts
operands together. -/

namespace Unsugar

open Run
open Desugar (Ends)

variable {Value Error : Type} {α β γ δ : Type}

/-! ## Statements ahead -/

theorem Deferred.runAll_statements (statements : List Stmt) :
    runAll (statements.map fun stmt => pure [stmt]) = pure statements := by
  induction statements with
  | nil => rfl
  | cons first rest induction => simp [runAll, induction]

namespace Lowering

/-- After `body`, which leaves what is `kept` as it is and binds what is `held`, `tail`
means what `action` meant before it. -/
structure Prepares (kept : String → Prop) (held : List String) (body : Run Value Error Unit)
    (tail : Run Value Error α) (ends : α → β → State Value → Prop) (action : Run Value Error β) :
    Prop where
  keeps : Keeps kept body
  holds : ∀ state after, body state = (.ok (), after) →
    ∀ name ∈ held, (after.temporaries name).isSome
  refines : Refines (fun _ => True) ends (do body; tail) action

/-- The first of two values is the same, and the second ones are related. -/
def Then (ends : β → γ → State Value → Prop) : α × β → α × γ → State Value → Prop :=
  fun pair other state => pair.1 = other.1 ∧ ends pair.2 other.2 state

/-- Values are saved between the preparation for them and the next one, which does not
touch what they were saved in. -/
theorem Prepares.hoisting {held gained more : List String}
    {kept spared nextSpared : String → Prop} {body save nextBody : Run Value Error Unit}
    {tail action again : Run Value Error α} {next : Run Value Error β}
    {ends : β → γ → State Value → Prop} {nextAction : Run Value Error γ}
    (prepares : Prepares spared held body tail Same action)
    (saveKeeps : Keeps (· ∉ gained) save) (saves : Saves held gained save tail again)
    (nextPrepares : Prepares nextSpared more nextBody next ends nextAction)
    (heldApart : ∀ name ∈ held, name ∉ gained)
    (savedSpared : ∀ name, name ∈ held ∨ name ∈ gained → nextSpared name)
    (kept_spared : ∀ name, kept name → spared name ∧ name ∉ gained ∧ nextSpared name) :
    Prepares kept (held ++ gained ++ more) (do body; save; nextBody)
      (do let left ← again; let right ← next; return (left, right)) (Then ends)
      (do let left ← action; let right ← nextAction; return (left, right)) where
  keeps :=
    (prepares.keeps.mono fun name isKept => (kept_spared name isKept).1).bind fun _ =>
      (saveKeeps.mono fun name isKept => (kept_spared name isKept).2.1).bind fun _ =>
        nextPrepares.keeps.mono fun name isKept => (kept_spared name isKept).2.2
  holds := by
    intro state final ran
    obtain ⟨_, prepared, bodyRun, ran⟩ := ok_of_run_bind ran
    obtain ⟨_, saved, saveRun, nextRun⟩ := ok_of_run_bind ran
    have bound := prepares.holds state prepared bodyRun
    have saveKept := saveKeeps prepared
    obtain ⟨_, saveEnd, _, valueSaved⟩ := saves prepared bound
    have nextKept := nextPrepares.keeps saved
    rw [saveRun] at saveKept saveEnd
    rw [nextRun] at nextKept
    rcases result : (tail prepared).1 with reason | value
    · rw [result] at saveEnd
      cases saveEnd
    rw [result] at saveEnd
    cases saveEnd
    intro name member
    simp only [List.mem_append] at member
    rcases member with (member | member) | member
    · rw [nextKept name (savedSpared name (.inl member)), saveKept name (heldApart name member)]
      exact bound name member
    · rw [nextKept name (savedSpared name (.inr member))]
      exact (valueSaved value result).1 name member
    · exact nextPrepares.holds saved final nextRun name member
  refines := by
    -- The run may stop in each of its parts; where it does, so does the other one.
    intro left right world _
    have alike := prepares.refines left right world trivial
    simp only [bind_assoc]
    rcases bodyRun : body left with ⟨reason | ⟨⟩, prepared⟩
    · rw [run_bind_error bodyRun] at alike ⊢
      exact alike.stop
    rw [run_bind_ok bodyRun] at alike ⊢
    obtain ⟨saved, saveRun, savedAgrees, valueSaved⟩ :=
      saves prepared (prepares.holds left prepared bodyRun)
    rcases tailRun : tail prepared with ⟨reason | value, tailEnd⟩
    · rw [tailRun] at saveRun savedAgrees alike
      rw [run_bind_error saveRun]
      exact (alike.of_world savedAgrees.world).stop
    rw [tailRun] at saveRun savedAgrees alike valueSaved
    obtain ⟨_, right', actionRun, tailWorld, rfl⟩ := alike.ok
    rw [run_bind_ok saveRun, run_bind_ok actionRun]
    have nextAlike := nextPrepares.refines saved right' (savedAgrees.world.trans tailWorld) trivial
    have nextKept := nextPrepares.keeps saved
    rcases nextRun : nextBody saved with ⟨reason | ⟨⟩, nextPrepared⟩
    · rw [run_bind_error nextRun] at nextAlike ⊢
      exact nextAlike.stop
    rw [nextRun] at nextKept
    rw [run_bind_ok nextRun] at nextAlike ⊢
    -- The next preparation spared what the first value was saved in.
    have againRun := (valueSaved value rfl).2 nextPrepared fun name known =>
      nextKept name (savedSpared name known)
    rw [run_bind_ok againRun]
    exact nextAlike.bind fun _ _ _ _ _ world valid => ⟨world, rfl, valid⟩

/-- The temporaries that statements set aside between two points must not touch: all
that are taken when the statements are lowered, up to those taken between the points. -/
def IsSpared (before after taken : List String) (name : String) : Prop :=
  name ∈ taken ∧ (name ∈ before ∨ name ∉ after)

/-- What was set aside since the names `before` were taken prepares for `tail`,
whenever it is lowered. -/
structure Ready (runtime : Runtime Value Error) (before after : List String)
    (ahead : List Deferred) (held : List String) (tail : Run Value Error α)
    (ends : α → β → State Value → Prop) (action : Run Value Error β) : Prop where
  grows : before ⊆ after
  taken : ∀ name ∈ held, IsTaken before after name
  runs : ∀ context : Context, after ⊆ context.reserved →
    Ends context (Deferred.runAll ahead) fun statements later =>
      context.reserved ⊆ later.reserved ∧
        Prepares (IsSpared before after context.reserved) held (runtime.execAll statements)
          tail ends action

namespace Ready

variable {runtime : Runtime Value Error} {before between after : List String}
variable {ahead : List Deferred} {held more : List String}
variable {tail : Run Value Error α} {ends : α → β → State Value → Prop} {action : Run Value Error β}

/-- Nothing needs to be set aside for what means the same already. -/
theorem nothing (refines : Refines (fun _ => True) ends tail action) :
    Ready runtime before before [] [] tail ends action where
  grows := fun _ => id
  taken := by simp
  runs := fun context _ => .pure ⟨fun _ => id, by
    unfold Runtime.execAll
    exact ⟨.pure (), by simp, by simpa using refines⟩⟩

theorem bind {finish : α → Run Value Error γ} {finishAction : β → Run Value Error δ}
    {ends' : γ → δ → State Value → Prop}
    (ready : Ready runtime before after ahead held tail ends action)
    (rest : ∀ value other, Refines (ends value other) ends' (finish value) (finishAction other)) :
    Ready runtime before after ahead held (tail >>= finish) ends' (action >>= finishAction) where
  grows := ready.grows
  taken := ready.taken
  runs := fun context known => (ready.runs context known).imp fun statements later prepared => by
    refine ⟨prepared.1, prepared.2.keeps, prepared.2.holds, ?_⟩
    rw [← bind_assoc]
    exact prepared.2.refines.bind rest

theorem imp {weaker : α → β → State Value → Prop}
    (ready : Ready runtime before after ahead held tail ends action)
    (implies : ∀ value other state, ends value other state → weaker value other state) :
    Ready runtime before after ahead held tail weaker action where
  grows := ready.grows
  taken := ready.taken
  runs := fun context known => (ready.runs context known).imp fun _ _ ⟨grows, prepared⟩ =>
    ⟨grows, prepared.keeps, prepared.holds, fun left right world given =>
      (prepared.refines left right world given).imp implies⟩

theorem map (ends' : γ → δ → State Value → Prop) (change : α → γ) (changeAction : β → δ)
    (ready : Ready runtime before after ahead held tail ends action)
    (valid : ∀ value other state, ends value other state →
      ends' (change value) (changeAction other) state) :
    Ready runtime before after ahead held (do return change (← tail)) ends'
      (do return changeAction (← action)) :=
  ready.bind fun value other => .pure (valid value other)

/-- A further operand for which nothing is set aside is evaluated in its place. -/
theorem silent {tail action : Run Value Error α} {next : Run Value Error β}
    {ends : β → γ → State Value → Prop} {nextAction : Run Value Error γ}
    (ready : Ready runtime before between ahead held tail Same action)
    (nextReady : Ready runtime between after [] more next ends nextAction) :
    Ready runtime before after ahead (held ++ more)
      (do let left ← tail; let right ← next; return (left, right)) (Then ends)
      (do let left ← action; let right ← nextAction; return (left, right)) where
  grows := fun _ member => nextReady.grows (ready.grows member)
  taken := by
    intro name member
    rcases List.mem_append.mp member with member | member
    · exact (ready.taken name member).mono (fun _ => id) nextReady.grows
    · exact (nextReady.taken name member).mono ready.grows fun _ => id
  runs := by
    intro context known
    obtain ⟨_, _, _, empty, _, nextPrepared⟩ := nextReady.runs context known []
    cases empty
    have nextRefines : Refines (fun _ => True) ends next nextAction := by
      simpa [Runtime.execAll] using nextPrepared.refines
    refine (ready.runs context fun _ member => known (nextReady.grows member)).imp
      fun statements later prepared => ⟨prepared.1, ?_, ?_, ?_⟩
    · refine prepared.2.keeps.mono fun name spared => ⟨spared.1, ?_⟩
      exact spared.2.imp_right fun notAfter member => notAfter (nextReady.grows member)
    · intro state final ran name member
      rcases List.mem_append.mp member with member | member
      · exact prepared.2.holds state final ran name member
      · exact nextPrepared.holds final final rfl name member
    · rw [← bind_assoc]
      refine prepared.2.refines.bind fun value other left right world same => ?_
      refine (nextRefines left right world trivial).bind fun _ _ _ _ _ world valid => ?_
      exact ⟨world, same, valid⟩

/-- A further operand for which statements are set aside comes after statements that
save the operands before it. -/
theorem hoisting {final gained : List String} {middle later : List Deferred}
    {tail action again : Run Value Error α} {next : Run Value Error β}
    {ends : β → γ → State Value → Prop} {nextAction : Run Value Error γ}
    (ready : Ready runtime before between ahead held tail Same action)
    (nextReady : Ready runtime between after later more next ends nextAction)
    (hoists : Hoists runtime held after final ahead middle gained tail again) :
    Ready runtime before final (middle ++ later) (held ++ gained ++ more)
      (do let left ← again; let right ← next; return (left, right)) (Then ends)
      (do let left ← action; let right ← nextAction; return (left, right)) where
  grows := fun _ member => hoists.grows (nextReady.grows (ready.grows member))
  taken := by
    intro name member
    simp only [List.mem_append] at member
    rcases member with (member | member) | member
    · exact (ready.taken name member).mono (fun _ => id) fun _ found =>
        hoists.grows (nextReady.grows found)
    · exact (hoists.taken name member).mono (fun _ found =>
        nextReady.grows (ready.grows found)) fun _ => id
    · exact (nextReady.taken name member).mono ready.grows hoists.grows
  runs := by
    intro context includes
    obtain ⟨saves, rfl, saveKeeps, saved⟩ := hoists.saves
    have inOrder : Deferred.runAll (ahead ++ saves.map (fun stmt => pure [stmt]) ++ later) = (do
        let front ← Deferred.runAll ahead
        let back ← Deferred.runAll later
        return front ++ (saves ++ back)) := by
      simp only [Deferred.runAll_append, Deferred.runAll_statements, bind_assoc, pure_bind,
        List.append_assoc]
    rw [inOrder]
    have afterIncluded : after ⊆ context.reserved := fun _ found => includes (hoists.grows found)
    have betweenIncluded : between ⊆ context.reserved := fun _ found =>
      afterIncluded (nextReady.grows found)
    refine (ready.runs context betweenIncluded).bind fun front middle ⟨frontGrows, prepares⟩ => ?_
    refine (nextReady.runs middle fun _ found => frontGrows (afterIncluded found)).bind
      fun back last ⟨backGrows, nextPrepares⟩ => .pure ?_
    refine ⟨fun _ found => backGrows (frontGrows found), ?_⟩
    rw [Runtime.execAll_append, Runtime.execAll_append]
    refine prepares.hoisting saveKeeps saved nextPrepares ?_ ?_ ?_
    · intro name isHeld isGained
      exact (hoists.taken name isGained).new (nextReady.grows (ready.taken name isHeld).taken)
    · rintro name (isHeld | isGained)
      · have isTaken := ready.taken name isHeld
        exact ⟨frontGrows (betweenIncluded isTaken.taken), .inl isTaken.taken⟩
      · have isTaken := hoists.taken name isGained
        exact ⟨frontGrows (includes isTaken.taken), .inr isTaken.new⟩
    · rintro name ⟨isTaken, old | notFinal⟩
      · refine ⟨⟨isTaken, .inl old⟩, fun isGained => ?_,
          ⟨frontGrows isTaken, .inl (ready.grows old)⟩⟩
        exact (hoists.taken name isGained).new (nextReady.grows (ready.grows old))
      · refine ⟨⟨isTaken, .inr fun found => ?_⟩, fun isGained => ?_,
          ⟨frontGrows isTaken, .inr fun found => notFinal (hoists.grows found)⟩⟩
        · exact notFinal (hoists.grows (nextReady.grows found))
        · exact notFinal (hoists.taken name isGained).taken

end Ready

/-! ## Operands -/

variable (runtime : Runtime Value Error)

/-- Lowering leaves a residual with a label, and prepares for the meaning of it to be
that of `action`. -/
def Lowers (label : Option String) (lowering : Lowering Expr) (action : Run Value Error Value) :
    Prop :=
  ∀ context : Context, Ends context (lowering.run []) fun (value, ahead) after =>
    ∃ held, Residual (· ∈ held) value ∧ value.label? = label ∧
      Ready runtime context.reserved after.reserved ahead held (runtime.eval value) Same action

/-- Like `Lowers`, for operands that are evaluated one after the other. -/
def LowersAll (labels : List (Option String)) (lowering : Lowering (List Expr))
    (action : Run Value Error (List Value)) : Prop :=
  ∀ context : Context, Ends context (lowering.run []) fun (values, ahead) after =>
    ∃ held, (∀ value ∈ values, Residual (· ∈ held) value) ∧ values.map Expr.label? = labels ∧
      Ready runtime context.reserved after.reserved ahead held (runtime.evalAll values) Same action

/-- How an operand is lowered, and what it means. -/
structure Operand (Value Error : Type) where
  lowering : Lowering Expr
  label : Option String
  action : Run Value Error Value

variable {runtime}

/-- The step from operands that are lowered to one more. The operands are saved if
statements are set aside for the new one. -/
theorem further_ready {before between held more : List String} {context : Context}
    {ahead later : List Deferred} {done : List Expr} {value : Expr} (readable : String → Prop)
    {action : Run Value Error (List Value)} {ends : Value → β → State Value → Prop}
    {next : Run Value Error β}
    (residuals : ∀ other ∈ done, Residual (· ∈ held) other)
    (ready : Ready runtime before between ahead held (runtime.evalAll done) Same action)
    (residual : Residual (fun name => name ∈ more ∨ readable name) value)
    (nextReady : Ready runtime between context.reserved later more (runtime.eval value) ends
      next) :
    Ends context ((if later.isEmpty then pure done else done.mapM hoist : Lowering _).run ahead)
      fun (saved, middle) after => ∃ held,
        (∀ other ∈ saved, Residual (· ∈ held) other) ∧
        Residual (fun name => name ∈ held ∨ readable name) value ∧
        saved.map Expr.label? = done.map Expr.label? ∧
        Ready runtime before after.reserved (middle ++ later) held
          (do let values ← runtime.evalAll saved; let value ← runtime.eval value
              return (values, value)) (Then ends)
          (do let values ← action; let value ← next; return (values, value)) := by
  cases later with
  | nil =>
    refine .pure ⟨held ++ more, ?_, residual.mono (by grind), rfl, ?_⟩
    · exact fun other member => (residuals other member).mono (by grind)
    · simpa using ready.silent nextReady
  | cons first rest =>
    have heldIncluded : held ⊆ context.reserved := fun name isHeld =>
      nextReady.grows (ready.taken name isHeld).taken
    refine (mapM_hoist_hoists runtime residuals heldIncluded).imp
      fun (saved, middle) after ⟨gained, savedResiduals, labels, hoists⟩ => ?_
    refine ⟨held ++ gained ++ more, ?_, residual.mono (by grind), labels, ?_⟩
    · exact fun other member => (savedResiduals other member).mono (by grind)
    · exact ready.hoisting nextReady hoists

theorem operandsAfter_cons (done : List Expr) (first : Lowering Expr)
    (rest : List (Lowering Expr)) :
    operandsAfter done (first :: rest) = (StateT.lift (first.run []) >>= fun (value, ahead) =>
      (if ahead.isEmpty then pure done else done.mapM hoist) >>= fun saved =>
        modify (· ++ ahead) >>= fun _ => operandsAfter (saved ++ [value]) rest) := by
  rw [operandsAfter]
  refine bind_congr fun (value, ahead) => ?_
  cases ahead <;> rfl

theorem operandsAfter_ready {before held : List String} {context : Context} {ahead : List Deferred}
    {rest : List (Operand Value Error)} {done : List Expr} {action : Run Value Error (List Value)}
    (each : ∀ operand ∈ rest, Lowers runtime operand.label operand.lowering operand.action)
    (residuals : ∀ value ∈ done, Residual (· ∈ held) value)
    (ready : Ready runtime before context.reserved ahead held (runtime.evalAll done) Same action) :
    Ends context ((operandsAfter done (rest.map Operand.lowering)).run ahead)
      fun (values, later) after => ∃ held, (∀ value ∈ values, Residual (· ∈ held) value) ∧
        values.map Expr.label? = done.map Expr.label? ++ rest.map Operand.label ∧
        Ready runtime before after.reserved later held (runtime.evalAll values) Same
          (do return (← action) ++ (← rest.mapM Operand.action)) := by
  induction rest generalizing held context ahead done action with
  | nil => exact .pure ⟨held, residuals, by simp, by simpa using ready⟩
  | cons first rest induction =>
    rw [List.map_cons, operandsAfter_cons]
    refine ends_bind (ends_lift (each first (by simp) context))
      fun (value, later) _ between ⟨same, more, residual, label, nextReady⟩ => ?_
    subst same
    refine ends_bind (further_ready (fun _ => False) residuals ready
      (residual.mono fun _ => .inl) nextReady)
      fun saved middle after ⟨held, savedResiduals, valueResidual, labels, savedReady⟩ => ?_
    have allResiduals : ∀ other ∈ saved ++ [value], Residual (· ∈ held) other := by
      intro other member
      rcases List.mem_append.mp member with member | member
      · exact savedResiduals other member
      · rw [List.mem_singleton.mp member]
        exact valueResidual.mono (by simp)
    have allReady : Ready runtime before after.reserved (middle ++ later) held
        (runtime.evalAll (saved ++ [value])) Same
        (do let values ← action; return values ++ [← first.action]) := by
      have joined := savedReady.map Same (fun pair => pair.1 ++ [pair.2])
        (fun pair => pair.1 ++ [pair.2]) fun _ _ _ same => congrArg₂ (· ++ [·]) same.1 same.2
      simpa only [Runtime.evalAll_append, Runtime.evalAll_singleton, bind_assoc, pure_bind]
        using joined
    refine (induction (fun operand member => each operand (by simp [member])) allResiduals
      allReady).imp fun (values, last) final ⟨held, valid, allLabels, ready⟩ => ?_
    refine ⟨held, valid, by simp [allLabels, labels, label], ?_⟩
    simpa only [List.mapM_cons, bind_assoc, pure_bind, List.append_assoc, List.cons_append,
      List.nil_append] using ready

theorem operands_lowers {items : List (Operand Value Error)}
    (each : ∀ operand ∈ items, Lowers runtime operand.label operand.lowering operand.action) :
    LowersAll runtime (items.map Operand.label) (operands (items.map Operand.lowering))
      (items.mapM Operand.action) := by
  intro context
  have start : Ready runtime context.reserved context.reserved [] [] (runtime.evalAll []) Same
      (pure []) := by
    unfold Runtime.evalAll
    exact .nothing (.pure fun _ _ => rfl)
  refine (operandsAfter_ready each (by simp) start).imp ?_
  rintro ⟨values, ahead⟩ after ⟨held, residuals, labels, ready⟩
  refine ⟨held, residuals, ?_, ?_⟩
  · simpa using labels
  · simpa using ready

end Lowering
end Unsugar
