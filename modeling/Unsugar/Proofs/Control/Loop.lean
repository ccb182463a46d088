import Unsugar.Lowering.Statement
import Unsugar.Proofs.Control.Mirror
import Unsugar.Proofs.Fresh
import Unsugar.Proofs.Lowering.Settled

/-! Loops. A loop over items, and one whose test needs statements, become loops that
ask in their bodies and note under a hidden name whether they were completed. They
do what the loops do that they come from. -/

namespace Unsugar

/-! ## Rounds -/

namespace Action

variable {State Value α : Type}

theorem attempt_ofResult (result : Except (Interruption Value) Unit) :
    attempt (ofResult result : Action State (Interruption Value) Unit) =
      ofResult (roundEnds result) := by
  refine ext fun before ended after => ?_
  constructor
  · rintro ⟨_, ⟨rfl, rfl⟩, rfl⟩
    exact ⟨rfl, rfl⟩
  · rintro ⟨rfl, rfl⟩
    exact ⟨_, ⟨rfl, rfl⟩, rfl⟩

/-- An evaluation has nothing to say to the loop. -/
theorem attempt_raising_bind (first : Action State Value α)
    (next : α → Action State (Interruption Value) Unit) :
    attempt (raising first >>= next) = (raising first >>= fun value => attempt (next value)) := by
  refine ext fun before ended after => ?_
  constructor
  · rintro ⟨inner, ⟨value, middle, here, there⟩ | ⟨(_ | _ | _ | error), rfl, here⟩, rfl⟩
    · exact .inl ⟨value, middle, here, inner, there, rfl⟩
    · exact here.elim
    · exact here.elim
    · exact here.elim
    · exact .inr ⟨_, rfl, here⟩
  · rintro (⟨value, middle, here, inner, there, rfl⟩ | ⟨(_ | _ | _ | error), rfl, here⟩)
    · exact ⟨inner, .inl ⟨value, middle, here, there⟩, rfl⟩
    · exact here.elim
    · exact here.elim
    · exact here.elim
    · exact ⟨_, .inr ⟨_, rfl, here⟩, rfl⟩

section Setting

variable {Memory : Type} {hidden : List String} (name : String) (value : Option Value)

theorem attempt_setting_bind
    (next : Unit → Action (Store Value Memory) (Interruption Value) Unit) :
    attempt (setting hidden name value >>= next) = (do
      setting hidden name value
      attempt (next ())) := by
  rw [← raising_setting, attempt_raising_bind]

theorem attempt_setting :
    attempt (setting hidden name value : Action (Store Value Memory) (Interruption Value) Unit) =
      (do setting hidden name value; return none) := by
  calc attempt (setting hidden name value)
      = attempt (do setting hidden name value; pure ()) := by rw [bind_pure_unit]
    _ = (do setting hidden name value; attempt (pure ())) := attempt_setting_bind name value _
    _ = (do setting hidden name value; return none) :=
      congrArg _ (funext fun _ => attempt_ofResult _)

end Setting

end Action

/-! ## The loops as statements -/

namespace Lowering

/-- What is run only when a loop was completed. -/
def lastClause (completed : String) (orelse : List Stmt) : List Stmt :=
  if orelse.isEmpty then [] else [.choose (.ofName completed) orelse []]

/-- The body of a loop that asks for its items. -/
def askingRound (iterator item completed : String) (target : Expr) (body : List Stmt) :
    List Stmt :=
  [.store item (.supportCall "next_or_sentinel" [.ofName iterator]),
   .choose (.supportCall "is_" [.ofName item, .support "ITER_COMPLETE"])
    [.store completed (.ofBool true)] (.assign [target] (.ofName item) :: body)]

/-- A loop that asks for its items. -/
def loopOverItems (iterator item completed : String) (target iterable : Expr)
    (body orelse : List Stmt) : List Stmt :=
  [.store completed (.ofBool false), .store iterator (.supportCall "iter" [iterable]),
    .whileLoop .unknown (.supportCall "not_" [.ofName completed])
      (askingRound iterator item completed target body) []] ++
    lastClause completed orelse

/-- A loop that tests in its body. -/
def loopUnderTest (exited : String) (test : Expr) (body orelse : List Stmt) : List Stmt :=
  [.store exited (.ofBool false),
    .whileLoop .unknown (.ofBool true)
      (.choose (.supportCall "not_" [test])
        [.store exited (.ofBool true), .branch .unknown .breakLoop] [] :: body) []] ++
    lastClause exited orelse

/-- The rule for a loop by itself: the parts of the loop stay as they are. -/
def loopRule : Stmt → Option (Desugar (List Stmt))
  | .forLoop position target iterable body orelse =>
    some (looping position (fun item => return [.assign [target] item]) (return iterable)
      (return body) (ifPresent orelse (return orelse)))
  | .whileLoop position test body orelse =>
    if test.needsStatements then
      some (loopTesting position (return test) (return body) (ifPresent orelse (return orelse)))
    else none
  | _ => none

theorem looping_pure (position : Position) (target iterable : Expr) (body orelse : List Stmt) :
    looping position (fun item => return [.assign [target] item]) (return iterable)
        (return body) (ifPresent orelse (return orelse)) = (do
      let iterator ← Desugar.fresh "iter"
      let item ← Desugar.fresh "tmp"
      let completed ← Desugar.fresh "completed"
      Desugar.apply .forLoop .walk position
      return loopOverItems iterator item completed target iterable body orelse) := by
  have start : supporting "iter" [return iterable] = pure (.supportCall "iter" [iterable]) :=
    supporting_pure _ [iterable]
  cases orelse <;> simp only [looping, storing, start, pure_bind, flush_pure] <;> rfl

theorem loopTesting_pure (position : Position) (test : Expr) (body orelse : List Stmt) :
    loopTesting position (return test) (return body) (ifPresent orelse (return orelse)) = (do
      let exited ← Desugar.fresh "exited"
      Desugar.apply .whileLoop .walk position
      return loopUnderTest exited test body orelse) := by
  have failed : supporting "not_" [return test] = pure (.supportCall "not_" [test]) :=
    supporting_pure _ [test]
  cases orelse <;> simp only [loopTesting, failed, pure_bind, flush_pure] <;> rfl

end Lowering

/-! ## What the generated statements do -/

namespace Language

open Unsugar.Action Lowering

variable {Value Memory : Type} (language : Language Value Memory) {hidden : List String}
  (handled : Option Value)

/-- A truth value is noted under a hidden name. -/
def Notes (flag : String) (value : Bool) (own : String → Option Value) : Prop :=
  own flag = some (language.constant (.boolean value))

theorem run_choose (test : Expr) (body orelse : List Stmt) :
    language.run hidden (.choose test body orelse) handled = (do
      if ← raising (language.holds hidden handled test) then language.runAll hidden body handled
      else language.runAll hidden orelse handled) := by
  rw [Stmt.choose, run]

theorem run_note (flag : String) (value : Bool) :
    language.run hidden (.store flag (.ofBool value)) handled =
      setting hidden flag (some (language.constant (.boolean value))) := by
  rw [run_store, eval_ofBool, pure_bind, raising_setting]

theorem holds_not (test : Expr) :
    language.holds hidden handled (.supportCall "not_" [test]) = (do
      return !(← language.holds hidden handled test)) := by
  simp only [holds, eval_supportCall, evalAll, perform, holds_boolean, pure_bind, bind_assoc]

theorem holds_bind_of_notes {α : Type} {flag : String} {value : Bool} (isHidden : flag ∈ hidden)
    {own : String → Option Value} (notes : language.Notes flag value own)
    (visible : Visible Value Memory)
    (next : Bool → Action (Store Value Memory) (Interruption Value) α) :
    (raising (language.holds hidden handled (.ofName flag)) >>= next) ⟨visible, own⟩ =
      next value ⟨visible, own⟩ := by
  have found : Store.lookup hidden ⟨visible, own⟩ flag =
      some (language.constant (.boolean value)) := (if_pos isHidden).trans notes
  rw [holds, eval_ofName, raising_bind, bind_assoc, language.load_bind_of_lookup found,
    holds_boolean, raising_pure, pure_bind]

theorem run_loop_alone (position : Position) (test : Expr) (body : List Stmt) :
    language.run hidden (.whileLoop position test body []) handled = (do
      let _ ← repeating do
        if ← raising (language.holds hidden handled test) then
          attempt (language.runAll hidden body handled)
        else return some true
      return) := by
  rw [run]
  simp only [runAll, ite_self]

theorem runAll_lastClause {flag : String} {completed : Bool} (isHidden : flag ∈ hidden)
    {own : String → Option Value} (notes : language.Notes flag completed own)
    (visible : Visible Value Memory) (orelse : List Stmt) :
    language.runAll hidden (lastClause flag orelse) handled ⟨visible, own⟩ =
      (if completed then language.runAll hidden orelse handled else pure ()) ⟨visible, own⟩ := by
  cases orelse with
  | nil => simp only [lastClause, List.isEmpty_nil, if_pos, runAll, ite_self]
  | cons first rest =>
    have clause : language.runAll hidden (lastClause flag (first :: rest)) handled = (do
        if ← raising (language.holds hidden handled (.ofName flag)) then
          language.runAll hidden (first :: rest) handled
        else language.runAll hidden [] handled) := by
      rw [lastClause, List.isEmpty_cons, if_neg Bool.false_ne_true, runAll_singleton, run_choose]
    rw [clause, language.holds_bind_of_notes handled isHidden notes, runAll]

/-- A round mirrors itself. It does not complete the loop, so the note stays right. -/
theorem mirrors_round {round : Action (Store Value Memory) (Interruption Value) Unit}
    (ignores : round.Ignores) {flag : String} {own : String → Option Value}
    (notes : language.Notes flag false own) {ready : (String → Option Value) → Prop}
    (isReady : ready own)
    {image : Action (Store Value Memory) (Interruption Value) (Option Bool)} :
    Mirrors (TurnNoted image ready (language.Notes flag)) own (attempt round) (attempt round) := by
  refine .refl ignores.attempt ?_
  rintro before _ after ⟨inner, _, rfl⟩
  rcases inner with (_ | _ | _ | _) | _
  · exact .ends notes
  · exact .goesOn isReady
  · exact .fails
  · exact .fails
  · exact .goesOn isReady

theorem mirrors_loop {source image : Action (Store Value Memory) (Interruption Value) (Option Bool)}
    {flag : String} (isHidden : flag ∈ hidden) {orelse : List Stmt}
    (orelseIgnores : (language.runAll hidden orelse handled).Ignores)
    {ready : (String → Option Value) → Prop}
    (turns : ∀ own, ready own →
      Mirrors (TurnNoted image ready (language.Notes flag)) own source image)
    {own : String → Option Value} (isReady : ready own) :
    Mirrors Alike own
      (do if ← repeating source then language.runAll hidden orelse handled)
      (do
        let _ ← repeating image
        language.runAll hidden (lastClause flag orelse) handled) := by
  have clauseIgnores : ∀ completed : Bool, Ignores
      (if completed then language.runAll hidden orelse handled else pure ()) := fun completed => by
    split
    · exact orelseIgnores
    · exact .pure _
  refine (Mirrors.repeating turns isReady).sequel clauseIgnores (fun _ _ => rfl) ?_
  intro completed late notes
  exact .congr (fun visible => language.runAll_lastClause handled isHidden notes visible orelse)
    (.refl (clauseIgnores completed) fun _ => rfl)

/-! ## Loops under a test -/

section UnderTest

variable {exited : String} {test : Expr} {body orelse : List Stmt}

theorem attempt_testingRound :
    attempt (language.runAll hidden
      (.choose (.supportCall "not_" [test])
        [.store exited (.ofBool true), .branch .unknown .breakLoop] [] :: body) handled) = (do
      if ← raising (language.holds hidden handled test) then
        attempt (language.runAll hidden body handled)
      else do
        setting hidden exited (some (language.constant (.boolean true)))
        return some false) := by
  have leaves : (do
        language.runAll hidden [.store exited (.ofBool true), .branch .unknown .breakLoop] handled
        language.runAll hidden body handled) = (do
      setting hidden exited (some (language.constant (.boolean true)))
      ofResult (.error .breaks)) := by
    rw [runAll, runAll_singleton, run_note, run, bind_assoc, error_bind]
  rw [runAll, run_choose, holds_not, raising_bind, bind_assoc, bind_assoc, attempt_raising_bind]
  refine bind_congr fun holds => ?_
  rw [raising_pure, pure_bind]
  cases holds with
  | true => simp only [Bool.not_true, runAll, pure_bind, if_pos, if_neg Bool.false_ne_true]
  | false =>
    simp only [Bool.not_false, if_pos, if_neg Bool.false_ne_true, leaves, attempt_setting_bind,
      attempt_ofResult]
    rfl

theorem runAll_loopUnderTest :
    language.runAll hidden (loopUnderTest exited test body orelse) handled = (do
      setting hidden exited (some (language.constant (.boolean false)))
      let _ ← repeating do
        if ← raising (language.holds hidden handled test) then
          attempt (language.runAll hidden body handled)
        else do
          setting hidden exited (some (language.constant (.boolean true)))
          return some false
      language.runAll hidden (lastClause exited orelse) handled) := by
  have always : language.holds hidden handled (.ofBool true) = pure true := by
    rw [holds, eval_ofBool, pure_bind, holds_boolean]
  rw [loopUnderTest, List.cons_append, List.singleton_append, runAll, runAll, run_note,
    run_loop_alone]
  simp only [always, raising_pure, pure_bind, if_pos, attempt_testingRound, bind_assoc]

theorem mirrors_loopUnderTest (isHidden : exited ∈ hidden) {position : Position} {depth : Nat}
    (avoids : Avoids hidden
      ((Stmt.whileLoop position test body orelse).walk (fun _ => true) depth))
    (own : String → Option Value) :
    Mirrors Alike own (language.run hidden (.whileLoop position test body orelse) handled)
      (language.runAll hidden (loopUnderTest exited test body orelse) handled) := by
  rw [Stmt.walk, avoids_visit, avoids_append, avoids_append] at avoids
  obtain ⟨_, ⟨testAvoids, bodyAvoids⟩, orelseAvoids⟩ := avoids
  rw [runAll_loopUnderTest, run]
  have running : language.Notes exited false
      (Function.update own exited (some (language.constant (.boolean false)))) :=
    Function.update_self ..
  refine .setting isHidden (language.mirrors_loop handled isHidden
    (language.runAll_ignores orelse _ handled orelseAvoids) ?_ running)
  intro own notes
  refine .bind (language.holds_ignores handled testAvoids).raising (fun _ => .fails) fun holds => ?_
  cases holds with
  | true =>
    exact language.mirrors_round (language.runAll_ignores body _ handled bodyAvoids) notes notes
  | false =>
    -- Both end here, and the image is broken off; what it gives is of no use to anyone.
    exact .setting isHidden (.pure (.ends (Function.update_self ..)))

end UnderTest

/-! ## Loops over items -/

section OverItems

variable {iterator item completed : String} {target iterable : Expr} {body orelse : List Stmt}

theorem holds_isExhausted (name : String) :
    language.holds hidden handled (.supportCall "is_" [.ofName name, .support "ITER_COMPLETE"]) =
      (do return language.same (← language.load hidden name) language.exhausted) := by
  have exhausted : language.eval hidden handled (.support "ITER_COMPLETE") =
      pure language.exhausted := rfl
  simp only [holds, eval_supportCall, evalAll, eval_ofName, exhausted, perform, holds_boolean,
    pure_bind, bind_assoc]

theorem run_assign (target value : Expr) :
    language.run hidden (.assign [target] value) handled = (do
      let found ← raising (language.eval hidden handled value)
      raising (language.assignTo hidden handled target found)) := by
  simp only [run, assignAll, raising_bind, bind_pure_unit]

theorem choose_item (found : Value) :
    (do
      setting hidden item (some found)
      language.run hidden (.choose (.supportCall "is_" [.ofName item, .support "ITER_COMPLETE"])
        [.store completed (.ofBool true)] (.assign [target] (.ofName item) :: body)) handled) = (do
      setting hidden item (some found)
      if language.same found language.exhausted then
        setting hidden completed (some (language.constant (.boolean true)))
      else do
        raising (language.assignTo hidden handled target found)
        language.runAll hidden body handled) := by
  simp only [run_choose, holds_isExhausted, raising_bind, raising_pure, bind_assoc, pure_bind,
    setting_load]
  -- Where the item is used, it was set just before, so it is loaded once more.
  split
  · rw [runAll_singleton, run_note]
  · simp only [runAll, run_assign, eval_ofName, bind_assoc, setting_load]

/-- What a round does that asks for its item. The value that stands for the end
tells whether there was one. -/
theorem attempt_askingRound :
    attempt (language.runAll hidden (askingRound iterator item completed target body) handled) = (do
      let items ← raising (language.load hidden iterator)
      let next ← raising (ofVisible (language.next items))
      setting hidden item (some (next.getD language.exhausted))
      match next with
      | none => do
        setting hidden completed (some (language.constant (.boolean true)))
        return none
      | some found => attempt do
        raising (language.assignTo hidden handled target found)
        language.runAll hidden body handled) := by
  have finds : language.run hidden
      (.store item (.supportCall "next_or_sentinel" [.ofName iterator])) handled = (do
        let items ← raising (language.load hidden iterator)
        let next ← raising (ofVisible (language.next items))
        setting hidden item (some (next.getD language.exhausted))) := by
    simp only [run_store, eval_supportCall, evalAll, eval_ofName, perform, pure_bind, bind_assoc,
      raising_bind, raising_setting]
  rw [askingRound, runAll, runAll_singleton, finds, bind_assoc, attempt_raising_bind]
  refine bind_congr fun items => ?_
  rw [bind_assoc, attempt_raising_bind]
  -- That an item is not the end can only be said of an item that the iterator gave.
  refine bind_congr_of_gives fun before next after asked => ?_
  rw [choose_item, attempt_setting_bind]
  cases next with
  | none =>
    rw [Option.getD_none, language.same_exhausted, if_pos rfl, attempt_setting]
  | some found =>
    rw [Option.getD_some, language.next_not_exhausted asked.1, if_neg Bool.false_ne_true]

variable (hidden) in
/-- One turn of a loop that asks for its items. -/
def askingTurn (iterator item completed : String) (target : Expr) (body : List Stmt) :
    Action (Store Value Memory) (Interruption Value) (Option Bool) := do
  if ← raising (language.holds hidden handled (.supportCall "not_" [.ofName completed])) then
    attempt (language.runAll hidden (askingRound iterator item completed target body) handled)
  else return some true

theorem runAll_loopOverItems :
    language.runAll hidden (loopOverItems iterator item completed target iterable body orelse)
        handled = (do
      setting hidden completed (some (language.constant (.boolean false)))
      let value ← raising (language.eval hidden handled iterable)
      let items ← raising (ofVisible (language.iterator value))
      setting hidden iterator (some items)
      let _ ← repeating (language.askingTurn hidden handled iterator item completed target body)
      language.runAll hidden (lastClause completed orelse) handled) := by
  have starts : language.run hidden (.store iterator (.supportCall "iter" [iterable])) handled = (do
      let value ← raising (language.eval hidden handled iterable)
      let items ← raising (ofVisible (language.iterator value))
      setting hidden iterator (some items)) := by
    simp only [run_store, eval_supportCall, evalAll, perform, pure_bind, bind_assoc, raising_bind,
      raising_setting]
  rw [loopOverItems, List.cons_append, List.cons_append, List.singleton_append, runAll, runAll,
    runAll, run_note, starts, run_loop_alone]
  simp only [bind_assoc, pure_bind, askingTurn]

theorem askingTurn_of_notes (isHidden : completed ∈ hidden) {value : Bool}
    {own : String → Option Value} (notes : language.Notes completed value own)
    (visible : Visible Value Memory) :
    language.askingTurn hidden handled iterator item completed target body ⟨visible, own⟩ =
      (if value then pure (some true)
        else attempt (language.runAll hidden (askingRound iterator item completed target body)
          handled)) ⟨visible, own⟩ := by
  rw [askingTurn, holds_not, raising_bind, bind_assoc,
    language.holds_bind_of_notes handled isHidden notes, raising_pure, pure_bind]
  cases value <;> rfl

/-- The loop is not completed, and its iterator is at hand. -/
structure Running (iterator completed : String) (items : Value) (own : String → Option Value) :
    Prop where
  notes : language.Notes completed false own
  found : own iterator = some items

theorem askingTurn_of_running (iteratorHidden : iterator ∈ hidden)
    (completedHidden : completed ∈ hidden) {items : Value} {own : String → Option Value}
    (running : language.Running iterator completed items own) (visible : Visible Value Memory) :
    language.askingTurn hidden handled iterator item completed target body ⟨visible, own⟩ = (do
      let next ← raising (ofVisible (language.next items))
      setting hidden item (some (next.getD language.exhausted))
      match next with
      | none => do
        setting hidden completed (some (language.constant (.boolean true)))
        return none
      | some found => attempt do
        raising (language.assignTo hidden handled target found)
        language.runAll hidden body handled :
          Action (Store Value Memory) (Interruption Value) (Option Bool)) ⟨visible, own⟩ := by
  have loaded : Store.lookup hidden ⟨visible, own⟩ iterator = some items :=
    (if_pos iteratorHidden).trans running.found
  rw [language.askingTurn_of_notes handled completedHidden running.notes,
    if_neg Bool.false_ne_true, attempt_askingRound, language.load_bind_of_lookup loaded]

variable (areHidden : ∀ name ∈ [iterator, item, completed], name ∈ hidden)
  (distinct : [iterator, item, completed].Nodup)

include areHidden distinct

theorem mirrors_askingTurn (targetIgnores : ∀ found,
      (language.assignTo hidden handled target found).Ignores)
    (bodyIgnores : (language.runAll hidden body handled).Ignores) {items : Value}
    {own : String → Option Value} (running : language.Running iterator completed items own) :
    Mirrors
      (TurnNoted (language.askingTurn hidden handled iterator item completed target body)
        (language.Running iterator completed items) (language.Notes completed))
      own
      (do
        match ← raising (ofVisible (language.next items)) with
        | none => return some true
        | some found => attempt do
          raising (language.assignTo hidden handled target found)
          language.runAll hidden body handled)
      (language.askingTurn hidden handled iterator item completed target body) := by
  have iteratorHidden := areHidden iterator (by simp)
  have completedHidden := areHidden completed (by simp)
  refine .congr (language.askingTurn_of_running handled iteratorHidden completedHidden running) ?_
  refine .bind (Ignores.raising (.ofVisible _)) (fun _ => .fails) fun next => ?_
  refine .setting (areHidden item (by simp)) ?_
  cases next with
  | none =>
    -- The source is completed here; the image ends at its next turn, when it finds the note.
    exact .setting completedHidden (.pure (.endsNext (Function.update_self ..)
      (language.askingTurn_of_notes handled completedHidden (Function.update_self ..))))
  | some found =>
    have kept : language.Running iterator completed items (Function.update own item (some found)) :=
      ⟨(Function.update_of_ne (by grind) ..).trans running.notes,
        (Function.update_of_ne (by grind) ..).trans running.found⟩
    have round := (targetIgnores found).raising.bind fun _ => bodyIgnores
    exact language.mirrors_round round kept.notes kept

theorem mirrors_loopOverItems {position : Position} {depth : Nat}
    (avoids : Avoids hidden
      ((Stmt.forLoop position target iterable body orelse).walk (fun _ => true) depth))
    (own : String → Option Value) :
    Mirrors Alike own (language.run hidden (.forLoop position target iterable body orelse) handled)
      (language.runAll hidden (loopOverItems iterator item completed target iterable body orelse)
        handled) := by
  rw [Stmt.walk, avoids_visit, avoids_append, avoids_append, avoids_append] at avoids
  obtain ⟨_, ⟨⟨targetAvoids, iterableAvoids⟩, bodyAvoids⟩, orelseAvoids⟩ := avoids
  have completedHidden := areHidden completed (by simp)
  rw [runAll_loopOverItems, run]
  refine .setting completedHidden ?_
  refine .bind (language.eval_ignores handled iterable _ iterableAvoids).raising
    (fun _ => rfl) fun value => ?_
  refine .bind (Ignores.raising (.ofVisible _)) (fun _ => rfl) fun items => ?_
  refine .setting (areHidden iterator (by simp)) ?_
  refine language.mirrors_loop handled completedHidden
    (language.runAll_ignores orelse _ handled orelseAvoids)
    (fun own running => language.mirrors_askingTurn handled areHidden distinct
      (fun found => language.assignTo_ignores handled targetAvoids found)
      (language.runAll_ignores body _ handled bodyAvoids) running) ?_
  exact ⟨(Function.update_of_ne (by grind) ..).trans (Function.update_self ..),
    Function.update_self ..⟩

end OverItems

end Language

/-! ## The whole statement -/

namespace Lowering

/-- A loop over items, and a loop whose test needs statements, become statements that
do the same in every language, as far as user code sees: a round that breaks the loop
off skips the last clause, one that continues leads to the next item or test, the
last clause is run once when there are no more items or the test fails, and what
interrupts more than the loop, or the last clause, interrupts the statements too. The
names that are hidden from user code are those that were taken on the way. -/
theorem loopRule_keeps_meaning {loop : Stmt} {lowered : Desugar (List Stmt)}
    (isLoop : loopRule loop = some lowered) {context : Context}
    (areTaken : ∀ name ∈ loop.names, name ∈ context.reserved) (steps : List Step) :
    ∃ made after later hidden, lowered context steps = (.ok (made, after), later) ∧
      after.reserved = hidden ++ context.reserved ∧ (∀ name ∈ hidden, name ∉ context.reserved) ∧
      ∀ {Value Memory : Type} (language : Language Value Memory) (handled : Option Value)
        (before : Store Value Memory),
        (language.runAll hidden made handled).seen before =
          (language.run hidden loop handled).seen before := by
  unfold loopRule at isLoop
  split at isLoop
  case h_1 position target iterable body orelse =>
    cases isLoop
    rw [looping_pure]
    let first := context.fresh "iter"
    let second := first.2.fresh "tmp"
    let third := second.2.fresh "completed"
    have firstFree : first.1 ∉ context.reserved := context.fresh_not_mem _
    have secondFree : second.1 ∉ first.1 :: context.reserved := first.2.fresh_not_mem _
    have thirdFree : third.1 ∉ second.1 :: first.1 :: context.reserved := second.2.fresh_not_mem _
    have areFree : ∀ name ∈ [third.1, second.1, first.1], name ∉ context.reserved := by grind
    refine ⟨loopOverItems first.1 second.1 third.1 target iterable body orelse, _, _,
      [third.1, second.1, first.1], rfl, rfl, areFree, ?_⟩
    intro Value Memory language handled ⟨visible, own⟩
    exact (language.mirrors_loopOverItems handled (by grind) (by grind)
      (avoids_of_taken areTaken areFree) own).seen_eq visible
  case h_2 position test body orelse =>
    rw [Option.ite_none_right_eq_some] at isLoop
    obtain ⟨_, ⟨⟩⟩ := isLoop
    rw [loopTesting_pure]
    let exited := context.fresh "exited"
    have areFree : ∀ name ∈ [exited.1], name ∉ context.reserved := by
      simpa using context.fresh_not_mem "exited"
    refine ⟨loopUnderTest exited.1 test body orelse, _, _, [exited.1], rfl, rfl, areFree, ?_⟩
    intro Value Memory language handled ⟨visible, own⟩
    exact (language.mirrors_loopUnderTest handled (List.mem_singleton_self _)
      (avoids_of_taken areTaken areFree) own).seen_eq visible
  case h_3 => cases isLoop

/-- A language whose values are constants, and one value more for the end of an
iterator. Its memory is the number of items that are left. -/
def countdown : Language (Option Constant) Nat where
  constant := some
  unbound name := some (.text name)
  nothingHandled := some .none
  exhausted := none
  same first second := decide (first = second)
  truth
    | some (.boolean value) => pure value
    | _ => pure true
  iterator := pure
  next _ before ended after :=
    match before.memory with
    | 0 => ended = .ok none ∧ after = before
    | left + 1 => ended = .ok (some (some (.integer left))) ∧ after = { before with memory := left }
  catches _ _ := pure false
  enter := pure
  exit _ _ := pure false
  support _ _ _ := pure (some .none)
  evaluate _ _ := pure (some .none)
  assign _ _ _ := pure ()
  execute _ _ := pure ()
  truth_boolean _ := rfl
  same_exhausted := rfl
  next_not_exhausted {_ before item after} found := by
    split at found <;> cases found.1
    rfl

/-- A search that is broken off when something was found. -/
def searchLoop : Stmt :=
  .forLoop .unknown (.ofName "item") (.ofName "items")
    [.conditional .unknown (.ofName "found") [.branch .unknown .breakLoop] .unknown []]
    [.store "item" .absent]

theorem searchLoop_keeps_meaning :
    (∀ name ∈ searchLoop.names, name ∈ (Context.ofModule [searchLoop]).reserved) ∧
    ∃ lowered made after later hidden, loopRule searchLoop = some lowered ∧
      lowered (.ofModule [searchLoop]) [] = (.ok (made, after), later) ∧
      ∀ handled before, (countdown.runAll hidden made handled).seen before =
        (countdown.run hidden searchLoop handled).seen before := by
  have areTaken : ∀ name ∈ searchLoop.names,
      name ∈ (Context.ofModule [searchLoop]).reserved := by decide
  obtain ⟨made, after, later, hidden, ran, _, _, same⟩ :=
    loopRule_keeps_meaning (show loopRule searchLoop = some _ from rfl) areTaken []
  exact ⟨areTaken, _, made, after, later, hidden, rfl, ran, fun handled before =>
    same countdown handled before⟩

end Lowering
end Unsugar
