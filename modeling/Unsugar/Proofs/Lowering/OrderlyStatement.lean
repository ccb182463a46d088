import Unsugar.Lowering.Statement
import Unsugar.Proofs.Lowering.Orderly

/-! Lowering statements keeps a module orderly. Decorators stay where they are, every
function that lowering makes has none, and of the handlers of a statement at most one is
left. -/

namespace Unsugar
namespace Lowering

open Desugar (growing Orderly)

/-! ## Assignments and deletions -/

theorem assign_orderly (env : Env) (target value : Expr) : Orderly (assign env target value) :=
  assignTo_orderly env target value (lower_steady env value)

theorem assignAll_orderly (env : Env) (targets : List Expr) (value : Expr) :
    Orderly (assignAll env targets value) := by
  have stored : ∀ saved : Option String, Orderly (Deferred.runAll
      (saved.toList.map (fun name => storing name (lower env value)) ++
        targets.map fun target => assign env target ((saved.map Expr.ofName).getD value))) := by
    intro saved
    refine growing.runAll (List.forall_mem_append.mpr ⟨?_, ?_⟩)
    · exact List.forall_mem_map.mpr fun name _ => storing_orderly (lower_steady env value)
    · exact List.forall_mem_map.mpr fun target _ => assign_orderly env target _
  unfold assignAll
  split
  · refine growing.bind (growing.pure trivial) fun saved (_ : True) => ?_
    exact growing.bind (growing.apply _ _ _) fun _ _ => stored saved
  · have named : growing.Gives (fun _ => True) (some <$> Desugar.fresh "tmp") :=
      growing.map (growing.fresh "tmp") fun _ _ => trivial
    refine growing.bind named fun saved _ => ?_
    exact growing.bind (growing.apply _ _ _) fun _ _ => stored saved

theorem once_orderly (env : Env) (named : Bool) (part : Expr) :
    growing.Gives (fun found => ∀ deferred ∈ found.2, Orderly deferred) (once env named part) := by
  unfold once
  split
  · exact growing.pure (by simp)
  · refine growing.bind (growing.fresh "tmp") fun saved _ => growing.pure ?_
    simpa using storing_orderly (lower_steady env part)

theorem readAndWrite_orderly (env : Env) (named : Bool) (target : Expr) :
    growing.Gives (fun found => ∀ deferred ∈ found.2.2, Orderly deferred)
      (readAndWrite env named target) := by
  cases target with
  | name => exact growing.pure (by simp)
  | member object =>
    exact growing.bind (once_orderly env named object) fun _ ahead => growing.pure ahead
  | subscript object key =>
    refine growing.bind (once_orderly env named object) fun _ aheadObject => ?_
    refine growing.bind (once_orderly env named key) fun _ aheadKey => growing.pure ?_
    exact List.forall_mem_append.mpr ⟨aheadObject, aheadKey⟩
  | _ => exact growing.refuse _ _

theorem augment_orderly (env : Env) (target : Expr) (op : BinaryOp) (value : Expr) :
    Orderly (augment env target op value) := by
  refine growing.bind (readAndWrite_orderly env _ target) fun (read, written, ahead) each => ?_
  refine growing.bind (growing.apply _ _ _) fun _ _ => growing.runAll ?_
  exact List.forall_mem_append.mpr ⟨each, by simpa using assign_orderly env written _⟩

mutual

theorem deleteTarget_orderly (env : Env) (position : Position) :
    ∀ (target : Expr) (deletions : List Deferred),
      deleteTarget env position target = .ok deletions → ∀ deletion ∈ deletions, Orderly deletion
  | .name .., _, found => by
    cases found
    exact List.forall_mem_singleton.mpr (growing.pure rfl)
  | .tuple _ items _, deletions, found | .list _ items _, deletions, found =>
    deleteTargets_orderly env position items deletions found
  | .subscript object key _, _, found => by
    cases found
    have called : IsSteady (supporting "delitem" [lower env object, lower env key]) :=
      supporting_steady (by simpa using ⟨lower_steady env object, lower_steady env key⟩)
    exact List.forall_mem_singleton.mpr (Steady.flush (called.bind fun _ _ => .pure rfl))
  | .member object _ id, deletions, found => by
    have objectSteady := lower_steady env object
    have called : IsSteady (supporting "delattr" [lower env object, return .ofText id]) :=
      supporting_steady (by simpa using ⟨objectSteady, .pure trivial⟩)
    unfold deleteTarget at found
    split at found
    · cases found
      exact List.forall_mem_singleton.mpr (Steady.flush (objectSteady.bind fun _ _ => .pure rfl))
    · cases found
      exact List.forall_mem_singleton.mpr (Steady.flush (called.bind fun _ _ => .pure rfl))
  | .literal .., _, found | .fstring .., _, found | .field .., _, found | .call .., _, found
  | .keyword .., _, found | .starred .., _, found | .slice .., _, found | .binary .., _, found
  | .logical .., _, found | .compare .., _, found | .unary .., _, found
  | .conditional .., _, found | .lambda .., _, found | .set .., _, found | .dict .., _, found
  | .entry .., _, found | .comprehension .., _, found | .named .., _, found
  | .yield .., _, found => by cases found

theorem deleteTargets_orderly (env : Env) (position : Position) :
    ∀ (targets : List Expr) (deletions : List Deferred),
      deleteTargets env position targets = .ok deletions → ∀ deletion ∈ deletions, Orderly deletion
  | [], _, found => by
    cases found
    simp
  | first :: rest, deletions, found => by
    rw [deleteTargets] at found
    cases firstFound : deleteTarget env position first with
    | error => simp [firstFound, bind, Except.bind] at found
    | ok here =>
      cases restFound : deleteTargets env position rest with
      | error => simp [firstFound, restFound, bind, Except.bind] at found
      | ok later =>
        have equal : here ++ later = deletions := by
          simpa [firstFound, restFound, bind, Except.bind, pure, Except.pure] using found
        rw [← equal]
        exact List.forall_mem_append.mpr ⟨deleteTarget_orderly env position first here firstFound,
          deleteTargets_orderly env position rest later restFound⟩

end

theorem delete_orderly (env : Env) (position : Position) (targets : List Expr) :
    Orderly (delete env position targets) := by
  unfold delete
  split
  · exact growing.refuse _ _
  · rename_i deletions found
    have run := growing.runAll (deleteTargets_orderly env position targets deletions found)
    split
    · exact growing.bind (growing.apply _ _ _) fun _ _ => run
    · exact run

theorem assertionFailure_orderly (env : Env) (message : Option Expr) :
    Orderly (flush do
      match message with
      | none => return .raises .unknown (some (.builtin "AssertionError")) none
      | some message =>
        return .raises .unknown (some (← applying (return .builtin "AssertionError")
          [lower env message])) none) := by
  refine Steady.flush ?_
  cases message with
  | none => exact .pure rfl
  | some message =>
    have called : IsSteady (applying (return .builtin "AssertionError") [lower env message]) :=
      applying_steady (.pure trivial) (by simpa using lower_steady env message)
    exact called.bind fun _ _ => .pure rfl

theorem assert_orderly (env : Env) (position : Position) (test : Expr) (message : Option Expr) :
    Orderly (assert env position test message) := by
  refine growing.bind (growing.apply _ _ _) fun _ _ => ?_
  have failed : IsSteady (supporting "not_" [lower env test]) :=
    supporting_steady (by simpa using lower_steady env test)
  refine growing.bind (Steady.flush (failed.bind fun test _ =>
    (Steady.lift (assertionFailure_orderly env message)).bind fun body orderly => .pure ?_))
    fun checks orderly => growing.pure ?_
  · simp [orderly]
  · simp [orderly]

/-! ## Imports -/

theorem areOrderly_map_assign {α : Type} (items : List α) (target value : α → Expr) :
    Stmt.areOrderly (items.map fun item => .assign [target item] (value item)) = true :=
  Stmt.areOrderly_iff.mpr (List.forall_mem_map.mpr fun _ _ => rfl)

theorem importModules_orderly (position : Position) (names : List Alias) :
    Orderly (importModules position names) :=
  growing.bind (growing.apply _ _ _) fun _ _ => growing.pure (areOrderly_map_assign names _ _)

theorem importMembers_orderly (env : Env) (position : Position) (source : String) (level : Nat)
    (names : List Alias) (closing : Position) :
    Orderly (importMembers env position source level names closing) := by
  unfold importMembers
  dsimp only
  split
  · exact growing.pure rfl
  · exact growing.refuse _ _
  · exact growing.bind (growing.apply _ _ _) fun _ _ => growing.pure rfl
  · split
    · exact growing.pure rfl
    · refine growing.bind (growing.fresh "import") fun imported _ => ?_
      refine growing.bind (growing.apply _ _ _) fun _ _ => growing.pure ?_
      rw [Stmt.areOrderly_cons, areOrderly_map_assign names _ _]
      rfl

/-! ## Compound statements -/

theorem loopTesting_orderly {position : Position} {test : Lowering Expr}
    {body : Desugar (List Stmt)} {orelse : Option (Desugar (List Stmt))}
    (testSteady : IsSteady test) (bodyOrderly : Orderly body)
    (orelseOrderly : ∀ action ∈ orelse, Orderly action) :
    Orderly (loopTesting position test body orelse) := by
  refine growing.bind (growing.fresh "exited") fun exited _ => ?_
  refine growing.bind (growing.apply _ _ _) fun _ _ => ?_
  have failed : IsSteady (supporting "not_" [test]) :=
    supporting_steady (by simpa using testSteady)
  refine growing.bind (Steady.flush (failed.bind fun _ _ => .pure rfl)) fun check checkOrderly => ?_
  refine growing.bind bodyOrderly fun body bodyOrderly => ?_
  cases orelse with
  | none =>
    refine growing.pure ?_
    simp [Stmt.isOrderly, checkOrderly, bodyOrderly]
  | some orelse =>
    refine growing.bind (orelseOrderly orelse rfl) fun after afterOrderly => growing.pure ?_
    simp [Stmt.isOrderly, checkOrderly, bodyOrderly, afterOrderly]

theorem managing_orderly (env : Env) (position : Position) {body : Desugar (List Stmt)}
    (bodyOrderly : Orderly body) :
    ∀ items : List WithItem, Orderly (managing env position body items)
  | [] => bodyOrderly
  | item :: rest => by
    refine growing.bind (growing.fresh "with_ctx") fun manager _ => ?_
    refine growing.bind (growing.fresh "with_exit") fun exit _ => ?_
    refine growing.bind (growing.fresh "with_ok") fun succeeded _ => ?_
    refine growing.bind (growing.apply _ _ _) fun _ _ => ?_
    refine growing.bind (storing_orderly (lower_steady env item.manager))
      fun start startOrderly => ?_
    have restOrderly := managing_orderly env position bodyOrderly rest
    cases item.target with
    | none =>
      have entering : Orderly
          (pure [.expression (.supportCall "contextmanager_enter" [.ofName manager])]) :=
        growing.pure rfl
      refine growing.bind entering fun entered enteredOrderly => ?_
      refine growing.bind restOrderly fun inner innerOrderly => growing.pure ?_
      simp [Stmt.isOrderly, Stmt.areHandlersOrderly, earlyBareHandler?, startOrderly,
        enteredOrderly, innerOrderly]
    | some target =>
      refine growing.bind (assign_orderly env target _) fun entered enteredOrderly => ?_
      refine growing.bind restOrderly fun inner innerOrderly => growing.pure ?_
      simp [Stmt.isOrderly, Stmt.areHandlersOrderly, earlyBareHandler?, startOrderly,
        enteredOrderly, innerOrderly]

theorem namingException_orderly (ident : Option Ident) (position : Position) {body : List Stmt}
    (bodyOrderly : Stmt.areOrderly body = true) :
    Stmt.areOrderly (namingException ident position body) = true := by
  cases ident with
  | none => exact bodyOrderly
  | some ident =>
    simp [namingException, Stmt.isOrderly, Stmt.areHandlersOrderly, earlyBareHandler?, bodyOrderly]

/-- A handler whose parts are lowered as they should. -/
structure Catch.IsOrderly (handler : Catch) : Prop where
  type : ∀ type ∈ handler.type, IsSteady type
  body : Orderly handler.body

theorem choosingHandler_orderly : ∀ {handlers : List Catch},
    (∀ handler ∈ handlers, handler.IsOrderly) → Orderly (choosingHandler handlers)
  | [], _ => growing.pure rfl
  | ⟨_, none, _, _⟩ :: _, each => (List.forall_mem_cons.mp each).1.body
  | ⟨position, some type, ident, body⟩ :: rest, each => by
    obtain ⟨here, later⟩ := List.forall_mem_cons.mp each
    have matching : IsSteady
        (supporting "exception_matches" [return currentException, type]) := by
      refine supporting_steady ?_
      simpa using ⟨.pure trivial, here.type type rfl⟩
    refine Steady.flush (matching.bind fun _ _ => ?_)
    refine (Steady.lift here.body).bind fun body bodyOrderly => ?_
    refine (Steady.lift (choosingHandler_orderly later)).bind fun others othersOrderly => .pure ?_
    simp [namingException_orderly ident position bodyOrderly, othersOrderly]

theorem catching_orderly {position : Position} {body orelse final : Desugar (List Stmt)}
    {handlers : List Catch} (bodyOrderly : Orderly body)
    (handlersOrderly : ∀ handler ∈ handlers, handler.IsOrderly) (orelseOrderly : Orderly orelse)
    (finalOrderly : Orderly final) : Orderly (catching position body handlers orelse final) := by
  refine growing.bind (growing.apply _ _ _) fun _ _ => ?_
  refine growing.bind bodyOrderly fun _ bodyOrderly => ?_
  refine growing.bind (choosingHandler_orderly handlersOrderly) fun _ chosenOrderly => ?_
  refine growing.bind orelseOrderly fun _ orelseOrderly => ?_
  refine growing.bind finalOrderly fun _ finalOrderly => growing.pure ?_
  simp [Stmt.isOrderly, Stmt.areHandlersOrderly, earlyBareHandler?, bodyOrderly, chosenOrderly,
    orelseOrderly, finalOrderly]

theorem ifPresent_orderly {source : List Stmt} {lowered : Desugar (List Stmt)}
    (orderly : Orderly lowered) : ∀ action ∈ ifPresent source lowered, Orderly action := by
  unfold ifPresent
  split
  · simp
  · simpa using orderly

/-- Of handlers that all have no type, there is at most one where none comes too early. -/
theorem length_le_one_of_bare {handlers : List Handler} (bare : ¬ handlers.any isTyped = true)
    (ordered : (earlyBareHandler? handlers).isNone = true) : handlers.length ≤ 1 := by
  match handlers with
  | [] | [_] => simp
  | first :: second :: rest =>
    have untyped : first.type = none := by
      rw [Bool.not_eq_true, List.any_eq_false] at bare
      have plain := bare first (by simp)
      unfold isTyped at plain
      simpa using plain
    simp [earlyBareHandler?, untyped] at ordered

theorem earlyBareHandler?_of_length_le_one {handlers : List Handler} (few : handlers.length ≤ 1) :
    (earlyBareHandler? handlers).isNone = true := by
  match handlers, few with
  | [], _ | [_], _ => rfl

mutual

theorem lowerStmt_orderly (env : Env) :
    ∀ stmt : Stmt, stmt.isOrderly = true → Orderly (lowerStmt env stmt)
  | .expression value, _ => Steady.flush ((lower_steady env value).bind fun _ _ => .pure rfl)
  | .assign [target] value, _ => assign_orderly env target value
  | .assign [] value, _ => assignAll_orderly env [] value
  | .assign (first :: second :: rest) value, _ =>
    assignAll_orderly env (first :: second :: rest) value
  | .augAssign target op value, _ => augment_orderly env target op value
  | .annAssign _ _ none, _ => growing.bind (growing.apply _ _ _) fun _ _ => growing.pure rfl
  | .annAssign target _ (some value), _ =>
    growing.bind (growing.apply _ _ _) fun _ _ => assign_orderly env target value
  | .delete position targets, _ => delete_orderly env position targets
  | .branch .., _ => growing.pure rfl
  | .returns _ result, _ =>
    Steady.flush ((lowerOption_steady env result).bind fun _ _ => .pure rfl)
  | .raises _ (some exception) (some cause), _ => by
    have raised : IsSteady (supporting "raise_from" [lower env exception, lower env cause]) :=
      supporting_steady (by simpa using ⟨lower_steady env exception, lower_steady env cause⟩)
    refine growing.bind (growing.apply _ _ _) fun _ _ => Steady.flush ?_
    exact raised.bind fun _ _ => .pure rfl
  | .raises _ none _, _ => Steady.flush (Steady.pure rfl)
  | .raises _ (some exception) none, _ =>
    Steady.flush ((lowerOption_steady env (some exception)).bind fun _ _ => .pure rfl)
  | .declare .., _ => growing.pure rfl
  | .asserts position test message, _ => assert_orderly env position test message
  | .imports position names, _ => importModules_orderly position names
  | .importFrom position source level names closing, _ =>
    importMembers_orderly env position source level names closing
  | .conditional _ test body _ orelse, orderly => by
    have parts := Bool.and_eq_true_iff.mp orderly
    refine Steady.flush ((lower_steady env test).bind fun _ _ => ?_)
    refine (Steady.lift (lowerBody_orderly env body parts.1)).bind fun _ bodyOrderly => ?_
    refine (Steady.lift (lowerBody_orderly env orelse parts.2)).bind
      fun _ orelseOrderly => .pure ?_
    simp [bodyOrderly, orelseOrderly]
  | .whileLoop position test body orelse, orderly => by
    have parts := Bool.and_eq_true_iff.mp orderly
    have bodyOrderly := lowerBody_orderly env body parts.1
    have orelseOrderly := lowerBody_orderly env orelse parts.2
    rw [lowerStmt]
    split
    · exact loopTesting_orderly (lower_steady env test) bodyOrderly
        (ifPresent_orderly orelseOrderly)
    · refine Steady.flush ((lower_steady env test).bind fun _ _ => ?_)
      refine (Steady.lift bodyOrderly).bind fun body bodyOrderly => ?_
      refine (Steady.lift orelseOrderly).bind fun orelse orelseOrderly => .pure ?_
      simp [Stmt.isOrderly, bodyOrderly, orelseOrderly]
  | .forLoop _ target iterable body orelse, orderly => by
    have parts := Bool.and_eq_true_iff.mp orderly
    exact looping_orderly (fun name => assign_orderly env target (.ofName name))
      (lower_steady env iterable) (lowerBody_orderly env body parts.1)
      (ifPresent_orderly (lowerBody_orderly env orelse parts.2))
  | .tryBlock position body handlers orelse final, orderly => by
    simp only [Stmt.isOrderly, Bool.and_eq_true] at orderly
    have bodyOrderly := lowerBody_orderly env body orderly.1.1.1.2
    have handlersOrderly := lowerHandlers_orderly env handlers orderly.1.1.2
    have catchesOrderly := lowerCatches_orderly env handlers orderly.1.1.2
    have orelseOrderly := lowerBody_orderly env orelse orderly.1.2
    have finalOrderly := lowerBody_orderly env final orderly.2
    rw [lowerStmt]
    split
    · split
      · exact growing.refuse _ _
      · exact catching_orderly bodyOrderly catchesOrderly orelseOrderly finalOrderly
    · rename_i bare
      refine growing.bind bodyOrderly fun _ bodyOrderly => ?_
      refine growing.bind handlersOrderly fun lowered handlersOrderly => ?_
      refine growing.bind orelseOrderly fun _ orelseOrderly => ?_
      refine growing.bind finalOrderly fun _ finalOrderly => growing.pure ?_
      have few : lowered.length ≤ 1 := by
        rw [handlersOrderly.2]
        exact length_le_one_of_bare bare orderly.1.1.1.1
      simp [Stmt.isOrderly, earlyBareHandler?_of_length_le_one few, bodyOrderly,
        handlersOrderly.1, orelseOrderly, finalOrderly]
  | .withBlock position items body, orderly =>
    managing_orderly env position (lowerBody_orderly env body orderly) items
  | .function decorators position ident params result body, orderly => by
    have parts := Bool.and_eq_true_iff.mp orderly
    refine Steady.flush ((Steady.mapM (lower_steady env) decorators).bind fun kept same => ?_)
    refine (lowerParams_steady env params).bind fun _ _ => ?_
    refine (Steady.lift (lowerBody_orderly { env with frame := .functionFrame ident.name } body
      parts.2)).bind fun _ bodyOrderly => .pure ?_
    have bare : kept.isEmpty = decorators.isEmpty := by
      rw [Bool.eq_iff_iff, List.isEmpty_iff_length_eq_zero, List.isEmpty_iff_length_eq_zero, same]
    simpa [Stmt.isOrderly, bare, bodyOrderly] using parts.1
  | .classDef decorators position ident bases body, orderly => by
    refine Steady.flush ((Steady.mapM (lower_steady env) decorators).bind fun _ _ => ?_)
    refine (Steady.mapM (lower_steady env) bases).bind fun _ _ => ?_
    exact (Steady.lift (lowerBody_orderly { env with frame := .classFrame } body orderly)).bind
      fun _ bodyOrderly => .pure bodyOrderly

theorem lowerBody_orderly (env : Env) :
    ∀ body : List Stmt, Stmt.areOrderly body = true → Orderly (lowerBody env body)
  | [], _ => growing.pure rfl
  | first :: rest, orderly => by
    have parts := Bool.and_eq_true_iff.mp orderly
    exact (lowerStmt_orderly env first parts.1).append (lowerBody_orderly env rest parts.2)

theorem lowerHandlers_orderly (env : Env) :
    ∀ handlers : List Handler, Stmt.areHandlersOrderly handlers = true →
      growing.Gives (fun lowered => Stmt.areHandlersOrderly lowered = true ∧
        lowered.length = handlers.length) (lowerHandlers env handlers)
  | [], _ => growing.pure ⟨rfl, rfl⟩
  | .mk _ _ _ body :: rest, orderly => by
    have parts := Bool.and_eq_true_iff.mp orderly
    refine growing.bind (lowerBody_orderly env body parts.1) fun _ bodyOrderly => ?_
    refine growing.bind (lowerHandlers_orderly env rest parts.2)
      fun _ restOrderly => growing.pure ⟨?_, ?_⟩
    · simp [Stmt.areHandlersOrderly, bodyOrderly, restOrderly.1]
    · simp [restOrderly.2]

theorem lowerCatches_orderly (env : Env) :
    ∀ handlers : List Handler, Stmt.areHandlersOrderly handlers = true →
      ∀ handler ∈ lowerCatches env handlers, handler.IsOrderly
  | [], _, handler, member => by cases member
  | .mk position type ident body :: rest, orderly, handler, member => by
    have parts := Bool.and_eq_true_iff.mp orderly
    rcases List.mem_cons.mp member with rfl | member
    · refine ⟨?_, lowerBody_orderly env body parts.1⟩
      cases type with
      | none => simp
      | some type => simpa using lower_steady env type
    · exact lowerCatches_orderly env rest parts.2 handler member

end

/-! ## Modules -/

theorem lowerUntilDone_orderly (options : Options) : ∀ (remaining : Nat) (body : List Stmt),
    Stmt.areOrderly body = true → Orderly (lowerUntilDone options remaining body)
  | 0, _, _ => fun _ _ => trivial
  | remaining + 1, body, orderly => by
    have started : growing.Gives (fun _ => True) (modify fun context : Context =>
        { context with passes := context.passes + 1, modified := false } : Desugar Unit) :=
      fun _ _ => ⟨trivial, List.Subset.refl _⟩
    have context : growing.Gives (fun _ => True) (get : Desugar Context) :=
      fun _ _ => ⟨trivial, List.Subset.refl _⟩
    rw [lowerUntilDone]
    refine growing.bind started fun _ _ => ?_
    refine growing.bind (lowerBody_orderly ⟨options, .moduleFrame⟩ body orderly)
      fun lowered loweredOrderly => ?_
    refine growing.bind context fun _ _ => growing.bind (growing.note _) fun _ _ => ?_
    split
    · exact lowerUntilDone_orderly options remaining lowered loweredOrderly
    · exact growing.pure loweredOrderly

/-- An orderly module is lowered to an orderly one. -/
theorem lowerModule_orderly (options : Options) {body : List Stmt}
    (orderly : Stmt.areOrderly body = true) : Orderly (lowerModule options body) := by
  have context : growing.Gives (fun _ => True) (get : Desugar Context) :=
    fun _ _ => ⟨trivial, List.Subset.refl _⟩
  exact growing.bind context fun _ _ => lowerUntilDone_orderly options _ body orderly

end Lowering
end Unsugar
