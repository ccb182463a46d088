import Unsugar.Proofs.Outcome
import Unsugar.Proofs.Lowering.Form

/-! The ways in which lowering builds expressions and statements. Each keeps to the
lowered form if its parts do. -/

namespace Unsugar

/-! ## Lists of computations -/

namespace Lowering.Gives

variable {α β : Type} {settled : Stmt → Prop} {holds : β → Prop}

theorem mapM {action : α → Lowering β} : ∀ {items : List α},
    (∀ item ∈ items, Gives settled holds (action item)) →
    Gives settled (∀ value ∈ ·, holds value) (items.mapM action)
  | [], _ => by
    rw [List.mapM_nil]
    exact .pure (by simp)
  | first :: rest, each => by
    rw [List.mapM_cons]
    refine (each first (by simp)).bind fun value valid => ?_
    refine (mapM fun item member => each item (by simp [member])).bind
      fun values allValid => .pure ?_
    simpa using ⟨valid, allValid⟩

/-- Statements that were set aside elsewhere join those that wait. -/
theorem append {more : List Deferred}
    (each : ∀ deferred ∈ more,
      Desugar.Gives Failure.IsRefusal (∀ stmt ∈ ·, settled stmt) deferred) :
    Gives settled (fun _ => True) (modify (· ++ more) : Lowering Unit) := by
  intro ahead before
  refine Desugar.Gives.pure ⟨trivial, fun deferred member => ?_⟩
  rcases List.mem_append.mp member with member | member
  · exact before deferred member
  · exact each deferred member

end Lowering.Gives

/-! ## What lowering makes -/

namespace Lowering

/-- A lowered expression; it is starred only where it may be. -/
def IsMade (form : Form) (spread : Prop) (value : Expr) : Prop :=
  value.isLowered form = true ∧ (isStarred value = true → spread)

/-- Lowering that gives a lowered expression, and sets lowered statements aside. -/
abbrev Makes (form : Form) (spread : Prop) (action : Lowering Expr) : Prop :=
  Gives (·.isLowered form = true) (IsMade form spread) action

/-- Lowering that gives a lowered statement, and sets lowered statements aside. -/
abbrev MakesStmt (form : Form) (action : Lowering Stmt) : Prop :=
  Gives (·.isLowered form = true) (·.isLowered form = true) action

/-- A computation that gives lowered statements. -/
abbrev MakesBody (form : Form) (action : Desugar (List Stmt)) : Prop :=
  Desugar.Gives Failure.IsRefusal (∀ stmt ∈ ·, stmt.isLowered form = true) action

variable {form : Form} {spread : Prop}

/-- A call is no starred expression. -/
theorem isMade_of_call {callee : Expr} {arguments : List Expr} {closing : Position}
    (lowered : (Expr.call callee arguments closing).isLowered form = true) :
    IsMade form spread (.call callee arguments closing) :=
  ⟨lowered, fun starred => by cases starred⟩

theorem isMade_ofName (name : String) : IsMade form spread (.ofName name) :=
  ⟨rfl, fun starred => by cases starred⟩

theorem isMade_ofText (text : String) : IsMade form spread (.ofText text) :=
  ⟨rfl, fun starred => by cases starred⟩

theorem isMade_absent : IsMade form spread .absent :=
  ⟨rfl, fun starred => by cases starred⟩

theorem isMade_builtin (id : String) : IsMade form spread (.builtin id) :=
  ⟨Expr.isLowered_builtin id, fun starred => by cases starred⟩

theorem isMade_supportCall {id : String} {arguments : List Expr}
    (lowered : Expr.areLowered form arguments = true) :
    IsMade form spread (.supportCall id arguments) :=
  isMade_of_call ((Expr.isLowered_supportCall id arguments).trans lowered)

theorem any_isStarred_eq_false {items : List Expr} (made : ∀ item ∈ items, IsMade form False item) :
    items.any isStarred = false := by
  rw [List.any_eq_false]
  exact fun item member starred => (made item member).2 starred

theorem isMade_tupleOf {items : List Expr} (made : ∀ item ∈ items, IsMade form False item) :
    IsMade form spread (.tupleOf items) := by
  refine ⟨?_, fun starred => by cases starred⟩
  simp only [Expr.tupleOf, Expr.isLowered, any_isStarred_eq_false made]
  exact Expr.areLowered_iff.mpr fun item member => (made item member).1

theorem isMade_dictOf {items : List Expr} (made : ∀ item ∈ items, IsMade form False item) :
    IsMade form spread (.dictOf items) := by
  refine ⟨?_, fun starred => by cases starred⟩
  simp only [Expr.dictOf, Expr.isLowered, any_isStarred_eq_false made]
  exact Expr.areLowered_iff.mpr fun item member => (made item member).1

namespace MakesBody

variable {β : Type} {result : β → Prop}

theorem pure {body : List Stmt} (lowered : Stmt.areLowered form body = true) :
    MakesBody form (Pure.pure body) :=
  Desugar.Gives.pure (Stmt.areLowered_iff.mp lowered)

theorem bind {action : Desugar (List Stmt)} {next : List Stmt → Desugar β}
    (first : MakesBody form action)
    (rest : ∀ body, Stmt.areLowered form body = true →
      Desugar.Gives Failure.IsRefusal result (next body)) :
    Desugar.Gives Failure.IsRefusal result (action >>= next) :=
  Desugar.Gives.bind first fun body each => rest body (Stmt.areLowered_iff.mpr each)

/-- A body that is lowered while a statement around it is. -/
theorem lifted {action : Desugar (List Stmt)} {next : List Stmt → Lowering β}
    (first : MakesBody form action)
    (rest : ∀ body, Stmt.areLowered form body = true →
      Gives (·.isLowered form = true) result (next body)) :
    Gives (·.isLowered form = true) result ((liftM action : Lowering (List Stmt)) >>= next) :=
  (Gives.lift first).bind fun body each => rest body (Stmt.areLowered_iff.mpr each)

end MakesBody

/-! ## Operands -/

theorem storing_makes {name : String} {value : Lowering Expr} (made : Makes form spread value) :
    MakesBody form (storing name value) :=
  Gives.flush (made.bind fun _ valueMade => .pure valueMade.1)

theorem save_makes {value : Expr} (lowered : value.isLowered form = true) :
    Makes form spread (save value) := by
  refine (Gives.fresh "tmp").bind fun saved _ => ?_
  refine (Gives.emit (MakesBody.pure ?_)).bind fun _ _ => .pure (isMade_ofName saved)
  simpa using lowered

theorem hoist_makes {value : Expr} (made : IsMade form spread value) :
    Makes form spread (hoist value) := by
  fun_induction hoist value generalizing spread with
  | case1 position op value induction =>
    have below : IsMade form True value := ⟨made.1, fun _ => trivial⟩
    refine (induction below).bind fun _ valueMade => .pure ?_
    exact ⟨valueMade.1, fun _ => made.2 rfl⟩
  | case2 position id value induction =>
    have below : IsMade form True value := ⟨made.1, fun _ => trivial⟩
    refine (induction below).bind fun _ valueMade => .pure ?_
    exact ⟨valueMade.1, fun starred => by cases starred⟩
  | case3 key value keyInduction valueInduction =>
    have parts := Bool.and_eq_true_iff.mp made.1
    have keyBelow : IsMade form True key := ⟨parts.1, fun _ => trivial⟩
    have valueBelow : IsMade form True value := ⟨parts.2, fun _ => trivial⟩
    refine (keyInduction keyBelow).bind fun _ keyMade => ?_
    refine (valueInduction valueBelow).bind fun _ valueMade => .pure ?_
    exact ⟨Bool.and_eq_true_iff.mpr ⟨keyMade.1, valueMade.1⟩, fun starred => by cases starred⟩
  | case4 => exact .pure made
  | case5 => exact save_makes made.1
  | case6 => exact .pure made
  | case7 => exact save_makes made.1

theorem operandsAfter_makes {items : List (Lowering Expr)} :
    ∀ {done : List Expr}, (∀ value ∈ done, IsMade form spread value) →
      (∀ item ∈ items, Makes form spread item) →
      Gives (·.isLowered form = true) (∀ value ∈ ·, IsMade form spread value)
        (operandsAfter done items) := by
  induction items with
  | nil => exact fun doneMade _ => .pure doneMade
  | cons first rest induction =>
    intro done doneMade each
    refine (Gives.lift (each first (by simp) [] (by simp))).bind fun (value, ahead) ended => ?_
    have later : ∀ done, (∀ value ∈ done, IsMade form spread value) →
        Gives (·.isLowered form = true) (∀ value ∈ ·, IsMade form spread value)
          (do modify (· ++ ahead); operandsAfter (done ++ [value]) rest) := by
      intro done doneMade
      refine (Gives.append ended.2).bind fun _ _ => ?_
      refine induction (fun item member => ?_) fun item member => each item (by simp [member])
      rcases List.mem_append.mp member with member | member
      · exact doneMade item member
      · rw [List.mem_singleton.mp member]
        exact ended.1
    by_cases empty : ahead.isEmpty = true
    · simp only [empty, if_true]
      exact (Gives.pure doneMade).bind later
    · simp only [empty]
      exact (Gives.mapM fun item member => hoist_makes (doneMade item member)).bind later

theorem operands_makes {items : List (Lowering Expr)}
    (each : ∀ item ∈ items, Makes form spread item) :
    Gives (·.isLowered form = true) (∀ value ∈ ·, IsMade form spread value) (operands items) :=
  operandsAfter_makes (by simp) each

/-- Where starred expressions are allowed, others are too. -/
theorem Makes.anywhere {action : Lowering Expr} (made : Makes form spread action) :
    Makes form True action :=
  made.imp fun _ valueMade => ⟨valueMade.1, fun _ => trivial⟩

theorem operands_lowered {items : List (Lowering Expr)}
    (each : ∀ item ∈ items, Makes form True item) :
    Gives (·.isLowered form = true) (Expr.areLowered form · = true) (operands items) :=
  (operands_makes each).imp fun _ made =>
    Expr.areLowered_iff.mpr fun value member => (made value member).1

/-! ## Calls and operators -/

theorem applying_makes {callee : Lowering Expr} {arguments : List (Lowering Expr)}
    (calleeMade : Makes form True callee)
    (each : ∀ argument ∈ arguments, Makes form True argument) :
    Makes form spread (applying callee arguments) := by
  refine (operands_lowered (List.forall_mem_cons.mpr ⟨calleeMade, each⟩)).bind
    fun values lowered => ?_
  match values, lowered with
  | _ :: _, lowered => exact .pure (isMade_of_call lowered)
  | [], _ => exact .pure isMade_absent

theorem supporting_makes {id : String} {arguments : List (Lowering Expr)}
    (each : ∀ argument ∈ arguments, Makes form True argument) :
    Makes form spread (supporting id arguments) :=
  (operands_lowered each).bind fun _ lowered => .pure (isMade_supportCall lowered)

theorem assigning_makes {name : String} {value : Lowering Expr} {other : Prop}
    (made : Makes form other value) : Makes form spread (assigning name value) := by
  refine Gives.touch.bind fun _ _ => ?_
  exact (Gives.emit (storing_makes made)).bind fun _ _ => .pure (isMade_ofName name)

theorem shortCircuit_makes {op : LogicalOp} {position : Position} {left right : Lowering Expr}
    (leftMade : Makes form True left) (rightMade : Makes form True right) :
    Makes form spread (shortCircuit op position left right) := by
  refine Gives.touch.bind fun _ _ => ?_
  refine (Gives.fresh "tmp").bind fun result _ => ?_
  refine (Gives.emit (storing_makes leftMade)).bind fun _ _ => ?_
  refine (Gives.emit ?_).bind fun _ _ => .pure (isMade_ofName result)
  refine (storing_makes rightMade).bind fun body bodyLowered => MakesBody.pure ?_
  cases op <;> simp [bodyLowered]

theorem choosing_makes {test whenTrue whenFalse : Lowering Expr} (testMade : Makes form True test)
    (trueMade : Makes form True whenTrue) (falseMade : Makes form True whenFalse) :
    Makes form spread (choosing test whenTrue whenFalse) := by
  refine Gives.touch.bind fun _ _ => ?_
  refine (Gives.fresh "tmp").bind fun result _ => ?_
  refine (Gives.emit (Gives.flush ?_)).bind fun _ _ => .pure (isMade_ofName result)
  refine testMade.bind fun test testLowered => ?_
  refine (storing_makes trueMade).lifted fun body bodyLowered => ?_
  refine (storing_makes falseMade).lifted fun orelse orelseLowered => .pure ?_
  simp [testLowered.1, bodyLowered, orelseLowered]

/-! ## Displays with unpacked items -/

/-- Lowering that gives an item of a display: only an unpacked one may be
starred, before its mark is put back. -/
def Item.Makes (form : Form) : Item (Lowering Expr) → Prop
  | plain value => Lowering.Makes form False value
  | unpacked _ _ value => Lowering.Makes form True value

theorem Item.argument_makes {item : Item (Lowering Expr)} (made : item.Makes form) :
    Lowering.Makes form True item.argument := by
  cases item with
  | plain value => exact made.anywhere
  | unpacked position op value =>
    exact made.bind fun _ valueMade => .pure ⟨valueMade.1, fun _ => trivial⟩

theorem Item.argument_makes_plain {item : Item (Lowering Expr)} (made : item.Makes form)
    (plain : item.isUnpacked = false) : Lowering.Makes form False item.argument := by
  cases item with
  | plain value => exact made
  | unpacked position op value => cases plain

theorem Item.segments_makes {gather : List (Lowering Expr) → Lowering Expr}
    {convert : Lowering Expr → Lowering Expr}
    (gathers : ∀ values, (∀ value ∈ values, Lowering.Makes form False value) →
      Lowering.Makes form spread (gather values))
    (converts : ∀ value, Lowering.Makes form True value →
      Lowering.Makes form spread (convert value))
    {items : List (Item (Lowering Expr))} (each : ∀ item ∈ items, item.Makes form) :
    ∀ {gathered : List (Lowering Expr)}, (∀ value ∈ gathered, Lowering.Makes form False value) →
      ∀ segment ∈ segments gather convert gathered items, Lowering.Makes form spread segment := by
  have run : ∀ gathered : List (Lowering Expr),
      (∀ value ∈ gathered, Lowering.Makes form False value) →
      ∀ segment ∈ (if gathered.isEmpty then [] else [gather gathered]),
        Lowering.Makes form spread segment := by
    intro gathered made segment member
    split at member
    · simp at member
    · rw [List.mem_singleton.mp member]
      exact gathers gathered made
  induction items with
  | nil => exact fun {gathered} => run gathered
  | cons item rest induction =>
    have rest := fun item member => each item (List.mem_cons_of_mem _ member)
    have first := each item (by simp)
    intro gathered made
    cases item with
    | plain value =>
      refine induction rest (List.forall_mem_append.mpr ⟨made, fun found member => ?_⟩)
      rw [List.mem_singleton.mp member]
      exact first
    | unpacked position op value =>
      refine List.forall_mem_append.mpr ⟨run gathered made, List.forall_mem_cons.mpr ⟨?_, ?_⟩⟩
      · exact converts value first
      · exact induction rest (by simp)

theorem Item.joined_makes {join : Lowering Expr → Lowering Expr → Lowering Expr}
    {empty : Lowering Expr} (emptyMade : Lowering.Makes form spread empty)
    (joins : ∀ first second, Lowering.Makes form spread first →
      Lowering.Makes form spread second → Lowering.Makes form spread (join first second))
    {segments : List (Lowering Expr)}
    (each : ∀ segment ∈ segments, Lowering.Makes form spread segment) :
    Lowering.Makes form spread (joined join empty segments) := by
  cases segments with
  | nil => exact emptyMade
  | cons first rest =>
    have parts := List.forall_mem_cons.mp each
    refine List.foldlRecOn rest join parts.1 fun before made segment member => ?_
    exact joins before segment made (parts.2 segment member)

theorem splat_makes {items : List (Item (Lowering Expr))} (each : ∀ item ∈ items, item.Makes form) :
    Makes form spread (splat items) := by
  refine Item.joined_makes (.pure (isMade_tupleOf (by simp))) (fun first second before after => ?_)
    (Item.segments_makes (fun values made => ?_) (fun value made => ?_) each (by simp))
  · exact supporting_makes (by simpa using ⟨before.anywhere, after.anywhere⟩)
  · exact (operands_makes made).bind fun _ valuesMade => .pure (isMade_tupleOf valuesMade)
  · exact supporting_makes (by simpa using made)

theorem merge_makes {items : List (Item (Lowering Expr))} (each : ∀ item ∈ items, item.Makes form) :
    Makes form spread (merge items) := by
  refine Item.joined_makes (.pure (isMade_tupleOf (by simp))) (fun first second before after => ?_)
    (Item.segments_makes (fun values made => ?_) (fun value made => ?_) each (by simp))
  · exact supporting_makes (by simpa using ⟨before.anywhere, after.anywhere⟩)
  · exact (operands_makes made).bind fun _ valuesMade => .pure (isMade_dictOf valuesMade)
  · exact supporting_makes (by simpa using made)

theorem negated?_isMade {position : Position} {op : UnaryOp} {operand number : Expr}
    (found : Expr.negated? position op operand = some number) : IsMade form spread number := by
  unfold Expr.negated? at found
  split at found
  · split at found
    · cases found
    · obtain ⟨value, _, rfl⟩ := Option.map_eq_some_iff.mp found
      exact ⟨rfl, fun starred => by cases starred⟩
  · cases found

/-! ## Formatted strings and comparisons -/

theorem formatting_makes {conversion : Option Conversion} {value : Lowering Expr}
    {spec : List (Lowering Expr)} (valueMade : Makes form True value)
    (each : ∀ part ∈ spec, Makes form True part) :
    Makes form spread (formatting conversion value spec) := by
  refine applying_makes (.pure (isMade_builtin "format")) (List.forall_mem_cons.mpr ⟨?_, each⟩)
  cases conversion with
  | none => exact valueMade
  | some conversion =>
    exact applying_makes (.pure (isMade_builtin conversion.function)) (by simpa using valueMade)

/-- A reserved path is left as it is, so its attributes may stay. -/
theorem memberOf_makes {env : Env} (agrees : env.options = form.options) {object : Expr}
    {position : Position} {id : String} {lowered : Lowering Expr} {other : Prop}
    (unchanged : object.isReservedPath = true → lowered = pure object)
    (made : Makes form other lowered) :
    Makes form spread (memberOf env object position id lowered) := by
  unfold memberOf
  split
  · refine Gives.touch.bind fun _ _ => supporting_makes ?_
    simpa using ⟨made.anywhere, .pure (isMade_ofText id)⟩
  · rename_i kept
    by_cases reserved : object.isReservedPath = true
    · rw [unchanged reserved, pure_bind]
      refine .pure ⟨?_, fun starred => by cases starred⟩
      exact Expr.isLowered_of_isReservedPath reserved
    · have attributes : form.options.lowerAttributes = false := by
        simpa [agrees, reserved] using kept
      refine made.bind fun value valueMade => .pure ⟨?_, fun starred => by cases starred⟩
      simp [Expr.isLowered, Form.keepsMember, attributes, valueMade.1]

/-- Lowering that gives a part of a formatted string. -/
def Part.Makes (form : Form) : Part → Prop
  | text _ => True
  | made value => Lowering.Makes form False value

theorem joining_makes {env : Env} (agrees : env.options = form.options) {parts : List Part}
    (each : ∀ part ∈ parts, part.Makes form) : Makes form spread (joining env parts) := by
  have actions : ∀ action ∈ parts.map Part.action, Makes form False action := by
    intro action member
    obtain ⟨part, partMember, rfl⟩ := List.mem_map.mp member
    cases part with
    | text value => exact .pure (isMade_ofText value)
    | made value => exact each _ partMember
  have called : Makes form spread
      (applying (memberOf env (.ofText "") .unknown "join" (return .ofText ""))
        [do return .tupleOf (← operands (parts.map Part.action))]) := by
    refine applying_makes (memberOf_makes agrees (fun reserved => by cases reserved)
      (.pure (@isMade_ofText form False ""))) ?_
    simpa using (operands_makes actions).bind fun _ made => .pure (isMade_tupleOf made)
  unfold joining
  split
  · exact .pure (isMade_ofText "")
  · exact .pure (isMade_ofText _)
  · exact called

theorem comparing_makes {op : CompareOp} {left right : Lowering Expr}
    (leftMade : Makes form True left) (rightMade : Makes form True right) :
    Makes form spread (comparing op left right) := by
  refine Gives.touch.bind fun _ _ => ?_
  have forwards : ∀ id, Makes form spread (supporting id [left, right]) := fun id =>
    supporting_makes (by simpa using ⟨leftMade, rightMade⟩)
  have backwards : ∀ id, Makes form True (supporting id [right, left]) := fun id =>
    supporting_makes (by simpa using ⟨rightMade, leftMade⟩)
  cases op with
  | isIn => exact supporting_makes (by simpa using ⟨rightMade, leftMade⟩)
  | notIn => exact supporting_makes (by simpa using backwards _)
  | _ => exact forwards _

theorem chain_makes {rights : List (CompareOp × Expr × Lowering Expr)} :
    ∀ {left : Lowering Expr}, Makes form True left →
      (∀ right ∈ rights, Makes form True right.2.2) →
      Gives (·.isLowered form = true) (∀ action ∈ ·, Makes form False action)
        (chain left rights) := by
  induction rights with
  | nil => exact fun _ _ => .pure (by simp)
  | cons first rest induction =>
    intro left leftMade each
    obtain ⟨op, operand, right⟩ := first
    have parts := List.forall_mem_cons.mp each
    cases rest with
    | nil => exact .pure (by simpa using comparing_makes leftMade parts.1)
    | cons second others =>
      unfold chain
      split
      · refine (induction parts.1 parts.2).bind fun later laterMade => .pure ?_
        simpa using ⟨comparing_makes leftMade parts.1, laterMade⟩
      · refine (Gives.fresh "tmp").bind fun stored _ => ?_
        have here : Makes form False (comparing op left (assigning stored right)) :=
          comparing_makes leftMade (assigning_makes parts.1)
        refine (induction (.pure (isMade_ofName stored)) parts.2).bind
          fun later laterMade => .pure ?_
        simpa using ⟨here, laterMade⟩

theorem chained_makes {left : Lowering Expr} {rights : List (CompareOp × Expr × Lowering Expr)}
    (leftMade : Makes form True left) (each : ∀ right ∈ rights, Makes form True right.2.2) :
    Makes form False (chained left rights) := by
  refine (chain_makes leftMade each).bind fun comparisons made => ?_
  match comparisons, made with
  | [], _ => exact .pure isMade_absent
  | first :: rest, made =>
    have parts := List.forall_mem_cons.mp made
    refine List.foldlRecOn (motive := Makes form False) rest _ parts.1
      fun before beforeMade comparison member => ?_
    exact shortCircuit_makes beforeMade.anywhere (parts.2 comparison member).anywhere

/-! ## Loops and comprehensions -/

theorem looping_makes {position : Position} {assign : Expr → Desugar (List Stmt)}
    {iterable : Lowering Expr} {body : Desugar (List Stmt)}
    {orelse : Option (Desugar (List Stmt))}
    (assigns : ∀ name, MakesBody form (assign (.ofName name)))
    (iterableMade : Makes form True iterable) (bodyMade : MakesBody form body)
    (orelseMade : ∀ action ∈ orelse, MakesBody form action) :
    MakesBody form (looping position assign iterable body orelse) := by
  refine (Desugar.Gives.fresh "iter").bind fun iterator _ => ?_
  refine (Desugar.Gives.fresh "tmp").bind fun item _ => ?_
  refine (Desugar.Gives.fresh "completed").bind fun completed _ => ?_
  refine (Desugar.Gives.apply _ _ _).bind fun _ _ => ?_
  have started : Makes form True (supporting "iter" [iterable]) :=
    supporting_makes (by simpa using iterableMade)
  refine (storing_makes started).bind fun start startLowered => ?_
  refine (assigns item).bind fun assigned assignedLowered => ?_
  refine bodyMade.bind fun body bodyLowered => ?_
  cases orelse with
  | none =>
    refine MakesBody.pure ?_
    simp [Stmt.isLowered, startLowered, assignedLowered, bodyLowered]
  | some orelse =>
    refine (orelseMade orelse rfl).bind fun after afterLowered => ?_
    refine MakesBody.pure ?_
    simp [Stmt.isLowered, startLowered, assignedLowered, bodyLowered, afterLowered]

theorem declaring_gives {env : Env} {helper : String} {position : Position}
    {targets : List String} :
    Gives (·.isLowered form = true) (Stmt.areLowered form · = true)
      (declaring env helper position targets) := by
  have frame : Gives (·.isLowered form = true) (fun _ => True)
      (declarationIn env.frame position) := by
    cases env.frame with
    | moduleFrame => exact .pure trivial
    | classFrame => exact .lift (.refuse _ _)
    | functionFrame name => exact fun ahead each context steps => ⟨⟨trivial, each⟩, rfl⟩
  unfold declaring
  split
  · exact .pure rfl
  · refine frame.bind fun declaration _ => ?_
    exact fun ahead each context steps => ⟨⟨rfl, each⟩, rfl⟩

theorem collecting_makes {kind : ComprehensionKind} {result : String} {body : Lowering Expr}
    {entry : List (Lowering Expr)} (reserved : kind ≠ .generator → isReserved result = true)
    (bodyMade : Makes form True body) (entryMade : ∀ part ∈ entry, Makes form True part) :
    MakesBody form (collecting kind result body entry) := by
  have method : isReserved result = true → ∀ id,
      Makes form True (return .attributeOf (.ofName result) id) := fun held id =>
    .pure ⟨Expr.isLowered_of_isReservedPath held, fun _ => trivial⟩
  have adds : kind ≠ .generator → ∀ id, Makes form True
      (applying (return .attributeOf (.ofName result) id) [body]) := fun different id =>
    applying_makes (method (reserved different) id) (by simpa using bodyMade)
  refine Gives.flush ?_
  cases kind with
  | list => exact (adds (by simp) "append").bind fun _ made => .pure made.1
  | set => exact (adds (by simp) "add").bind fun _ made => .pure made.1
  | dict =>
    have stored : Makes form True (supporting "setitem" ((return .ofName result) :: entry)) :=
      supporting_makes (List.forall_mem_cons.mpr ⟨.pure (isMade_ofName result), entryMade⟩)
    exact stored.bind fun _ made => .pure made.1
  | generator => exact bodyMade.bind fun _ made => .pure made.1

/-! ## Assignments -/

theorem saveAhead_gives {value : Expr} {parts : List Expr} :
    Desugar.Gives Failure.IsRefusal (fun _ => True) (saveAhead value parts) := by
  unfold saveAhead
  split
  · exact .pure trivial
  · exact (Desugar.Gives.fresh "tmp").bind fun _ _ => .pure trivial

theorem finishing_makes {saved : Option String} {value : Lowering Expr}
    {finish : Lowering Expr → Lowering Stmt} (valueMade : Makes form True value)
    (finishes : ∀ value, Makes form True value → MakesStmt form (finish value)) :
    MakesBody form (finishing saved value finish) := by
  cases saved with
  | none => exact Gives.flush (finishes value valueMade)
  | some name =>
    refine (storing_makes valueMade).bind fun ahead aheadLowered => ?_
    refine MakesBody.bind (Gives.flush (finishes _ (.pure (isMade_ofName name))))
      fun rest restLowered => MakesBody.pure ?_
    simp [aheadLowered, restLowered]

theorem settingAttribute_makes {object : Lowering Expr} {id : String} {value : Lowering Expr}
    (objectMade : Makes form True object) (valueMade : Makes form True value) :
    MakesStmt form (settingAttribute object id value) := by
  have called : Makes form True (supporting "setattr" [object, return .ofText id, value]) :=
    supporting_makes (by simpa using ⟨objectMade, .pure (isMade_ofText id), valueMade⟩)
  exact called.bind fun _ made => .pure made.1

theorem settingItem_makes {object key value : Lowering Expr} (objectMade : Makes form True object)
    (keyMade : Makes form True key) (valueMade : Makes form True value) :
    MakesStmt form (settingItem object key value) := by
  have called : Makes form True (supporting "setitem" [object, key, value]) :=
    supporting_makes (by simpa using ⟨objectMade, keyMade, valueMade⟩)
  exact called.bind fun _ made => .pure made.1

theorem unpacking_makes {position : Position} {items : List Expr} {value : Lowering Expr}
    {assign : String → Desugar (List Stmt)} (valueMade : Makes form True value)
    (assigns : ∀ name, MakesBody form (assign name)) :
    MakesBody form (unpacking position items value assign) := by
  have spec : IsMade form True (.tupleOf (items.map fun item => .ofBool !isStarred item)) := by
    refine isMade_tupleOf fun flag member => ?_
    obtain ⟨item, _, rfl⟩ := List.mem_map.mp member
    exact ⟨rfl, fun starred => by cases starred⟩
  unfold unpacking
  split
  · exact .refuse _ _
  · refine (Desugar.Gives.fresh "tmp").bind fun unpacked _ => ?_
    refine (Desugar.Gives.apply _ _ _).bind fun _ _ => ?_
    have called : Makes form True (supporting "unpack"
        [value, return .tupleOf (items.map fun item => .ofBool !isStarred item)]) :=
      supporting_makes (by simpa using ⟨valueMade, .pure spec⟩)
    refine (storing_makes called).bind fun ahead aheadLowered => ?_
    refine (assigns unpacked).bind fun body bodyLowered => MakesBody.pure ?_
    have refilled : Stmt.areLowered form (Stmt.orPass body) = true := by
      unfold Stmt.orPass
      split
      · rfl
      · exact bodyLowered
    simp [Stmt.isLowered, Stmt.areHandlersLowered, aheadLowered, refilled]

/-! ## Handlers -/

theorem notEarly_of_cons {first second : Handler} {rest : List Handler}
    (notEarly : earlyBareHandler? (first :: second :: rest) = none) :
    earlyBareHandler? (second :: rest) = none := by
  simp only [earlyBareHandler?, List.find?_eq_none, List.mem_reverse, List.dropLast_cons_cons,
    List.mem_cons] at notEarly ⊢
  exact fun handler member => notEarly handler (.inr member)

end Lowering
end Unsugar
