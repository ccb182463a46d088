import Unsugar.Proofs.Control.Handler
import Unsugar.Proofs.Control.Loop
import Unsugar.Proofs.Control.Pattern
import Unsugar.Proofs.Evaluation.Ahead

/-! Unpacking. An assignment to a pattern becomes statements that keep the components of
a value in a temporary, assign them one by one, and let the temporary go however that
ends. Patterns inside a pattern have temporaries of their own, so several are alive at
once. The statements do what the assignment does. -/

namespace Unsugar

open Desugar (Ends)

/-! ## The statements -/

namespace Lowering

/-- The statements that take a value apart for the elements of a pattern, and let the
components go after the body. -/
def unpackFor (items : List Expr) (unpacked : String) (value : Expr) (body : List Stmt) :
    List Stmt :=
  [.store unpacked (.supportCall "unpack" [value, .tupleOf ((Expr.flags items).map .ofBool)]),
   .tryBlock .unknown (Stmt.orPass body) [] [] [.store unpacked .absent]]

/-- What an element of a pattern is assigned. A starred one gets a list. -/
def elementOf (isItem : Bool) (unpacked : String) (index : Nat) : Expr :=
  let item := Expr.supportCall "getitem" [.ofName unpacked, .ofNat index]
  if isItem then item else .supportCall "list" [item]

theorem unpacking_pure (position : Position) {items : List Expr}
    (single : (items.filter isStarred).length ≤ 1) (value : Expr)
    (assign : String → Desugar (List Stmt)) :
    unpacking position items (return value) assign = (do
      let unpacked ← Desugar.fresh "tmp"
      Desugar.apply .assign .visit position
      let body ← assign unpacked
      return unpackFor items unpacked value body) := by
  have call : supporting "unpack" [return value, return .tupleOf ((Expr.flags items).map .ofBool)] =
      pure (.supportCall "unpack" [value, .tupleOf ((Expr.flags items).map .ofBool)]) :=
    supporting_pure _ [value, .tupleOf ((Expr.flags items).map .ofBool)]
  have flags : (items.map fun item => Expr.ofBool !isStarred item) =
      (Expr.flags items).map .ofBool := by
    rw [Expr.flags, List.map_map]
    rfl
  rw [unpacking, List.drop_eq_nil_of_le single]
  simp only [flags, storing, call, pure_bind, flush_pure]
  rfl

theorem assignItems_cons (env : Env) (unpacked : String) (index : Nat) (element : Expr)
    (rest : List Expr) :
    assignItems env unpacked index (element :: rest) = (do
      let here ← assignTo env element.unstarred (elementOf (!isStarred element) unpacked index)
        (return elementOf (!isStarred element) unpacked index)
      return here ++ (← assignItems env unpacked (index + 1) rest)) := by
  cases element <;> rfl

end Lowering

/-! ## What the statements do -/

namespace Language

open Unsugar.Action Lowering

variable {Value Memory : Type} (language : Language Value Memory)

/-! ### Temporaries -/

/-- Names were taken for temporaries, the last one first. Those taken up to some point
were let go, and the others, which are `pending`, are as before. If nothing went wrong
all were let go. -/
structure ReleasedUpTo (pending released : List String) (own : String → Option Value)
    (ended : Except (Interruption Value) Unit) (late : String → Option Value) : Prop where
  kept : ChangedOnly released own late
  cleared : ∀ name ∈ released, late name = some (language.constant .none)
  completed : ended = .ok () → pending = []

def Released (taken : List String) (own : String → Option Value)
    (ended : Except (Interruption Value) Unit) (late : String → Option Value) : Prop :=
  ∃ pending released, taken = pending ++ released ∧
    language.ReleasedUpTo pending released own ended late

namespace Released

variable {language} {taken more : List String} {own middle late : String → Option Value}
  {ended : Except (Interruption Value) Unit} {reason : Interruption Value}

theorem nothing : language.Released [] own ended own :=
  ⟨[], [], rfl, .refl, by simp, fun _ => rfl⟩

theorem untouched : language.Released taken own (.error reason) own :=
  ⟨taken, [], by simp, .refl, by simp, fun ok => by cases ok⟩

theorem changedOnly (released : language.Released taken own ended late) :
    ChangedOnly taken own late := by
  obtain ⟨pending, cleared, rfl, released⟩ := released
  exact released.kept.mono (by simp)

theorem failed (first : language.Released taken own (.error reason) late) :
    language.Released (more ++ taken) own (.error reason) late := by
  obtain ⟨pending, released, rfl, first⟩ := first
  exact ⟨more ++ pending, released, by simp, first.kept, first.cleared, fun ok => by cases ok⟩

theorem append (first : language.Released taken own (.ok ()) middle)
    (second : language.Released more middle ended late) :
    language.Released (more ++ taken) own ended late := by
  obtain ⟨pending, released, rfl, first⟩ := first
  obtain ⟨pendingLater, releasedLater, rfl, second⟩ := second
  obtain rfl := first.completed rfl
  refine ⟨pendingLater, releasedLater ++ released, by simp, fun name unreleased => ?_,
    fun name member => ?_, second.completed⟩
  · rw [second.kept name (by simp_all), first.kept name (by simp_all)]
  · by_cases again : name ∈ releasedLater
    · exact second.cleared name again
    · rw [second.kept name again]
      exact first.cleared name (by simp_all)

/-- A temporary around others is let go after them. -/
theorem around {name : String} {value : Option Value}
    (inner : language.Released taken (Function.update own name value) ended middle) :
    language.Released (taken ++ [name]) own ended
      (Function.update middle name (some (language.constant .none))) := by
  obtain ⟨pending, released, rfl, inner⟩ := inner
  refine ⟨pending, released ++ [name], by simp, fun other unreleased => ?_,
    fun other member => ?_, inner.completed⟩
  · have different : other ≠ name := by
      rintro rfl
      simp at unreleased
    rw [Function.update_of_ne different, inner.kept other (by simp_all),
      Function.update_of_ne different]
  · by_cases same : other = name
    · rw [same, Function.update_self]
    · rw [Function.update_of_ne same]
      exact inner.cleared other (by simp_all)

end Released

/-! ### Components of a value -/

variable {language} (unpacking : language.Unpacking) {hidden : List String}
  (handled : Option Value)

theorem runAll_orPass (body : List Stmt) :
    language.runAll hidden (Stmt.orPass body) handled = language.runAll hidden body handled := by
  cases body with
  | nil => simp only [Stmt.orPass, List.isEmpty_nil, if_pos, Stmt.pass, runAll, run, pure_bind]
  | cons first rest => rfl

theorem runAll_unpackFor (items : List Expr) (unpacked : String) (value : Expr)
    (body : List Stmt) :
    language.runAll hidden (unpackFor items unpacked value body) handled = (do
      let found ← raising (language.eval hidden handled value)
      let parts ← raising (ofVisible (unpacking.split found (Expr.flags items)))
      setting hidden unpacked (some (unpacking.sequence (parts.map (·.value unpacking.sequence))))
      ensuring (language.runAll hidden body handled) fun _ =>
        setting hidden unpacked (some (language.constant .none))) := by
  have stores : language.run hidden (.store unpacked
      (.supportCall "unpack" [value, .tupleOf ((Expr.flags items).map .ofBool)])) handled = (do
      let found ← raising (language.eval hidden handled value)
      let parts ← raising (ofVisible (unpacking.split found (Expr.flags items)))
      setting hidden unpacked
        (some (unpacking.sequence (parts.map (·.value unpacking.sequence))))) := by
    rw [run_store, eval_supportCall, evalAll, evalAll, evalAll, unpacking.eval_flags]
    simp only [unpacking.perform_unpack, raising_bind, raising_setting, bind_assoc, pure_bind]
  have releases : language.run hidden
      (.tryBlock .unknown (Stmt.orPass body) [] [] [.store unpacked .absent]) handled =
      ensuring (language.runAll hidden body handled) fun _ =>
        setting hidden unpacked (some (language.constant .none)) := by
    rw [run]
    simp only [runAll_orPass, runAll_singleton, run_store, eval_absent, pure_bind, raising_setting]
    exact congrArg (ensuring · _) (catching_raises _)
  rw [unpackFor, runAll, runAll_singleton, stores, releases]
  simp only [bind_assoc]

variable (language) (hidden) in
/-- An expression stands for what an action gives, where the hidden names have the values
`own`. -/
def StandsFor (own : String → Option Value) (value : Expr)
    (found : Action (Store Value Memory) Value Value) : Prop :=
  Mirrors (Leaving fun _ late => late = own) own (raising found)
    (raising (language.eval hidden handled value))

theorem StandsFor.of_eval {own : String → Option Value} {value : Expr}
    {found : Action (Store Value Memory) Value Value} (ignores : found.Ignores)
    (same : ∀ visible, raising (language.eval hidden handled value) ⟨visible, own⟩ =
      raising found ⟨visible, own⟩) : language.StandsFor hidden handled own value found :=
  .congr same (.refl ignores.raising fun _ => ⟨rfl, rfl⟩)

variable {unpacked : String} {own : String → Option Value} {index : Nat}
  (isHidden : unpacked ∈ hidden)

include isHidden in
theorem eval_getitem_bind {α : Type} {values : List Value} {found : Value}
    (holds : own unpacked = some (unpacking.sequence values)) (isAt : values[index]? = some found)
    (next : Value → Action (Store Value Memory) (Interruption Value) α)
    (visible : Visible Value Memory) :
    (raising (language.eval hidden handled
      (.supportCall "getitem" [.ofName unpacked, .ofNat index])) >>= next) ⟨visible, own⟩ =
      next found ⟨visible, own⟩ := by
  have loaded : Store.lookup hidden ⟨visible, own⟩ unpacked = some (unpacking.sequence values) :=
    (if_pos isHidden).trans holds
  have literal : language.evalAll hidden handled [.ofNat index] =
      pure [language.constant (.integer index)] := language.evalAll_singleton handled rfl
  rw [language.supportCall_bind_of_lookup handled loaded literal,
    unpacking.perform_getitem handled isAt, raising_pure, pure_bind]

include isHidden in
theorem standsFor_element {parts : List (Component Value)} {part : Component Value}
    (holds : own unpacked = some (unpacking.sequence (parts.map (·.value unpacking.sequence))))
    (isAt : parts[index]? = some part) :
    language.StandsFor hidden handled own
      (elementOf part.isItem unpacked index) (pure (part.value unpacking.newList)) := by
  have packedAt : (parts.map (·.value unpacking.sequence))[index]? =
      some (part.value unpacking.sequence) := by
    rw [List.getElem?_map, isAt, Option.map_some]
  refine .of_eval handled (.pure _) fun visible => ?_
  rw [raising_pure]
  cases part with
  | item value =>
    rw [← bind_pure (raising _)]
    exact eval_getitem_bind unpacking handled isHidden holds packedAt pure visible
  | remaining values =>
    change raising (language.eval hidden handled (.supportCall "list"
      [.supportCall "getitem" [.ofName unpacked, .ofNat index]])) _ = _
    rw [eval_supportCall]
    simp only [evalAll, pure_bind, bind_assoc, raising_bind]
    rw [eval_getitem_bind unpacking handled isHidden holds packedAt]
    simp only [Component.value, unpacking.perform_list, raising_pure]

end Language

/-! ## The rule -/

namespace Lowering

open Unsugar.Action Unsugar.Language

/-- The statements assign what `value` stands for to a pattern, and let their temporaries
go. -/
def Assigns (target value : Expr) (taken : List String) (made : List Stmt) : Prop :=
  ∀ {Value Memory : Type} {language : Language Value Memory} (unpacking : language.Unpacking)
    {hidden : List String} (handled : Option Value) {own : String → Option Value}
    {found : Action (Store Value Memory) Value Value} {depth : Nat},
    taken ⊆ hidden → Avoids hidden (target.walk (fun _ => true) depth) →
    language.StandsFor hidden handled own value found →
    Mirrors (Leaving (language.Released taken own)) own
      (raising (do unpacking.destructure hidden handled target (← found)))
      (language.runAll hidden made handled)

/-- The statements assign the components from `index` on, all of which are kept under a
hidden name, to the elements of a pattern. -/
def AssignsAll (items : List Expr) (unpacked : String) (index : Nat) (taken : List String)
    (made : List Stmt) : Prop :=
  ∀ {Value Memory : Type} {language : Language Value Memory} (unpacking : language.Unpacking)
    {hidden : List String} (handled : Option Value) {own : String → Option Value}
    {parts : List (Component Value)} {depth : Nat},
    unpacked ∈ hidden → taken ⊆ hidden →
    Avoids hidden (Expr.walkList (fun _ => true) depth items) →
    own unpacked = some (unpacking.sequence (parts.map (·.value unpacking.sequence))) →
    (parts.drop index).map Component.isItem = Expr.flags items →
    Mirrors (Leaving (language.Released taken own)) own
      (raising (unpacking.destructureAll hidden handled items (parts.drop index)))
      (language.runAll hidden made handled)

theorem assigns_name (position : Position) (id : String) (value : Expr) :
    Assigns (.name position id) value [] [.assign [.name position id] value] := by
  intro _ _ language unpacking hidden handled own found depth _ avoids stands
  rw [Expr.walk, avoids_visit] at avoids
  have shown : id ∉ hidden := avoids.1 id (by simp [Context.namesOf])
  rw [runAll_singleton, run_assign, raising_bind]
  apply Mirrors.andThen stands
  · exact fun _ => (Ignores.setting shown _).raising
  · rintro reason _ rfl
    exact ⟨rfl, .nothing⟩
  · rintro value _ rfl
    exact .refl (Ignores.setting shown _).raising fun _ => ⟨rfl, .nothing⟩

theorem assigns_elements {target value : Expr} {items : List Expr} {unpacked : String}
    {taken : List String} {body : List Stmt}
    (isPattern : ∃ opening closing, target = .tuple opening items closing ∨
      target = .list opening items closing)
    (elements : AssignsAll items unpacked 0 taken body) :
    Assigns target value (taken ++ [unpacked]) (unpackFor items unpacked value body) := by
  intro _ _ language unpacking hidden handled own found depth areHidden avoids stands
  have isHidden : unpacked ∈ hidden := areHidden (by simp)
  have inside : Avoids hidden (Expr.walkList (fun _ => true) (depth + 1) items) := by
    obtain ⟨_, _, rfl | rfl⟩ := isPattern
    all_goals
      rw [Expr.walk, avoids_visit] at avoids
      exact avoids.2
  have destructures : ∀ value, unpacking.destructure hidden handled target value = (do
      unpacking.destructureAll hidden handled items
        (← ofVisible (unpacking.split value (Expr.flags items)))) := by
    obtain ⟨_, _, rfl | rfl⟩ := isPattern <;> exact fun _ => rfl
  have ignores := fun parts =>
    (unpacking.destructureAll_ignores handled items _ inside parts).raising
  rw [runAll_unpackFor unpacking]
  simp only [destructures, raising_bind]
  apply Mirrors.andThen stands
  · exact fun _ => (Ignores.raising (.ofVisible _)).bind ignores
  · rintro reason _ rfl
    exact ⟨rfl, .untouched⟩
  rintro value _ rfl
  apply Mirrors.andThen (unpacking.mirrors_split value _) ignores
  · rintro reason _ ⟨rfl, _⟩
    exact ⟨rfl, .untouched⟩
  rintro parts late ⟨rfl, fits⟩
  apply Mirrors.setting isHidden
  let packed := some (unpacking.sequence (parts.map (·.value unpacking.sequence)))
  have holds : Function.update late unpacked packed unpacked = packed := Function.update_self ..
  have assigned := elements unpacking handled isHidden
    (fun _ member => areHidden (by simp [member])) inside holds (fits parts rfl)
  apply (assigned.ensuring_setting isHidden).imp
  rintro _ _ _ ⟨rfl, middle, released, rfl⟩
  exact ⟨rfl, released.around⟩

theorem assigns_none (unpacked : String) (index : Nat) : AssignsAll [] unpacked index [] [] := by
  intro _ _ language unpacking hidden handled own parts depth _ _ _ _ _
  have nothing : ∀ parts, unpacking.destructureAll hidden handled [] parts = pure () :=
    fun _ => rfl
  rw [nothing, raising_pure, runAll]
  exact .pure ⟨rfl, .nothing⟩

theorem assigns_cons {element : Expr} {items : List Expr} {unpacked : String} {index : Nat}
    {taken more : List String} {made later : List Stmt} (untaken : unpacked ∉ taken)
    (here : Assigns element.unstarred (elementOf (!isStarred element) unpacked index) taken made)
    (rest : AssignsAll items unpacked (index + 1) more later) :
    AssignsAll (element :: items) unpacked index (more ++ taken) (made ++ later) := by
  intro _ _ language unpacking hidden handled own parts depth isHidden areHidden avoids holds fits
  rw [Expr.flags, List.map_cons] at fits
  obtain ⟨part, parts', split, isItem, fits⟩ := List.map_eq_cons_iff.mp fits
  have isAt : parts[index]? = some part := by
    rw [← List.head?_drop, split, List.head?_cons]
  obtain rfl : parts.drop (index + 1) = parts' := by
    rw [← List.tail_drop, split, List.tail_cons]
  rw [Expr.walkList, avoids_append] at avoids
  obtain ⟨_, inside⟩ := Expr.avoids_unstarred avoids.1
  have first := here unpacking handled (fun _ member => areHidden (by simp [member])) inside
    (isItem ▸ standsFor_element unpacking handled isHidden holds isAt)
  rw [pure_bind] at first
  rw [split, Unpacking.destructureAll, runAll_append, unpacking.destructure_unstarred, raising_bind]
  apply Mirrors.andThen first
  · exact fun _ => (unpacking.destructureAll_ignores handled items _ avoids.2 _).raising
  · exact fun _ _ released => ⟨rfl, released.failed⟩
  intro _ late released
  -- The temporaries of the first element are not the one that keeps the components.
  have kept : late unpacked = own unpacked := released.changedOnly unpacked untaken
  apply (rest unpacking handled isHidden (fun _ member => areHidden (by simp [member])) avoids.2
    (kept.trans holds) fits).imp
  rintro _ _ _ ⟨rfl, others⟩
  exact ⟨rfl, released.append others⟩

/-- Names that were free were taken. -/
structure Took (taken : List String) (before after : Context) : Prop where
  reserved : after.reserved = taken ++ before.reserved
  free : ∀ name ∈ taken, name ∉ before.reserved

theorem Took.append {taken more : List String} {before middle after : Context}
    (first : Took taken before middle) (second : Took more middle after) :
    Took (more ++ taken) before after where
  reserved := by rw [second.reserved, first.reserved, List.append_assoc]
  free name member := by
    rcases List.mem_append.mp member with later | early
    · exact fun known => second.free name later (first.reserved ▸ by simp [known])
    · exact first.free name early

theorem unpacking_assigns {items : List Expr} {value target : Expr} {position : Position}
    {assign : String → Desugar (List Stmt)} {context : Context}
    (isPattern : ∃ opening closing, target = .tuple opening items closing ∨
      target = .list opening items closing)
    (single : (items.filter isStarred).length ≤ 1)
    (elements : ∀ (unpacked : String) (context : Context), unpacked ∈ context.reserved →
      Ends context (assign unpacked) fun made after =>
        ∃ taken, Took taken context after ∧ AssignsAll items unpacked 0 taken made) :
    Ends context (unpacking position items (return value) assign) fun made after =>
      ∃ taken, Took taken context after ∧ Assigns target value taken made := by
  rw [unpacking_pure position single]
  refine .fresh fun unpacked named free taken => .apply fun applied same => ?_
  rw [taken] at same
  refine (elements unpacked applied (by simp [same])).bind
    fun body after ⟨more, took, assigned⟩ => .pure ⟨more ++ [unpacked], ?_, ?_⟩
  · have first : Took [unpacked] context applied := ⟨same, by simpa using free⟩
    exact first.append took
  · exact assigns_elements isPattern assigned

mutual

theorem assignTo_assigns (env : Env) : ∀ (target value : Expr) (context : Context),
    target.isPattern = true →
    Ends context (assignTo env target value (return value)) fun made after =>
      ∃ taken, Took taken context after ∧ Assigns target value taken made
  | .name position id, value, context, _ => by
    rw [assignTo]
    exact .pure ⟨[], ⟨rfl, by simp⟩, assigns_name position id value⟩
  | .tuple opening items closing, value, context, isPattern => by
    rw [Expr.isPattern, Bool.and_eq_true, decide_eq_true_eq] at isPattern
    rw [assignTo]
    exact unpacking_assigns ⟨_, _, .inl rfl⟩ isPattern.2 fun unpacked context known =>
      assignItems_assigns env items unpacked 0 context isPattern.1 known
  | .list opening items closing, value, context, isPattern => by
    rw [Expr.isPattern, Bool.and_eq_true, decide_eq_true_eq] at isPattern
    rw [assignTo]
    exact unpacking_assigns ⟨_, _, .inr rfl⟩ isPattern.2 fun unpacked context known =>
      assignItems_assigns env items unpacked 0 context isPattern.1 known
  | .literal .., _, _, isPattern | .fstring .., _, _, isPattern | .field .., _, _, isPattern
  | .call .., _, _, isPattern | .keyword .., _, _, isPattern | .starred .., _, _, isPattern
  | .member .., _, _, isPattern | .subscript .., _, _, isPattern | .slice .., _, _, isPattern
  | .binary .., _, _, isPattern | .logical .., _, _, isPattern | .compare .., _, _, isPattern
  | .unary .., _, _, isPattern | .conditional .., _, _, isPattern | .lambda .., _, _, isPattern
  | .set .., _, _, isPattern | .dict .., _, _, isPattern | .entry .., _, _, isPattern
  | .comprehension .., _, _, isPattern | .named .., _, _, isPattern
  | .yield .., _, _, isPattern => by cases isPattern
termination_by target => sizeOf target

theorem assignItems_assigns (env : Env) : ∀ (items : List Expr) (unpacked : String) (index : Nat)
    (context : Context), Expr.areElements items = true → unpacked ∈ context.reserved →
    Ends context (assignItems env unpacked index items) fun made after =>
      ∃ taken, Took taken context after ∧ AssignsAll items unpacked index taken made
  | [], unpacked, index, context, _, _ => by
    rw [assignItems]
    exact .pure ⟨[], ⟨rfl, by simp⟩, assigns_none unpacked index⟩
  | element :: rest, unpacked, index, context, areElements, known => by
    rw [Expr.areElements_cons, Bool.and_eq_true] at areElements
    rw [assignItems_cons]
    refine (assignTo_assigns env element.unstarred _ context areElements.1).bind
      fun made middle ⟨taken, took, assigned⟩ => ?_
    refine (assignItems_assigns env rest unpacked (index + 1) middle areElements.2
      (took.reserved ▸ by simp [known])).bind fun later after ⟨more, tookMore, others⟩ => .pure ?_
    have untaken : unpacked ∉ taken := fun member => took.free _ member known
    exact ⟨more ++ taken, took.append tookMore, assigns_cons untaken assigned others⟩
termination_by items => sizeOf items
decreasing_by
  · have smaller := Expr.sizeOf_unstarred_le element
    simp only [List.cons.sizeOf_spec]
    omega
  · simp only [List.cons.sizeOf_spec]
    omega

end

/-- An assignment to a pattern of names becomes statements that do what it does, as far
as user code sees, whatever the pattern and its value: each leaf gets its component, from
left to right, and a pattern inside takes its component apart when its turn comes. If that
fails, the leaves that were bound stay so and no other one is bound. However the statements
end, the temporaries up to some point in the order in which they are used are let go, and
those after it are as before, as their components could not be taken apart; if nothing
failed, all are let go. -/
theorem pattern_bound_in_order (env : Env) {target value : Expr}
    (isPattern : target.isPattern = true) {context : Context}
    (areTaken : ∀ name ∈ (Stmt.assign [target] value).names, name ∈ context.reserved)
    (steps : List Step) :
    ∃ made after later hidden,
      assignTo env target value (return value) context steps = (.ok (made, after), later) ∧
      after.reserved = hidden ++ context.reserved ∧ (∀ name ∈ hidden, name ∉ context.reserved) ∧
      ∀ {Value Memory : Type} (language : Language Value Memory) (unpacking : language.Unpacking)
        (handled : Option Value) (before : Store Value Memory),
        (language.runAll hidden made handled).seen before =
          (raising (do
            unpacking.destructure hidden handled target
              (← language.eval hidden handled value))).seen before ∧
        ∀ ended final, language.runAll hidden made handled before ended final →
          language.Released hidden before.own ended final.own := by
  obtain ⟨made, after, later, ran, hidden, took, assigned⟩ :=
    assignTo_assigns env target value context isPattern steps
  refine ⟨made, after, later, hidden, ran, took.reserved, took.free, ?_⟩
  intro Value Memory language unpacking handled ⟨visible, own⟩
  have avoids := avoids_of_taken areTaken took.free
  rw [Stmt.walk, avoids_visit, avoids_append, Expr.walkList, avoids_append] at avoids
  have stands : language.StandsFor hidden handled own value
      (language.eval hidden handled value) :=
    .of_eval handled (language.eval_ignores handled value _ avoids.2.2) fun _ => rfl
  have mirrors := assigned unpacking handled (fun _ => id) avoids.2.1.1 stands
  constructor
  · have alike : Mirrors Alike own _ _ := mirrors.imp fun leaving => leaving.same.symm
    exact alike.seen_eq visible
  · intro ended final ran
    obtain ⟨_, _, rfl, released⟩ := mirrors.back ran
    exact released

/-- A pattern with another one in it. -/
def nestedPattern : Expr :=
  .tupleOf [.ofName "first", .tupleOf [.ofName "second", .starred .unknown .star (.ofName "others")],
    .ofName "last"]

/-- A pattern of two names. -/
def pairPattern : Expr :=
  .tupleOf [.ofName "first", .ofName "second"]

theorem nestedPattern_bound_in_order :
    nestedPattern.isPattern = true ∧
    (∀ name ∈ (Stmt.assign [nestedPattern] (.ofName "source")).names,
      name ∈ (Context.ofModule [.assign [nestedPattern] (.ofName "source")]).reserved) ∧
    ∃ made after later hidden,
      assignTo ⟨{}, .moduleFrame⟩ nestedPattern (.ofName "source") (return .ofName "source")
        (.ofModule [.assign [nestedPattern] (.ofName "source")]) [] =
          (.ok (made, after), later) ∧
      ∀ handled before, (sequences.runAll hidden made handled).seen before =
        (raising (do
          sequencesUnpack.destructure hidden handled nestedPattern
            (← sequences.eval hidden handled (.ofName "source")))).seen before := by
  have isPattern : nestedPattern.isPattern = true := rfl
  have areTaken : ∀ name ∈ (Stmt.assign [nestedPattern] (.ofName "source")).names,
      name ∈ (Context.ofModule [.assign [nestedPattern] (.ofName "source")]).reserved := by decide
  obtain ⟨made, after, later, hidden, ran, _, _, same⟩ :=
    pattern_bound_in_order ⟨{}, .moduleFrame⟩ isPattern areTaken []
  exact ⟨isPattern, areTaken, made, after, later, hidden, ran, fun handled before =>
    (same sequences sequencesUnpack handled before).1⟩

/-- A value that cannot be taken apart leaves its temporary without a value. -/
theorem number_not_unpacked :
    ∃ made after later unpacked,
      assignTo ⟨{}, .moduleFrame⟩ pairPattern (.ofNat 1) (return .ofNat 1)
        (.ofModule [.assign [pairPattern] (.ofNat 1)]) [] = (.ok (made, after), later) ∧
      after.reserved = unpacked :: (Context.ofModule [.assign [pairPattern] (.ofNat 1)]).reserved ∧
      ¬ ∀ before ended final, sequences.runAll [unpacked] made none before ended final →
        final.own unpacked = some (sequences.constant .none) := by
  let context := Context.ofModule [.assign [pairPattern] (.ofNat 1)]
  let unpacked := (context.fresh "tmp").1
  let items := [Expr.ofName "first", .ofName "second"]
  obtain ⟨body, after, later, assigns, same⟩ :
      ∃ body after later, assignTo ⟨{}, .moduleFrame⟩ pairPattern (.ofNat 1) (return .ofNat 1)
        context [] = (.ok (unpackFor items unpacked (.ofNat 1) body, after), later) ∧
      after.reserved = unpacked :: context.reserved := ⟨_, _, _, rfl, rfl⟩
  let unset : Store Datum Unit := ⟨⟨fun _ => none, ()⟩, fun _ => none⟩
  have fails : sequences.runAll [unpacked] (unpackFor items unpacked (.ofNat 1) body) none unset
      (.error (.raises (.constant (.integer 1)))) unset := by
    have literal : sequences.eval [unpacked] none (.ofNat 1) = pure (.constant (.integer 1)) := rfl
    rw [runAll_unpackFor sequencesUnpack, literal, raising_pure, pure_bind]
    exact .inr ⟨_, rfl, ⟨rfl, rfl⟩, rfl⟩
  exact ⟨_, after, later, unpacked, assigns, same, fun released => by cases released _ _ _ fails⟩

end Lowering
end Unsugar
