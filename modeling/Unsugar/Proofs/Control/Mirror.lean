import Unsugar.Proofs.Control.Hidden

/-! Code that does what other code does, and keeps notes under hidden names. One
judgement relates the two, with a rule for each way in which actions are composed;
user code cannot tell actions apart that are so related. -/

namespace Unsugar
namespace Action

variable {Value Memory Reason α β γ : Type} {hidden : List String}

/-! ## The judgement -/

/-- Where the hidden names have the values `own`, the image can do just what the
source can, as far as user code sees. How the two end, and the values of the hidden
names then, are related by `agree`. -/
structure Mirrors (agree : Except Reason α → Except Reason β → (String → Option Value) → Prop)
    (own : String → Option Value) (source : Action (Store Value Memory) Reason α)
    (image : Action (Store Value Memory) Reason β) : Prop where
  ignores : source.Ignores
  forth : ∀ {visible ended after}, source ⟨visible, own⟩ ended ⟨after, own⟩ →
    ∃ told late, image ⟨visible, own⟩ told ⟨after, late⟩ ∧ agree ended told late
  back : ∀ {visible told after late}, image ⟨visible, own⟩ told ⟨after, late⟩ →
    ∃ ended, source ⟨visible, own⟩ ended ⟨after, own⟩ ∧ agree ended told late

/-- Both end in the same way. -/
def Alike (ended told : Except Reason α) (_ : String → Option Value) : Prop :=
  ended = told

/-- Both fail for one reason, or both give values, and that of the source is noted. -/
inductive Noted (noted : α → (String → Option Value) → Prop) :
    Except Reason α → Except Reason β → (String → Option Value) → Prop
  | fails {reason : Reason} {own : String → Option Value} :
    Noted noted (.error reason) (.error reason) own
  | ends {value : α} {told : β} {own : String → Option Value} (isNoted : noted value own) :
    Noted noted (.ok value) (.ok told) own

/-- Both end in the same way, and of the values of the hidden names then something is
known. -/
structure Leaving (left : Except Reason α → (String → Option Value) → Prop)
    (ended told : Except Reason α) (late : String → Option Value) : Prop where
  same : told = ended
  left : left ended late

/-- Of the values of names only these may have changed. -/
def ChangedOnly (names : List String) (own late : String → Option Value) : Prop :=
  ∀ name, name ∉ names → late name = own name

namespace ChangedOnly

variable {names more : List String} {own middle late : String → Option Value}

theorem refl : ChangedOnly names own own :=
  fun _ _ => rfl

theorem trans (first : ChangedOnly names own middle) (second : ChangedOnly names middle late) :
    ChangedOnly names own late :=
  fun name unchanged => (second name unchanged).trans (first name unchanged)

theorem mono (changed : ChangedOnly names own late) (fewer : names ⊆ more) :
    ChangedOnly more own late :=
  fun name unchanged => changed name fun member => unchanged (fewer member)

theorem update {name : String} (value : Option Value) (isNamed : name ∈ names) :
    ChangedOnly names own (Function.update own name value) := by
  intro other unchanged
  apply Function.update_of_ne
  rintro rfl
  exact unchanged isNamed

end ChangedOnly

namespace Mirrors

variable {agree : Except Reason α → Except Reason β → (String → Option Value) → Prop}
  {own : String → Option Value}

/-- User code cannot tell an image from its source. -/
theorem seen_eq {source image : Action (Store Value Memory) Reason α}
    (mirrors : Mirrors Alike own source image) (visible : Visible Value Memory) :
    image.seen ⟨visible, own⟩ = source.seen ⟨visible, own⟩ := by
  funext ended after
  refine propext ⟨?_, ?_⟩
  · rintro ⟨late, ran⟩
    obtain ⟨_, here, rfl⟩ := mirrors.back ran
    exact ⟨own, here⟩
  · rintro ⟨late, ran⟩
    obtain rfl : late = own := mirrors.ignores.keeps ran
    obtain ⟨_, late, there, rfl⟩ := mirrors.forth ran
    exact ⟨late, there⟩

/-! ## Rules -/

theorem imp {weaker : Except Reason α → Except Reason β → (String → Option Value) → Prop}
    {source : Action (Store Value Memory) Reason α} {image : Action (Store Value Memory) Reason β}
    (mirrors : Mirrors agree own source image)
    (implies : ∀ {ended told late}, agree ended told late → weaker ended told late) :
    Mirrors weaker own source image where
  ignores := mirrors.ignores
  forth ran := by
    obtain ⟨told, late, there, agrees⟩ := mirrors.forth ran
    exact ⟨told, late, there, implies agrees⟩
  back ran := by
    obtain ⟨ended, here, agrees⟩ := mirrors.back ran
    exact ⟨ended, here, implies agrees⟩

theorem refl {agree : Except Reason α → Except Reason α → (String → Option Value) → Prop}
    {action : Action (Store Value Memory) Reason α} (ignores : action.Ignores)
    (agrees : ∀ {before ended after}, action before ended after → agree ended ended own) :
    Mirrors agree own action action where
  ignores := ignores
  forth ran := ⟨_, own, ran, agrees ran⟩
  back {_ told _ _} ran := by
    obtain rfl := ignores.keeps ran
    exact ⟨told, ran, agrees ran⟩

theorem ofResult {ended : Except Reason α} {told : Except Reason β} (agrees : agree ended told own) :
    Mirrors agree own (ofResult ended : Action (Store Value Memory) Reason α)
      (Action.ofResult told) where
  ignores := .ofResult ended
  forth := by
    rintro _ _ _ ⟨rfl, same⟩
    cases same
    exact ⟨_, own, ⟨rfl, rfl⟩, agrees⟩
  back := by
    rintro _ _ _ _ ⟨rfl, same⟩
    cases same
    exact ⟨_, ⟨rfl, rfl⟩, agrees⟩

theorem pure {value : α} {told : β} (agrees : agree (.ok value) (.ok told) own) :
    Mirrors agree own (Pure.pure value : Action (Store Value Memory) Reason α) (Pure.pure told) :=
  ofResult agrees

/-- Of the image only matters what it does where the hidden names have these values. -/
theorem congr {source : Action (Store Value Memory) Reason α}
    {image other : Action (Store Value Memory) Reason β}
    (same : ∀ visible, image ⟨visible, own⟩ = other ⟨visible, own⟩)
    (mirrors : Mirrors agree own source other) : Mirrors agree own source image where
  ignores := mirrors.ignores
  forth ran := by
    simpa only [same] using mirrors.forth ran
  back ran := mirrors.back (same _ ▸ ran)

/-- What is done after an image can rely on how both end. -/
theorem followed {Other δ : Type}
    {related : Except Other γ → Except Other δ → (String → Option Value) → Prop}
    {source : Action (Store Value Memory) Other γ} {image : Action (Store Value Memory) Other δ}
    {last : Except Other γ → Action (Store Value Memory) Reason α}
    {closing : Except Other δ → Action (Store Value Memory) Reason β}
    (first : Mirrors related own source image) (ignores : ∀ ended, (last ended).Ignores)
    (rest : ∀ ended told late, related ended told late →
      Mirrors agree late (last ended) (closing told)) :
    Mirrors agree own (followed source last) (followed image closing) where
  ignores := first.ignores.followed ignores
  forth := by
    rintro visible ended final ⟨inner, ⟨middle, kept⟩, here, there⟩
    obtain rfl : kept = own := first.ignores.keeps here
    obtain ⟨told, late, mirrored, isRelated⟩ := first.forth here
    obtain ⟨finish, last, following, agrees⟩ :=
      (rest inner told late isRelated).forth ((ignores inner).respects there late)
    exact ⟨finish, last, ⟨told, _, mirrored, following⟩, agrees⟩
  back := by
    rintro visible told final last ⟨inner, ⟨middle, late⟩, here, there⟩
    obtain ⟨ended, mirrored, isRelated⟩ := first.back here
    obtain ⟨finish, following, agrees⟩ := (rest ended inner late isRelated).back there
    exact ⟨finish, ⟨ended, _, mirrored, (ignores ended).respects following own⟩, agrees⟩

/-- An image may go on with another one, which can rely on what the first one leaves. -/
theorem andThen {left : Except Reason γ → (String → Option Value) → Prop}
    {source image : Action (Store Value Memory) Reason γ}
    {next : γ → Action (Store Value Memory) Reason α}
    {later : γ → Action (Store Value Memory) Reason β}
    (first : Mirrors (Leaving left) own source image) (ignores : ∀ value, (next value).Ignores)
    (fails : ∀ reason late, left (.error reason) late → agree (.error reason) (.error reason) late)
    (rest : ∀ value late, left (.ok value) late → Mirrors agree late (next value) (later value)) :
    Mirrors agree own (source >>= next) (image >>= later) := by
  rw [bind_eq_followed, bind_eq_followed]
  apply first.followed
  · rintro (reason | value)
    · exact .ofResult _
    · exact ignores value
  · rintro (reason | value) _ late ⟨rfl, isLeft⟩
    · exact .ofResult (fails reason late isLeft)
    · exact rest value late isLeft

/-- Both may begin with the same user code. -/
theorem bind {first : Action (Store Value Memory) Reason γ}
    {next : γ → Action (Store Value Memory) Reason α}
    {other : γ → Action (Store Value Memory) Reason β} (ignores : first.Ignores)
    (fails : ∀ reason, agree (.error reason) (.error reason) own)
    (rest : ∀ value, Mirrors agree own (next value) (other value)) :
    Mirrors agree own (first >>= next) (first >>= other) := by
  have begins : Mirrors (Leaving fun _ late => late = own) own first first :=
    refl ignores fun _ => ⟨rfl, rfl⟩
  apply begins.andThen fun value => (rest value).ignores
  · exact fun reason _ same => same ▸ fails reason
  · exact fun value _ same => same ▸ rest value

/-- The image may set a hidden name. -/
theorem setting {name : String} {value : Option Value} (isHidden : name ∈ hidden)
    {source : Action (Store Value Memory) Reason α}
    {image : Action (Store Value Memory) Reason β}
    (rest : Mirrors agree (Function.update own name value) source image) :
    Mirrors agree own source (do setting hidden name value; image) := by
  have sets : ∀ visible : Visible Value Memory,
      (do Action.setting hidden name value; image) ⟨visible, own⟩ =
        image ⟨visible, Function.update own name value⟩ := fun visible => by
    rw [setting_bind, Store.update, if_pos isHidden]
  constructor
  · exact rest.ignores
  · intro visible ended after ran
    rw [sets]
    exact rest.forth (rest.ignores.respects ran _)
  · intro visible told after late ran
    rw [sets] at ran
    obtain ⟨ended, here, agrees⟩ := rest.back ran
    exact ⟨ended, rest.ignores.respects here own, agrees⟩

/-- What comes after an image can rely on what was noted. -/
theorem sequel {noted : γ → (String → Option Value) → Prop} {δ : Type}
    {source : Action (Store Value Memory) Reason γ} {image : Action (Store Value Memory) Reason δ}
    {next : γ → Action (Store Value Memory) Reason α}
    {after : Action (Store Value Memory) Reason β}
    (first : Mirrors (Noted noted) own source image) (ignores : ∀ value, (next value).Ignores)
    (fails : ∀ reason late, agree (.error reason) (.error reason) late)
    (rest : ∀ value late, noted value late → Mirrors agree late (next value) after) :
    Mirrors agree own (source >>= next) (do let _ ← image; after) := by
  rw [bind_eq_followed, bind_eq_followed]
  apply first.followed
  · rintro (reason | value)
    · exact .ofResult _
    · exact ignores value
  · rintro _ _ late (_ | isNoted)
    · exact .ofResult (fails _ late)
    · exact rest _ late isNoted

/-- However it ends, the image may set a hidden name in the end. -/
theorem ensuring_setting {name : String} {value : Option Value} (isHidden : name ∈ hidden)
    {left : Except (Interruption Value) Unit → (String → Option Value) → Prop}
    {source image : Action (Store Value Memory) (Interruption Value) Unit}
    (body : Mirrors (Leaving left) own source image) :
    Mirrors
      (Leaving fun ended late => ∃ before, left ended before ∧
        late = Function.update before name value)
      own source (ensuring image fun _ => Action.setting hidden name value) := by
  rw [← followed_ofResult source]
  apply body.followed fun _ => .ofResult _
  rintro ended _ late ⟨rfl, isLeft⟩
  exact .setting isHidden (.ofResult ⟨rfl, late, isLeft, rfl⟩)

end Mirrors

/-! ## Repetition -/

/-- How a turn of a source and one of its image end. Both may go on, with the hidden
names ready for another turn. When the source ends with a value that value is noted,
and the image ends too, or will end at its next turn and do nothing else there. -/
inductive TurnNoted (turn : Action (Store Value Memory) Reason (Option β))
    (ready : (String → Option Value) → Prop) (noted : α → (String → Option Value) → Prop) :
    Except Reason (Option α) → Except Reason (Option β) → (String → Option Value) → Prop
  | fails {reason : Reason} {own : String → Option Value} :
    TurnNoted turn ready noted (.error reason) (.error reason) own
  | goesOn {own : String → Option Value} (isReady : ready own) :
    TurnNoted turn ready noted (.ok none) (.ok none) own
  | ends {value : α} {told : β} {own : String → Option Value} (isNoted : noted value own) :
    TurnNoted turn ready noted (.ok (some value)) (.ok (some told)) own
  | endsNext {value : α} {told : β} {own : String → Option Value} (isNoted : noted value own)
    (isDone : ∀ visible, turn ⟨visible, own⟩ =
      (pure (some told) : Action (Store Value Memory) Reason (Option β)) ⟨visible, own⟩) :
    TurnNoted turn ready noted (.ok (some value)) (.ok none) own

section Repeating

variable {source : Action (Store Value Memory) Reason (Option α)}
  {image : Action (Store Value Memory) Reason (Option β)}
  {ready : (String → Option Value) → Prop} {noted : α → (String → Option Value) → Prop}
  {own : String → Option Value}

theorem repeating_of_isDone {told : β}
    (isDone : ∀ visible, image ⟨visible, own⟩ =
      (pure (some told) : Action (Store Value Memory) Reason (Option β)) ⟨visible, own⟩)
    {visible : Visible Value Memory} {ended : Except Reason β} {after : Store Value Memory} :
    repeating image ⟨visible, own⟩ ended after ↔ ended = .ok told ∧ after = ⟨visible, own⟩ := by
  constructor
  · rintro (ran | ran | ⟨ran, _⟩)
    all_goals
      rw [isDone] at ran
      obtain ⟨same, rfl⟩ := ran
      cases same
    exact ⟨rfl, rfl⟩
  · rintro ⟨rfl, rfl⟩
    refine .ends ?_
    rw [isDone]
    exact ⟨rfl, rfl⟩

/-- Actions of which each turn mirrors a turn mirror each other as a whole. The
induction is on the run of the one, while the hidden names change in the other. -/
theorem Mirrors.repeating
    (turns : ∀ own, ready own → Mirrors (TurnNoted image ready noted) own source image)
    (isReady : ready own) : Mirrors (Noted noted) own (repeating source) (repeating image) where
  ignores := (turns own isReady).ignores.repeating
  forth := by
    suffices follows : ∀ {before ended after}, Action.repeating source before ended after →
        ∀ own, ready own → ∃ told late,
          Action.repeating image ⟨before.visible, own⟩ told ⟨after.visible, late⟩ ∧
            Noted noted ended told late from
      fun {_ _ _} ran => follows ran own isReady
    intro before ended after ran
    induction ran with
    | fails ran =>
      intro own isReady
      have turn := turns own isReady
      obtain ⟨_, late, there, ⟨⟩⟩ := turn.forth (turn.ignores.respects ran own)
      exact ⟨_, late, .fails there, .fails⟩
    | ends ran =>
      intro own isReady
      have turn := turns own isReady
      obtain ⟨_, late, there, noted⟩ := turn.forth (turn.ignores.respects ran own)
      cases noted with
      | ends isNoted => exact ⟨_, late, .ends there, .ends isNoted⟩
      | endsNext isNoted isDone =>
        -- One turn more than the source takes.
        exact ⟨_, late, .again there ((repeating_of_isDone isDone).mpr ⟨rfl, rfl⟩), .ends isNoted⟩
    | again ran _ induction =>
      intro own isReady
      have turn := turns own isReady
      obtain ⟨_, middle, there, _ | readyAgain⟩ := turn.forth (turn.ignores.respects ran own)
      obtain ⟨told, late, later, noted⟩ := induction middle readyAgain
      exact ⟨told, late, .again there later, noted⟩
  back := by
    suffices follows : ∀ {before told after}, Action.repeating image before told after →
        ready before.own → ∃ ended,
          Action.repeating source before ended ⟨after.visible, before.own⟩ ∧
            Noted noted ended told after.own from
      fun {_ _ _ _} ran => follows ran isReady
    intro before told after ran
    induction ran with
    | fails ran =>
      intro isReady
      obtain ⟨_, here, ⟨⟩⟩ := (turns _ isReady).back ran
      exact ⟨_, .fails here, .fails⟩
    | ends ran =>
      intro isReady
      obtain ⟨_, here, noted⟩ := (turns _ isReady).back ran
      cases noted with
      | ends isNoted => exact ⟨_, .ends here, .ends isNoted⟩
    | again ran rest induction =>
      intro isReady
      have turn := turns _ isReady
      obtain ⟨_, here, noted⟩ := turn.back ran
      cases noted with
      | goesOn isReady =>
        obtain ⟨ended, later, noted⟩ := induction isReady
        exact ⟨ended, .again here (turn.ignores.repeating.respects later _), noted⟩
      | endsNext isNoted isDone =>
        obtain ⟨rfl, rfl⟩ := (repeating_of_isDone isDone).mp rest
        exact ⟨_, .ends here, .ends isNoted⟩

end Repeating

end Action
end Unsugar
