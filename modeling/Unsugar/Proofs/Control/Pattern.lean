import Unsugar.Lowering.Expression
import Unsugar.Proofs.Control.Mirror

/-! Assignment to patterns. A value is taken apart into one component for each element of
a pattern, and the components are assigned from left to right; an element that is a
pattern itself takes its component apart when its turn comes. A starred element gets the
list of the items that remain for it. -/

namespace Unsugar

open Lowering (isStarred)

/-! ## Patterns -/

namespace Expr

mutual

/-- Whether a target is a name, or a tuple or a list of such targets, one of which may
be starred. -/
def isPattern : Expr → Bool
  | .name .. => true
  | tuple _ items _ => areElements items && (items.filter isStarred).length ≤ 1
  | list _ items _ => areElements items && (items.filter isStarred).length ≤ 1
  | _ => false

def areElements : List Expr → Bool
  | [] => true
  | starred _ _ target :: rest => isPattern target && areElements rest
  | target :: rest => isPattern target && areElements rest

end

/-- An element of a pattern without its star. -/
def unstarred : Expr → Expr
  | starred _ _ target => target
  | target => target

theorem areElements_cons (first : Expr) (rest : List Expr) :
    areElements (first :: rest) = (isPattern first.unstarred && areElements rest) := by
  cases first <;> rfl

theorem sizeOf_unstarred_le (element : Expr) : sizeOf element.unstarred ≤ sizeOf element := by
  cases element <;> simp [unstarred]

theorem avoids_unstarred {hidden : List String} {element : Expr} {depth : Nat}
    (avoids : Avoids hidden (element.walk (fun _ => true) depth)) :
    ∃ depth, Avoids hidden (element.unstarred.walk (fun _ => true) depth) := by
  cases element
  case starred =>
    rw [walk, avoids_visit] at avoids
    exact ⟨_, avoids.2⟩
  all_goals exact ⟨_, avoids⟩

/-- What is asked of a value for the elements of a pattern: an item for each, or for a
starred one the items that remain. -/
def flags (items : List Expr) : List Bool :=
  items.map fun item => !isStarred item

end Expr

/-! ## Components -/

/-- What a value gives for an element of a pattern. -/
inductive Component (Value : Type) where
  | item (value : Value)
  /-- The items that remain for a starred element. -/
  | remaining (values : List Value)

namespace Component

variable {Value : Type}

def isItem : Component Value → Bool
  | item _ => true
  | remaining _ => false

/-- A component as one value; `gather` makes one of the items that remain. -/
def value (gather : List Value → Value) : Component Value → Value
  | item value => value
  | remaining values => gather values

end Component

namespace Language

variable {Value Memory : Type}

/-- How values are taken apart, and what the functions of the support module do that are
called for it. -/
structure Unpacking (language : Language Value Memory) where
  /-- The components of a value, or an error. -/
  split : Value → List Bool → Action (Visible Value Memory) Value (List (Component Value))
  /-- A tuple of values. -/
  sequence : List Value → Value
  /-- The list of the items of a tuple. -/
  newList : List Value → Value
  /-- There is one component for each flag: the items that remain where the flag is
  false, and one item elsewhere. -/
  split_flags : ∀ {value flags before parts after},
    split value flags before (.ok parts) after → parts.map Component.isItem = flags
  evaluate_flags : ∀ handled (flags : List Bool),
    language.evaluate handled (.tupleOf (flags.map .ofBool)) =
      pure (sequence (flags.map fun flag => language.constant (.boolean flag)))
  support_unpack : ∀ handled value (flags : List Bool),
    language.support handled "unpack"
        [value, sequence (flags.map fun flag => language.constant (.boolean flag))] = (do
      return sequence ((← split value flags).map (·.value sequence)))
  support_getitem : ∀ handled (values : List Value) (index : Nat) (found : Value),
    values[index]? = some found →
    language.support handled "getitem" [sequence values, language.constant (.integer index)] =
      pure found
  support_list : ∀ handled (values : List Value),
    language.support handled "list" [sequence values] = pure (newList values)

namespace Unpacking

variable {language : Language Value Memory} (unpacking : language.Unpacking) (hidden : List String)
  (handled : Option Value)

/-! ## What an assignment does -/

mutual

/-- Assigns a value to a pattern. A value that is taken apart may fail to be; what was
assigned before then stays. -/
def destructure : Expr → Value → Action (Store Value Memory) Value Unit
  | .name _ id, value => .setting hidden id (some value)
  | .tuple _ items _, value | .list _ items _, value => do
    destructureAll items (← Action.ofVisible (unpacking.split value (Expr.flags items)))
  | .starred _ _ target, value => destructure target value
  | target, value => .ofVisible (language.assign handled target value)

/-- Assigns components to the elements of a pattern, from left to right. -/
def destructureAll : List Expr → List (Component Value) → Action (Store Value Memory) Value Unit
  | element :: items, part :: parts => do
    destructure element (part.value unpacking.newList)
    destructureAll items parts
  | _, _ => return

end

/-! ## Laws -/

section Laws

variable {hidden}

open Unsugar.Action

theorem destructure_unstarred (element : Expr) (value : Value) :
    unpacking.destructure hidden handled element value =
      unpacking.destructure hidden handled element.unstarred value := by
  cases element <;> rfl

mutual

theorem destructure_ignores : ∀ (target : Expr) (depth : Nat),
    Avoids hidden (target.walk (fun _ => true) depth) → ∀ value,
      (unpacking.destructure hidden handled target value).Ignores
  | .name _ id, _, avoids, value => by
    rw [Expr.walk, avoids_visit] at avoids
    rw [destructure]
    exact .setting (avoids.1 id (by simp [Context.namesOf])) _
  | .tuple _ items _, depth, avoids, value | .list _ items _, depth, avoids, value => by
    rw [Expr.walk, avoids_visit] at avoids
    rw [destructure]
    exact (Ignores.ofVisible _).bind fun parts => destructureAll_ignores items _ avoids.2 parts
  | .starred _ _ target, depth, avoids, value => by
    rw [Expr.walk, avoids_visit] at avoids
    rw [destructure]
    exact destructure_ignores target _ avoids.2 value
  | .literal .., _, _, _ | .fstring .., _, _, _ | .field .., _, _, _ | .call .., _, _, _
  | .keyword .., _, _, _ | .member .., _, _, _ | .subscript .., _, _, _
  | .slice .., _, _, _ | .binary .., _, _, _ | .logical .., _, _, _ | .compare .., _, _, _
  | .unary .., _, _, _ | .conditional .., _, _, _ | .lambda .., _, _, _ | .set .., _, _, _
  | .dict .., _, _, _ | .entry .., _, _, _ | .comprehension .., _, _, _ | .named .., _, _, _
  | .yield .., _, _, _ => .ofVisible _

theorem destructureAll_ignores : ∀ (items : List Expr) (depth : Nat),
    Avoids hidden (Expr.walkList (fun _ => true) depth items) → ∀ parts,
      (unpacking.destructureAll hidden handled items parts).Ignores
  | [], _, _, _ | _ :: _, _, _, [] => .pure _
  | first :: rest, depth, avoids, part :: parts => by
    rw [Expr.walkList, avoids_append] at avoids
    rw [destructureAll]
    exact (destructure_ignores first depth avoids.1 _).bind fun _ =>
      destructureAll_ignores rest depth avoids.2 parts

end

/-- Where a value can be taken apart, it has as many components as were asked for. -/
theorem mirrors_split (value : Value) (flags : List Bool) {own : String → Option Value} :
    Mirrors (Leaving fun ended late => late = own ∧
        ∀ parts, ended = .ok parts → parts.map Component.isItem = flags) own
      (raising (ofVisible (unpacking.split value flags)) :
        Action (Store Value Memory) (Interruption Value) (List (Component Value)))
      (raising (ofVisible (unpacking.split value flags))) := by
  apply Mirrors.refl (Ignores.raising (.ofVisible _))
  intro _ ended _ ran
  refine ⟨rfl, rfl, ?_⟩
  rintro parts rfl
  exact unpacking.split_flags ran.1

end Laws

/-! ## What the support module does -/

section Support

variable {hidden}

open Unsugar.Action

theorem eval_flags (flags : List Bool) :
    language.eval hidden handled (.tupleOf (flags.map .ofBool)) =
      pure (unpacking.sequence (flags.map fun flag => language.constant (.boolean flag))) := by
  change ofVisible (language.evaluate handled _) = _
  rw [unpacking.evaluate_flags, ofVisible_pure]

theorem perform_unpack (found : Value) (flags : List Bool) :
    (language.perform handled "unpack" [found,
      unpacking.sequence (flags.map fun flag => language.constant (.boolean flag))] :
        Action (Store Value Memory) Value Value) = (do
      return unpacking.sequence
        ((← ofVisible (unpacking.split found flags)).map (·.value unpacking.sequence))) := by
  rw [language.perform_eq_support handled _ (by decide), unpacking.support_unpack]
  simp only [ofVisible_bind, ofVisible_pure]

theorem perform_getitem {values : List Value} {index : Nat} {found : Value}
    (isAt : values[index]? = some found) :
    (language.perform handled "getitem"
      [unpacking.sequence values, language.constant (.integer index)] :
        Action (Store Value Memory) Value Value) = pure found := by
  rw [language.perform_eq_support handled _ (by decide),
    unpacking.support_getitem _ _ _ _ isAt, ofVisible_pure]

theorem perform_list (values : List Value) :
    (language.perform handled "list" [unpacking.sequence values] :
      Action (Store Value Memory) Value Value) = pure (unpacking.newList values) := by
  rw [language.perform_eq_support handled _ (by decide), unpacking.support_list, ofVisible_pure]

end Support

end Unpacking

/-! ## Sequences -/

/-- The items of a sequence as components: each flag takes one item, and a flag that is
false all those that the flags after it leave. -/
def components {α : Type} : List Bool → List α → Option (List (Component α))
  | [], [] => some []
  | [], _ :: _ | true :: _, [] => none
  | true :: flags, item :: items => do return .item item :: (← components flags items)
  | false :: flags, items =>
    if flags.length ≤ items.length then do
      let (taken, left) := items.splitAt (items.length - flags.length)
      return .remaining taken :: (← components flags left)
    else none

theorem components_cons {α : Type} {flag : Bool} {flags : List Bool} {items : List α}
    {parts : List (Component α)} (found : components (flag :: flags) items = some parts) :
    ∃ part left rest, part.isItem = flag ∧ components flags left = some rest ∧
      parts = part :: rest := by
  cases flag with
  | true =>
    cases items with
    | nil => cases found
    | cons item items =>
      obtain ⟨rest, foundRest, ⟨⟩⟩ := Option.bind_eq_some_iff.mp found
      exact ⟨_, items, rest, rfl, foundRest, rfl⟩
  | false =>
    rw [components, Option.ite_none_right_eq_some] at found
    obtain ⟨rest, foundRest, ⟨⟩⟩ := Option.bind_eq_some_iff.mp found.2
    exact ⟨_, _, rest, rfl, foundRest, rfl⟩

theorem flags_of_components {α : Type} {flags : List Bool} {items : List α}
    {parts : List (Component α)} (found : components flags items = some parts) :
    parts.map Component.isItem = flags := by
  induction flags generalizing items parts with
  | nil =>
    cases items
    · cases found
      rfl
    · cases found
  | cons flag flags induction =>
    obtain ⟨part, left, rest, rfl, foundRest, rfl⟩ := components_cons found
    rw [List.map_cons, induction foundRest]

/-- A starred element takes what the elements after it leave. -/
example : components [true, false, true] [1, 2, 3, 4] =
    some [.item 1, .remaining [2, 3], .item 4] := rfl

inductive Datum where
  | constant (value : Constant)
  | tuple (items : List Datum)
  | list (items : List Datum)

namespace Datum

def items : Datum → Option (List Datum)
  | constant _ => none
  | tuple items | list items => some items

def ofLiteral : Expr → Datum
  | .literal _ _ value => constant value
  | _ => constant .none

def isTrue : Datum → Bool
  | constant (.boolean value) => value
  | _ => true

/-- Takes a sequence apart. Other values, and sequences of other lengths, are errors. -/
def split (value : Datum) (flags : List Bool) :
    Action (Visible Datum Unit) Datum (List (Component Datum)) :=
  .ofResult ((value.items.bind (components flags)).elim (.error value) .ok)

theorem components_of_split {value : Datum} {flags : List Bool} {before after : Visible Datum Unit}
    {parts : List (Component Datum)} (found : value.split flags before (.ok parts) after) :
    value.items.bind (components flags) = some parts := by
  rw [split] at found
  cases isSplit : value.items.bind (components flags) with
  | none =>
    rw [isSplit] at found
    cases found.1
  | some _ =>
    rw [isSplit] at found
    cases found.1
    rfl

end Datum

/-- A language whose values are constants and sequences of values. Each value is a context
manager that is entered and left without further ado, and drops no error. -/
def sequences : Language Datum Unit where
  constant := .constant
  unbound name := .constant (.text name)
  nothingHandled := .constant .none
  exhausted := .constant .ellipsis
  same _ _ := true
  truth value := pure value.isTrue
  iterator := pure
  next _ := pure none
  catches _ _ := pure true
  enter := pure
  exit _ _ := pure false
  support
    | _, "unpack", [value, .tuple flags] => do
      return .tuple ((← value.split (flags.map Datum.isTrue)).map (·.value .tuple))
    | _, "getitem", [.tuple items, .constant (.integer index)] =>
      .ofResult (items[index.toNat]?.elim (.error (.constant .none)) .ok)
    | _, "list", [.tuple items] => pure (.list items)
    | _, "contextmanager_get_exit", [manager] => pure manager
    | _, "contextmanager_enter", [manager] => pure manager
    | some error, "exc_info", [] => pure (.tuple [error])
    | _, "contextmanager_exit", [_, .tuple [error]] => .ofResult (.error error)
    | _, _, _ => pure (.constant .none)
  evaluate
    | _, .tuple _ items _ => pure (.tuple (items.map Datum.ofLiteral))
    | _, _ => pure (.constant .none)
  assign _ _ _ := pure ()
  execute _ _ := pure ()
  truth_boolean _ := rfl
  same_exhausted := rfl
  next_not_exhausted found := by cases found.1

def sequencesUnpack : sequences.Unpacking where
  split := Datum.split
  sequence := .tuple
  newList := .list
  split_flags {value flags _ _ _} found := by
    obtain ⟨_, _, isSplit⟩ := Option.bind_eq_some_iff.mp (Datum.components_of_split found)
    exact flags_of_components isSplit
  evaluate_flags _ flags := by
    change pure (Datum.tuple _) = _
    rw [List.map_map]
    rfl
  support_unpack _ value flags := by
    have same : (flags.map fun flag => sequences.constant (.boolean flag)).map Datum.isTrue =
        flags := by
      rw [List.map_map]
      exact List.map_id flags
    change (do return Datum.tuple ((← value.split (List.map _ _)).map _)) = _
    rw [same]
  support_getitem _ values index found isAt := by
    change Action.ofResult (values[(index : Int).toNat]?.elim _ _) = _
    rw [Int.toNat_natCast, isAt]
    rfl
  support_list _ _ := rfl

end Language
end Unsugar
