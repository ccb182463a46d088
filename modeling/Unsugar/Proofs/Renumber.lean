import Mathlib.Data.List.Induction
import Mathlib.Data.Set.Function
import Unsugar.Proofs.NumberedName
import Unsugar.Proofs.Tree.Same
import Unsugar.Renumber

/-! Equality up to the numbers of generated names. Two modules are the same once they are
renumbered exactly if the generated names of one correspond to those of the other, base by
base, and the one becomes the other when it is renamed so. -/

namespace Unsugar

open Collector (written? writtenAmong)

namespace Renumber

/-! ## Tables -/

/-- The table of the generated names of a list, in order. -/
def tableOf (names : List String) : Table := names.foldl note []

/-- What a table makes of a name. -/
def renamed (table : Table) (name : String) : String := (table.lookup name).getD name

theorem tableOf_concat (names : List String) (name : String) :
    tableOf (names ++ [name]) = note (tableOf names) name := by
  rw [tableOf, List.foldl_append]
  rfl

/-- The table of the names seen so far: each generated one stands in it, with its base and
the next number. -/
structure Tabulates (names : List String) (table : Table) : Prop where
  known : ∀ name, (table.lookup name).isSome = true ↔
    name ∈ names ∧ (freshBase? name).isSome = true
  numbered : ∀ (index : Nat) (name value : String), table[index]? = some (name, value) →
    ∃ base, freshBase? name = some ("_dp_" ++ base) ∧ value = numberedName base (index + 1)

namespace Tabulates

variable {names : List String} {table : Table} {name base : String}

/-- A name that needs no new entry. -/
theorem seen (tabulates : Tabulates names table)
    (stands : (freshBase? name).isSome = true → (table.lookup name).isSome = true) :
    Tabulates (names ++ [name]) table := by
  refine ⟨fun other => ?_, tabulates.numbered⟩
  rw [tabulates.known, List.mem_append, List.mem_singleton]
  constructor
  · rintro ⟨member, generated⟩
    exact ⟨.inl member, generated⟩
  · rintro ⟨member | rfl, generated⟩
    · exact ⟨member, generated⟩
    · exact (tabulates.known other).mp (stands generated)

theorem add (tabulates : Tabulates names table) (generated : freshBase? name = some base) :
    Tabulates (names ++ [name])
      (table ++ [(name, base ++ "_" ++ toString (table.length + 1))]) := by
  constructor
  · intro other
    have last : ∀ value : String, (List.lookup other [(name, value)]).isSome = true ↔
        other = name := by
      intro value
      rw [List.lookup_isSome_iff]
      simp
    rw [List.lookup_append, Option.isSome_or, Bool.or_eq_true, tabulates.known, last,
      List.mem_append, List.mem_singleton]
    constructor
    · rintro (⟨member, isSome⟩ | rfl)
      · exact ⟨.inl member, isSome⟩
      · exact ⟨.inr rfl, generated ▸ rfl⟩
    · rintro ⟨member | isName, isSome⟩
      · exact .inl ⟨member, isSome⟩
      · exact .inr isName
  · intro index other value found
    rw [List.getElem?_append] at found
    split at found
    case isTrue => exact tabulates.numbered index other value found
    case isFalse beyond =>
      have isLast : index = table.length := by
        by_contra different
        rw [List.getElem?_singleton, if_neg (by omega)] at found
        cases found
      subst isLast
      rw [Nat.sub_self, List.getElem?_cons_zero, Option.some.injEq, Prod.mk.injEq] at found
      obtain ⟨rfl, rfl⟩ := found
      obtain ⟨front, rfl⟩ := exists_of_freshBase? generated
      exact ⟨front, generated, rfl⟩

/-- Adding a name keeps a table. -/
theorem note (tabulates : Tabulates names table) (name : String) :
    Tabulates (names ++ [name]) (note table name) := by
  unfold Renumber.note
  split
  case h_1 none =>
    refine tabulates.seen fun generated => ?_
    rw [none] at generated
    cases generated
  case h_2 base generated =>
    split
    case isTrue stands => exact tabulates.seen fun _ => stands
    case isFalse => exact tabulates.add generated

end Tabulates

theorem tabulates_tableOf (names : List String) : Tabulates names (tableOf names) := by
  induction names using List.reverseRecOn with
  | nil => exact ⟨by simp [tableOf], by simp [tableOf]⟩
  | append_singleton names name induction =>
    rw [tableOf_concat]
    exact induction.note name

/-! ## New names -/

section Renamed

variable {names : List String} {name other : String}

theorem renamed_of_not_generated (plain : freshBase? name = none) :
    renamed (tableOf names) name = name := by
  have unknown : (tableOf names).lookup name = none := by
    rw [← Option.not_isSome_iff_eq_none, (tabulates_tableOf names).known, plain]
    simp
  rw [renamed, unknown, Option.getD_none]

/-- A generated name becomes one with its base and a number of its own. -/
theorem renamed_of_generated (member : name ∈ names) (generated : (freshBase? name).isSome = true) :
    ∃ base index, freshBase? name = some ("_dp_" ++ base) ∧
      renamed (tableOf names) name = numberedName base (index + 1) ∧
      (tableOf names)[index]? = some (name, numberedName base (index + 1)) := by
  have stands := ((tabulates_tableOf names).known name).mpr ⟨member, generated⟩
  obtain ⟨value, found⟩ := Option.isSome_iff_exists.mp stands
  obtain ⟨before, after, split, -⟩ := List.lookup_eq_some_iff.mp found
  have entry : (tableOf names)[before.length]? = some (name, value) := by simp [split]
  obtain ⟨base, isBase, rfl⟩ := (tabulates_tableOf names).numbered _ _ _ entry
  exact ⟨base, before.length, isBase, by rw [renamed, found, Option.getD_some], entry⟩

theorem index_lt {index : Nat} {entry : String × String}
    (found : (tableOf names)[index]? = some entry) : index < (tableOf names).length :=
  (List.getElem?_eq_some_iff.mp found).1

variable (few : (tableOf names).length < Nat.pow 2 64)
include few

theorem freshBase?_renamed (member : name ∈ names) :
    freshBase? (renamed (tableOf names) name) = freshBase? name := by
  cases generated : (freshBase? name).isSome with
  | false =>
    have plain : freshBase? name = none := by simpa using generated
    rw [renamed_of_not_generated plain]
  | true =>
    obtain ⟨base, index, isBase, value, entry⟩ := renamed_of_generated member generated
    have small : index + 1 < Nat.pow 2 64 := Nat.lt_of_le_of_lt (index_lt entry) few
    rw [value, isBase, freshBase?_numberedName, if_pos small]

theorem renamed_injective (member : name ∈ names) (isMember : other ∈ names)
    (same : renamed (tableOf names) name = renamed (tableOf names) other) : name = other := by
  have bases : freshBase? name = freshBase? other := by
    rw [← freshBase?_renamed few member, same, freshBase?_renamed few isMember]
  cases generated : (freshBase? name).isSome with
  | false =>
    have plain : freshBase? name = none := by simpa using generated
    rwa [renamed_of_not_generated plain, renamed_of_not_generated (bases ▸ plain)] at same
  | true =>
    obtain ⟨base, index, isBase, value, entry⟩ := renamed_of_generated member generated
    obtain ⟨base', index', isBase', value', entry'⟩ :=
      renamed_of_generated isMember (bases ▸ generated)
    obtain rfl : base = base' := by
      rw [isBase, isBase', Option.some.injEq] at bases
      exact (String.append_right_inj _).mp bases
    obtain rfl : index = index' :=
      Nat.succ.inj (numberedName_injective base (value ▸ value' ▸ same))
    rw [entry] at entry'
    exact congrArg Prod.fst (Option.some.inj entry')

end Renamed

/-! ## Changes of names -/

/-- A change of names that keeps them apart, keeps their bases, and leaves those that are not
generated as they are. -/
structure Keeps (change : String → String) (names : List String) : Prop where
  apart : ∀ name ∈ names, ∀ other ∈ names, change name = change other → name = other
  base : ∀ name ∈ names, freshBase? (change name) = freshBase? name
  plain : ∀ name ∈ names, freshBase? name = none → change name = name

theorem renamed_keeps {names : List String} (few : (tableOf names).length < Nat.pow 2 64) :
    Keeps (renamed (tableOf names)) names where
  apart _ member _ isMember := renamed_injective few member isMember
  base _ := freshBase?_renamed few
  plain _ _ := renamed_of_not_generated

section Keeps

variable {change : String → String} {names : List String}

/-- A name that is kept apart from the keys of a table stays where it is. -/
theorem lookup_map {table : Table} {name : String}
    (apart : ∀ entry ∈ table, change name = change entry.1 → name = entry.1) :
    (table.map (Prod.map change id)).lookup (change name) = table.lookup name := by
  induction table with
  | nil => rfl
  | cons entry rest induction =>
    obtain ⟨here, later⟩ := List.forall_mem_cons.mp apart
    have same : (change name == change entry.1) = (name == entry.1) := by
      rw [Bool.eq_iff_iff, beq_iff_eq, beq_iff_eq]
      exact ⟨here, congrArg change⟩
    obtain ⟨key, value⟩ := entry
    rw [List.map_cons, Prod.map_apply, List.lookup_cons, List.lookup_cons, same, induction later]
    rfl

theorem key_mem {entry : String × String} (member : entry ∈ tableOf names) : entry.1 ∈ names := by
  have stands : ((tableOf names).lookup entry.1).isSome = true :=
    List.lookup_isSome_iff.mpr ⟨entry, member, beq_self_eq_true _⟩
  exact (((tabulates_tableOf names).known entry.1).mp stands).1

theorem lookup_change {taken : List String} {name : String} (keeps : Keeps change names)
    (within : taken ⊆ names) (member : name ∈ names) :
    ((tableOf taken).map (Prod.map change id)).lookup (change name) =
      (tableOf taken).lookup name :=
  lookup_map fun entry isEntry => keeps.apart name member entry.1 (within (key_mem isEntry))

/-- The table of changed names gives the same new names as that of the old ones. -/
theorem tableOf_map (keeps : Keeps change names) :
    ∀ taken ⊆ names, tableOf (taken.map change) = (tableOf taken).map (Prod.map change id) := by
  intro taken
  induction taken using List.reverseRecOn with
  | nil => exact fun _ => rfl
  | append_singleton taken name induction =>
    intro within
    obtain ⟨before, last⟩ := List.append_subset.mp within
    have member : name ∈ names := last (List.mem_singleton_self name)
    rw [List.map_append, List.map_singleton, tableOf_concat, tableOf_concat, induction before,
      note, note, keeps.base name member, lookup_change keeps before member]
    split
    · rfl
    · split
      · rfl
      · rw [List.map_append, List.length_map]
        rfl

/-- Changed names are renumbered to the same new names as the old ones. -/
theorem renamed_map {name : String} (keeps : Keeps change names) (member : name ∈ names) :
    renamed (tableOf (names.map change)) (change name) = renamed (tableOf names) name := by
  rw [renamed, renamed, tableOf_map keeps names (List.Subset.refl names),
    lookup_change keeps (List.Subset.refl names) member]
  cases found : (tableOf names).lookup name with
  | some value => rfl
  | none =>
    have plain : freshBase? name = none := by
      have unknown := Option.not_isSome_iff_eq_none.mpr found
      rw [(tabulates_tableOf names).known, not_and] at unknown
      exact Option.not_isSome_iff_eq_none.mp (unknown member)
    exact keeps.plain name member plain

theorem map_renamed_map (keeps : Keeps change names) :
    (names.map change).map (renamed (tableOf (names.map change))) =
      names.map (renamed (tableOf names)) := by
  rw [List.map_map]
  exact List.map_congr_left fun _ member => renamed_map keeps member

/-- Two lists that become the same by changes that keep them become each other. -/
theorem exists_change {left right : List String} {first second : String → String}
    (keepsLeft : Keeps first left) (keepsRight : Keeps second right)
    (same : left.map first = right.map second) :
    ∃ change, left.map change = right ∧ Keeps change left ∧ ∀ name ∉ left, change name = name := by
  classical
  -- Each name goes to the one on the right that becomes the same; `second` keeps those apart.
  let back := Function.invFunOn second {name | name ∈ right}
  have target : ∀ name ∈ left,
      back (first name) ∈ right ∧ second (back (first name)) = first name := by
    intro name member
    have image : first name ∈ right.map second := same ▸ List.mem_map_of_mem member
    exact Function.invFunOn_pos (List.mem_map.mp image)
  let change := fun name => if name ∈ left then back (first name) else name
  have onLeft : ∀ name ∈ left, change name = back (first name) := fun name member => if_pos member
  refine ⟨change, ?_, ⟨?_, ?_, ?_⟩, fun name outside => if_neg outside⟩
  · have undone : ∀ name ∈ right, back (second name) = name := by
      intro name member
      have found : ∃ other ∈ {name | name ∈ right}, second other = second name :=
        ⟨name, member, rfl⟩
      exact keepsRight.apart _ (Function.invFunOn_mem found) name member
        (Function.invFunOn_eq found)
    calc left.map change
      _ = left.map (back ∘ first) := List.map_congr_left onLeft
      _ = (right.map second).map back := by rw [← same, List.map_map]
      _ = right.map id := by
        rw [List.map_map]
        exact List.map_congr_left undone
      _ = right := List.map_id right
  · intro name member other isMember equal
    rw [onLeft name member, onLeft other isMember] at equal
    apply keepsLeft.apart name member other isMember
    rw [← (target name member).2, equal, (target other isMember).2]
  · intro name member
    obtain ⟨stands, equal⟩ := target name member
    rw [onLeft name member, ← keepsRight.base _ stands, equal, keepsLeft.base name member]
  · intro name member plain
    obtain ⟨stands, equal⟩ := target name member
    have isPlain : freshBase? (back (first name)) = none := by
      rw [← keepsRight.base _ stands, equal, keepsLeft.base name member, plain]
    rw [onLeft name member, ← keepsRight.plain _ stands isPlain, equal,
      keepsLeft.plain name member plain]

end Keeps

/-! ## Modules -/

theorem occurring_eq (body : List Stmt) :
    occurring body = writtenAmong (Stmt.walkBody (fun _ => true) 0 body) := by
  rw [occurring, Stmt.bodyNodes, List.filterMap_map]
  rfl

theorem occurring_naming (rename : String → String) (body : List Stmt) :
    occurring (Stmt.mapAllLeaves { name := rename } body) = (occurring body).map rename := by
  rw [occurring_eq, occurring_eq]
  exact Stmt.writtenAmong_walkBody { name := rename } body 0

theorem naming_eq_self {rename : String → String} {body : List Stmt}
    (fixed : ∀ name ∈ occurring body, rename name = name) :
    Stmt.mapAllLeaves { name := rename } body = body := by
  rw [occurring_eq] at fixed
  exact Stmt.mapLeavesBody_eq_self body fixed

theorem occurring_renumber (body : List Stmt) :
    occurring (renumber body) = (occurring body).map (renamed (table body)) :=
  occurring_naming _ body

/-- The generated names that occur in a module. -/
def generated (body : List Stmt) : Set String :=
  {name | name ∈ occurring body ∧ (freshBase? name).isSome = true}

/-- A change of names that turns the generated names of one module into those of another, one
by one, with the base of each. -/
structure Corresponds (change : String → String) (left right : List Stmt) : Prop where
  oneToOne : Set.BijOn change (generated left) (generated right)
  base : ∀ name ∈ generated left, freshBase? (change name) = freshBase? name
  others : ∀ name ∉ generated left, change name = name

theorem Corresponds.keeps {change : String → String} {left right : List Stmt}
    (corresponds : Corresponds change left right) : Keeps change (occurring left) := by
  have plain : ∀ name, freshBase? name = none → change name = name := by
    intro name none
    refine corresponds.others name fun member => ?_
    have isSome := member.2
    rw [none] at isSome
    cases isSome
  have base : ∀ name ∈ occurring left, freshBase? (change name) = freshBase? name := by
    intro name member
    cases isBase : freshBase? name with
    | none => rw [plain name isBase, isBase]
    | some front => rw [corresponds.base name ⟨member, isBase ▸ rfl⟩, isBase]
  refine ⟨fun name member other isMember same => ?_, base, fun name _ => plain name⟩
  have bases : freshBase? name = freshBase? other := by
    rw [← base name member, same, base other isMember]
  cases isBase : freshBase? name with
  | none => rwa [plain name isBase, plain other (bases ▸ isBase)] at same
  | some front =>
    exact corresponds.oneToOne.injOn ⟨member, isBase ▸ rfl⟩ ⟨isMember, bases ▸ isBase ▸ rfl⟩ same

theorem corresponds_of_keeps {change : String → String} {left right : List Stmt}
    (keeps : Keeps change (occurring left)) (turns : (occurring left).map change = occurring right)
    (outside : ∀ name ∉ occurring left, change name = name) : Corresponds change left right := by
  refine ⟨⟨?_, ?_, ?_⟩, fun name member => keeps.base name member.1, fun name other => ?_⟩
  · rintro name ⟨member, isSome⟩
    exact ⟨turns ▸ List.mem_map_of_mem member, by rwa [keeps.base name member]⟩
  · rintro name ⟨member, -⟩ other ⟨isMember, -⟩ same
    exact keeps.apart name member other isMember same
  · rintro other ⟨isMember, isSome⟩
    rw [← turns] at isMember
    obtain ⟨name, member, rfl⟩ := List.mem_map.mp isMember
    exact ⟨name, ⟨member, by rwa [keeps.base name member] at isSome⟩, rfl⟩
  · by_cases member : name ∈ occurring left
    · refine keeps.plain name member ?_
      rw [← Option.not_isSome_iff_eq_none]
      exact fun isSome => other ⟨member, isSome⟩
    · exact outside name member

/-- Two renumbered modules are the same if the one becomes the other by a change of its
generated names. -/
theorem same_of_corresponds {change : String → String} {left right : List Stmt}
    (corresponds : Corresponds change left right)
    (same : Stmt.sameBody (Stmt.mapAllLeaves { name := change } left) right = true) :
    Stmt.sameBody (renumber left) (renumber right) = true := by
  have unchanged : Stmt.mapAllLeaves { name := id } right = right := naming_eq_self fun _ _ => rfl
  rw [← unchanged, Stmt.sameBody_naming_iff, ← occurring_eq, ← occurring_eq, List.map_id] at same
  obtain ⟨shapes, turns⟩ := same
  refine (Stmt.sameBody_naming_iff left right _ _).mpr ⟨shapes, ?_⟩
  rw [← occurring_eq, ← occurring_eq]
  have aligned := map_renamed_map corresponds.keeps
  rw [turns] at aligned
  exact aligned.symm

theorem exists_corresponds {left right : List Stmt}
    (few : (table left).length < Nat.pow 2 64) (fewRight : (table right).length < Nat.pow 2 64)
    (same : Stmt.sameBody (renumber left) (renumber right) = true) :
    ∃ change, Corresponds change left right ∧
      Stmt.sameBody (Stmt.mapAllLeaves { name := change } left) right = true := by
  obtain ⟨shapes, names⟩ := (Stmt.sameBody_naming_iff left right _ _).mp same
  rw [← occurring_eq, ← occurring_eq] at names
  obtain ⟨change, turns, keeps, outside⟩ :=
    exists_change (renamed_keeps few) (renamed_keeps fewRight) names
  refine ⟨change, corresponds_of_keeps keeps turns outside, ?_⟩
  have unchanged : Stmt.mapAllLeaves { name := id } right = right := naming_eq_self fun _ _ => rfl
  rw [← unchanged, Stmt.sameBody_naming_iff, ← occurring_eq, ← occurring_eq, List.map_id]
  exact ⟨shapes, turns⟩

/-- The names of a renumbered module are numbered as they are. -/
theorem renumber_renumber {body : List Stmt} (few : (table body).length < Nat.pow 2 64) :
    renumber (renumber body) = renumber body := by
  have keeps := renamed_keeps few
  refine naming_eq_self fun name member => ?_
  rw [occurring_renumber] at member
  obtain ⟨old, isOld, rfl⟩ := List.mem_map.mp member
  have tables : table (renumber body) = tableOf ((occurring body).map (renamed (table body))) :=
    congrArg tableOf (occurring_renumber body)
  change renamed (table (renumber body)) (renamed (table body) old) = renamed (table body) old
  rw [tables]
  exact renamed_map keeps isOld

theorem occurring_renumber_eq_iff {body : List Stmt} (few : (table body).length < Nat.pow 2 64)
    (first second : Nat) :
    (occurring (renumber body))[first]? = (occurring (renumber body))[second]? ↔
      (occurring body)[first]? = (occurring body)[second]? := by
  rw [occurring_renumber, List.getElem?_map, List.getElem?_map]
  refine ⟨fun same => ?_, congrArg _⟩
  cases isFirst : (occurring body)[first]? with
  | none =>
    rw [isFirst, Option.map_none] at same
    exact (Option.map_eq_none_iff.mp same.symm).symm
  | some name =>
    rw [isFirst, Option.map_some] at same
    obtain ⟨other, isSecond, equal⟩ := Option.map_eq_some_iff.mp same.symm
    rw [isSecond, renamed_injective few (List.mem_of_getElem? isSecond)
      (List.mem_of_getElem? isFirst) equal]

end Renumber

open Renumber

/-- Renumbering decides equality up to generated names. Two modules become the same exactly if
the generated names of the one correspond to those of the other, one to one and with the base
of each, and the one becomes the same as the other once its names are changed so. A module that
is renumbered again stays as it is. Two identifiers are equal in the renumbered module exactly
if they are in the module. As the number in a generated name has at most sixty-four bits, a
module may not have more generated names than there are such numbers. -/
theorem renumber_decides (left right : List Stmt)
    (few : (table left).length < Nat.pow 2 64) (fewRight : (table right).length < Nat.pow 2 64) :
    (Stmt.sameBody (renumber left) (renumber right) = true ↔
      ∃ change, Corresponds change left right ∧
        Stmt.sameBody (Stmt.mapAllLeaves { name := change } left) right = true) ∧
    renumber (renumber left) = renumber left ∧
    (occurring (renumber left)).length = (occurring left).length ∧
    ∀ first second : Nat,
      (occurring (renumber left))[first]? = (occurring (renumber left))[second]? ↔
        (occurring left)[first]? = (occurring left)[second]? := by
  refine ⟨⟨exists_corresponds few fewRight, ?_⟩, renumber_renumber few, ?_,
    occurring_renumber_eq_iff few⟩
  · rintro ⟨change, corresponds, same⟩
    exact same_of_corresponds corresponds same
  · rw [occurring_renumber, List.length_map]

/-- Two modules that use two generated names in the same places: one name ends in a digit, and
the numbers are in another order. -/
theorem renumber_decides_swap :
    let left : List Stmt := [.assign [.name .unknown "_dp_tmp_2_9"] (.name .unknown "_dp_tmp_1")]
    let right : List Stmt := [.assign [.name .unknown "_dp_tmp_2_1"] (.name .unknown "_dp_tmp_2")]
    (∃ change, Corresponds change left right ∧
      Stmt.sameBody (Stmt.mapAllLeaves { name := change } left) right = true) ∧
    renumber (renumber left) = renumber left ∧
    occurring (renumber left) = ["_dp_tmp_2_1", "_dp_tmp_2"] := by
  intro left right
  obtain ⟨decides, again, -, -⟩ :=
    renumber_decides left right (by decide +kernel) (by decide +kernel)
  exact ⟨decides.mp (by decide +kernel), again, by decide +kernel⟩

end Unsugar
