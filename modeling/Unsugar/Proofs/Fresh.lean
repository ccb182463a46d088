import Mathlib.Data.List.Perm.Subperm
import Mathlib.Data.List.Nodup
import Unsugar.Context

/-! Fresh names. A fresh name is reserved for generated code, and no name in use
is given again: of the numbers that are tried, one more than there are names in
use, one gives a name that is free. -/

namespace Unsugar

/-! ## Numbered names -/

theorem beginsWithText_append (front rest : String) :
    beginsWithText front (front ++ rest) = true := by
  simp [beginsWithText]

@[simp] theorem isReserved_numberedName (base : String) (number : Nat) :
    isReserved (numberedName base number) = true := by
  have front : beginsWithText "_dp_" (numberedName base number) = true := by
    simp only [numberedName, String.append_assoc]
    exact beginsWithText_append _ _
  simp [isReserved, front]

/-- Generated names are not the names of users. -/
theorem ne_of_isReserved {name other : String} (user : isReserved name = false)
    (reserved : isReserved other = true) : name ≠ other := by
  rintro rfl
  rw [user] at reserved
  cases reserved

theorem numberedName_injective (base : String) {first second : Nat}
    (equal : numberedName base first = numberedName base second) : first = second := by
  have texts : toString first = toString second := (String.append_right_inj _).mp equal
  have values := congrArg (fun text => Nat.ofDigitChars 10 text.toList 0) texts
  simpa [Nat.toString_eq_ofList_toDigits, Nat.ofDigitChars_ten_toDigits] using values

/-! ## The next number -/

/-- The number that is found is free, or else all numbers tried are taken. -/
theorem nextNumber_free_or_taken (reserved : List String) (base : String) (tries last : Nat) :
    numberedName base (nextNumber reserved base tries last) ∉ reserved ∨
      nextNumber reserved base tries last = last + tries + 1 ∧
        ∀ number, last < number → number ≤ last + tries → numberedName base number ∈ reserved := by
  induction tries generalizing last with
  | zero =>
    refine .inr ⟨rfl, fun number after before => ?_⟩
    omega
  | succ tries induction =>
    unfold nextNumber
    split
    · rename_i taken
      rcases induction (last + 1) with free | ⟨found, each⟩
      · exact .inl free
      · refine .inr ⟨by omega, fun number after before => ?_⟩
        rcases Nat.lt_or_eq_of_le (Nat.succ_le_of_lt after) with later | first
        · exact each number later (by omega)
        · rw [← first]
          exact List.contains_iff_mem.mp taken
    · rename_i free
      exact .inl fun member => free (List.contains_iff_mem.mpr member)

/-- More numbers than there are names in use cannot all be taken. -/
theorem not_all_taken (reserved : List String) (base : String) (last : Nat) :
    ¬ ∀ number, last < number → number ≤ last + reserved.length + 1 →
      numberedName base number ∈ reserved := by
  intro taken
  let names := (List.range (reserved.length + 1)).map fun offset =>
    numberedName base (last + 1 + offset)
  have distinct : names.Nodup := by
    refine List.Nodup.map (fun first second equal => ?_) List.nodup_range
    have := numberedName_injective base equal
    omega
  have included : names ⊆ reserved := by
    intro name member
    obtain ⟨offset, offsetMember, rfl⟩ := List.mem_map.mp member
    have bound := List.mem_range.mp offsetMember
    exact taken _ (by omega) (by omega)
  have size := (distinct.subperm included).length_le
  simp only [names, List.length_map, List.length_range] at size
  omega

theorem numberedName_nextNumber_not_mem (reserved : List String) (base : String) (last : Nat) :
    numberedName base (nextNumber reserved base reserved.length last) ∉ reserved := by
  rcases nextNumber_free_or_taken reserved base reserved.length last with free | ⟨found, each⟩
  · exact free
  · intro member
    refine not_all_taken reserved base last fun number after before => ?_
    rcases Nat.lt_or_eq_of_le before with earlier | final
    · exact each number after (by omega)
    · rw [final, ← found]
      exact member

namespace Context

variable (context : Context) (base : String)

/-! ## Fresh names -/

@[simp] theorem isReserved_fresh : isReserved (context.fresh base).1 = true :=
  isReserved_numberedName base _

theorem fresh_not_mem : (context.fresh base).1 ∉ context.reserved :=
  numberedName_nextNumber_not_mem context.reserved base context.counter

@[simp] theorem fresh_reserved :
    (context.fresh base).2.reserved = (context.fresh base).1 :: context.reserved := rfl

end Context
end Unsugar
