import Unsugar.Proofs.Fresh
import Unsugar.Proofs.Tree.Identifier

/-! The supply of fresh names for a module. The names in use are the identifiers of the
module and the names given so far, so no name is given twice and none is one of the
module's own. -/

namespace Unsugar

/-! ## The search for a number -/

/-- Counting on from `last` ends at `number`: its name is free, and the names with the
numbers passed over are in use. -/
inductive Search (reserved : List String) (base : String) : (last number : Nat) → Prop where
  | found {last : Nat} (free : numberedName base (last + 1) ∉ reserved) :
    Search reserved base last (last + 1)
  | skip {last number : Nat} (taken : numberedName base (last + 1) ∈ reserved) :
    Search reserved base (last + 1) number → Search reserved base last number

/-- The search ends at the number that is tried last, if not before. -/
theorem search_nextNumber {reserved : List String} {base : String} (tries last : Nat)
    (free : numberedName base (nextNumber reserved base tries last) ∉ reserved) :
    Search reserved base last (nextNumber reserved base tries last) := by
  induction tries generalizing last with
  | zero => exact .found free
  | succ tries induction =>
    unfold nextNumber at free ⊢
    split
    · rename_i taken
      rw [if_pos taken] at free
      exact .skip (List.contains_iff_mem.mp taken) (induction (last + 1) free)
    · rename_i untaken
      rw [if_neg untaken] at free
      exact .found free

namespace Context

theorem search_fresh (context : Context) (base : String) :
    Search context.reserved base context.counter (context.fresh base).2.counter :=
  search_nextNumber _ _ (context.fresh_not_mem base)

/-! ## Names in use -/

/-- Collecting names leaves none out and adds no other. -/
theorem mem_collect {name : String} (names found : List String) :
    name ∈ names.foldl (fun found name => if found.contains name then found else name :: found)
      found ↔ name ∈ found ∨ name ∈ names := by
  induction names generalizing found with
  | nil => simp
  | cons first rest induction =>
    rw [List.foldl_cons, induction]
    split
    · rename_i known
      have member := List.contains_iff_mem.mp known
      have absorbed : name = first → name ∈ found := fun same => same ▸ member
      rw [List.mem_cons, or_left_comm, ← or_assoc, or_iff_right_of_imp absorbed]
    · rw [List.mem_cons, List.mem_cons, or_assoc, or_left_comm]

theorem mem_ofModule {name : String} (body : List Stmt) :
    name ∈ (ofModule body).reserved ↔ name ∈ Stmt.identifiersOfBody body := by
  have flattened : (ofModule body).reserved =
      ((Stmt.bodyNodes body).flatMap namesOf).foldl
        (fun found name => if found.contains name then found else name :: found) [] :=
    List.foldl_flatMap.symm
  have walked : (Stmt.bodyNodes body).flatMap namesOf = Stmt.identifiersOfBody body := by
    rw [Stmt.bodyNodes, List.flatMap_map]
    exact Stmt.names_walkBody body 0
  rw [flattened, mem_collect, walked]
  simp

/-! ## Runs -/

/-- The names given for one base after the other. -/
def freshNames : List String → Context → List String
  | [], _ => []
  | base :: rest, context => (context.fresh base).1 :: freshNames rest (context.fresh base).2

/-- Names in use stay in use. -/
theorem reserved_subset_fresh (context : Context) (base : String) :
    context.reserved ⊆ (context.fresh base).2.reserved :=
  List.subset_cons_self _ _

theorem freshNames_not_mem (bases : List String) :
    ∀ (context : Context), ∀ name ∈ freshNames bases context, name ∉ context.reserved := by
  induction bases with
  | nil => simp [freshNames]
  | cons base rest induction =>
    intro context name member
    rcases List.mem_cons.mp member with rfl | later
    · exact context.fresh_not_mem base
    · exact fun used => induction _ name later (context.reserved_subset_fresh base used)

theorem freshNames_nodup (bases : List String) :
    ∀ context : Context, (freshNames bases context).Nodup := by
  induction bases with
  | nil => simp [freshNames]
  | cons base rest induction =>
    intro context
    refine List.nodup_cons.mpr ⟨fun again => ?_, induction _⟩
    exact freshNames_not_mem rest _ _ again (by simp)

theorem freshNames_isReserved (bases : List String) :
    ∀ (context : Context), ∀ name ∈ freshNames bases context, isReserved name = true := by
  induction bases with
  | nil => simp [freshNames]
  | cons base rest induction =>
    intro context name member
    rcases List.mem_cons.mp member with rfl | later
    · exact context.isReserved_fresh base
    · exact induction _ name later

theorem freshNames_numbered (bases : List String) :
    ∀ context : Context, List.Forall₂ (fun base name => ∃ number, name = numberedName base number)
      bases (freshNames bases context) := by
  induction bases with
  | nil => exact fun _ => .nil
  | cons base rest induction => exact fun context => .cons ⟨_, rfl⟩ (induction _)

/-- Every search for a fresh name ends, whatever names are in use. The names that a
module is given one after the other are made from their bases; they are reserved, all
different, and none of them is an identifier of the module or bound by its imports. -/
theorem freshNames_never_clash (body : List Stmt) (bases : List String) :
    (∀ (context : Context) (base : String),
      Search context.reserved base context.counter (context.fresh base).2.counter ∧
      (context.fresh base).1 = numberedName base (context.fresh base).2.counter) ∧
    List.Forall₂ (fun base name => ∃ number, name = numberedName base number) bases
      (freshNames bases (.ofModule body)) ∧
    (freshNames bases (.ofModule body)).Nodup ∧
    ∀ name ∈ freshNames bases (.ofModule body),
      isReserved name = true ∧ name ∉ Stmt.identifiersOfBody body := by
  refine ⟨fun context base => ⟨context.search_fresh base, rfl⟩, freshNames_numbered bases _,
    freshNames_nodup bases _, fun name member => ⟨?_, ?_⟩⟩
  · exact freshNames_isReserved bases _ name member
  · rw [← mem_ofModule]
    exact freshNames_not_mem bases _ name member

end Context
end Unsugar
