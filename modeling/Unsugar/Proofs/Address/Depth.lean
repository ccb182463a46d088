import Unsugar.Proofs.Address.Reference

/-! Addresses by depth are unambiguous. Of the frames around a reference, no two that names
are looked up in have the same depth, although the function that fills the namespace of a
class has the depth of the frame around it. So a depth tells which frame is meant: the
nearest that binds the name. -/

namespace Unsugar
namespace Address

/-! ## Frames around a reference -/

/-- A frame and those around it, the nearest first. The last is the module. -/
inductive IsChain : List Frame → Prop where
  | ofModule (body : List Stmt) : IsChain [.ofModule body]
  | within {frame : Frame} {outer : List Frame} (chain : IsChain (frame :: outer))
      (head : FunctionHead) (body : List Stmt) : IsChain (frame.within head body :: frame :: outer)

namespace Frame

variable {frame : Frame} {head : FunctionHead} {body : List Stmt}

theorem depth_le_within : frame.depth ≤ (frame.within head body).depth := by
  unfold within
  dsimp only
  split
  · exact Nat.le_refl _
  · exact Nat.le_succ _

theorem depth_within (other : (frame.within head body).isNamespace = false) :
    (frame.within head body).depth = frame.depth + 1 :=
  if_neg (Bool.eq_false_iff.mp other)

end Frame

namespace IsChain

variable {chain outer : List Frame} {frame owner : Frame}

/-- Farther frames are not deeper. -/
theorem depth_le (isChain : IsChain (frame :: outer)) :
    ∀ other ∈ frame :: outer, other.depth ≤ frame.depth := by
  generalize same : frame :: outer = chain at isChain
  induction isChain generalizing frame outer with
  | ofModule body =>
    obtain ⟨rfl, rfl⟩ := List.cons.inj same
    exact List.forall_mem_singleton.mpr (Nat.le_refl _)
  | within chain head body induction =>
    obtain ⟨rfl, rfl⟩ := List.cons.inj same
    refine List.forall_mem_cons.mpr ⟨Nat.le_refl _, fun other member => ?_⟩
    exact Nat.le_trans (induction rfl other member) Frame.depth_le_within

/-- No two frames on a chain have the same depth, apart from those that fill namespaces. -/
theorem filter_depth (isChain : IsChain chain) (member : owner ∈ chain)
    (other : owner.isNamespace = false) :
    chain.filter (fun frame => !frame.isNamespace && frame.depth == owner.depth) = [owner] := by
  induction isChain with
  | ofModule body =>
    obtain rfl := List.mem_singleton.mp member
    rw [List.filter_cons_of_pos (by simp [other]), List.filter_nil]
  | @within frame outer chain head body induction =>
    have shallow := chain.depth_le
    rcases List.mem_cons.mp member with rfl | farther
    -- A new frame that fills no namespace is deeper than all around it.
    · have none : (frame :: outer).filter (fun found => !found.isNamespace &&
          found.depth == (frame.within head body).depth) = [] := by
        rw [List.filter_eq_nil_iff]
        intro found isFound
        have bound := shallow found isFound
        have deeper := Frame.depth_within other
        simp only [Bool.and_eq_true, beq_iff_eq, not_and]
        omega
      rw [List.filter_cons_of_pos (by simpa using other), none]
    -- One that does has the depth of a frame around it, and is left out for that.
    · have bound := shallow owner farther
      rw [List.filter_cons_of_neg, induction farther]
      simp only [Bool.and_eq_true, Bool.not_eq_true', beq_iff_eq, not_and]
      intro plain
      rw [Frame.depth_within plain]
      omega

/-- Only the module has depth zero. -/
theorem depth_pos (isChain : IsChain chain) (member : owner ∈ chain)
    (other : owner.isNamespace = false) (isFunction : owner.isFunction = true) :
    0 < owner.depth := by
  induction isChain with
  | ofModule body =>
    obtain rfl := List.mem_singleton.mp member
    cases isFunction
  | within chain head body induction =>
    rcases List.mem_cons.mp member with rfl | farther
    · rw [Frame.depth_within other]
      exact Nat.succ_pos _
    · exact induction farther

end IsChain
end Address

namespace Stmt

open Address

variable {frame : Address.Frame} {outer : List Address.Frame}

theorem isChain_inFrame (isChain : IsChain (frame :: outer)) (names : List String) :
    ∀ reference ∈ inFrame frame outer names, IsChain (reference.frame :: reference.outer) := by
  intro reference member
  obtain ⟨name, -, rfl⟩ := List.mem_map.mp member
  exact isChain

mutual

theorem isChain_references : ∀ (stmt : Stmt) {frame : Address.Frame} {outer : List Address.Frame},
    IsChain (frame :: outer) → ∀ reference ∈ stmt.references frame outer,
      IsChain (reference.frame :: reference.outer)
  | .conditional _ _ body _ orelse, _, _, isChain | .whileLoop _ _ body orelse, _, _, isChain
  | .forLoop _ _ _ body orelse, _, _, isChain => by
    simp only [references, List.forall_mem_append]
    exact ⟨isChain_inFrame isChain _, isChain_referencesOfBody body isChain,
      isChain_referencesOfBody orelse isChain⟩
  | .tryBlock _ body handlers orelse final, _, _, isChain => by
    simp only [references, List.forall_mem_append]
    exact ⟨isChain_inFrame isChain _, ⟨⟨isChain_referencesOfBody body isChain,
      isChain_referencesOfHandlers handlers isChain⟩, isChain_referencesOfBody orelse isChain⟩,
      isChain_referencesOfBody final isChain⟩
  | .withBlock _ _ body, _, _, isChain | .classDef _ _ _ _ body, _, _, isChain => by
    simp only [references, List.forall_mem_append]
    exact ⟨isChain_inFrame isChain _, isChain_referencesOfBody body isChain⟩
  | .function _ _ _ _ _ body, _, _, isChain => by
    simp only [references, List.forall_mem_append]
    exact ⟨isChain_inFrame isChain _, isChain_referencesOfBody body (isChain.within _ _)⟩
  | .expression .., _, _, isChain | .assign .., _, _, isChain | .augAssign .., _, _, isChain
  | .annAssign .., _, _, isChain | .delete .., _, _, isChain | .branch .., _, _, isChain
  | .returns .., _, _, isChain | .raises .., _, _, isChain | .declare .., _, _, isChain
  | .asserts .., _, _, isChain | .imports .., _, _, isChain | .importFrom .., _, _, isChain => by
    rw [references_of_isSimple rfl]
    exact isChain_inFrame isChain _

theorem isChain_referencesOfBody : ∀ (body : List Stmt) {frame : Address.Frame}
    {outer : List Address.Frame}, IsChain (frame :: outer) →
      ∀ reference ∈ referencesOfBody frame outer body, IsChain (reference.frame :: reference.outer)
  | [], _, _, _ => nofun
  | first :: rest, _, _, isChain =>
    List.forall_mem_append.mpr
      ⟨isChain_references first isChain, isChain_referencesOfBody rest isChain⟩

theorem isChain_referencesOfHandlers : ∀ (handlers : List Handler) {frame : Address.Frame}
    {outer : List Address.Frame}, IsChain (frame :: outer) →
      ∀ reference ∈ referencesOfHandlers frame outer handlers,
        IsChain (reference.frame :: reference.outer)
  | [], _, _, _ => nofun
  | .mk _ _ _ body :: rest, _, _, isChain => by
    simp only [referencesOfHandlers, List.forall_mem_append]
    exact ⟨⟨isChain_inFrame isChain _, isChain_referencesOfBody body isChain⟩,
      isChain_referencesOfHandlers rest isChain⟩

end

end Stmt
namespace Address

/-! ## Looking names up -/

/-- Whether a frame binds a name, other than as nonlocal. -/
def Frame.binds (frame : Frame) (name : String) : Bool :=
  frame.binding? name == some .own || frame.binding? name == some .global

/-- The nearest frame that binds a name other than as nonlocal. Functions that fill namespaces
are passed over. -/
def owner? (name : String) (frames : List Frame) : Option Frame :=
  frames.find? fun frame => !frame.isNamespace && frame.binds name

theorem Frame.level_kind_eq_namespaceFrame (frame : Frame) :
    frame.level.kind = .namespaceFrame ↔ frame.isNamespace = true := by
  obtain ⟨_ | head, body, depth⟩ := frame
  · simp [level, kind, isNamespace]
  · cases fills : Place.fillsNamespace head <;> simp [level, kind, isNamespace, fills]

theorem Frame.level_kind_eq_moduleFrame (frame : Frame) :
    frame.level.kind = .moduleFrame ↔ frame.isFunction = false := by
  obtain ⟨_ | head, body, depth⟩ := frame
  · simp [level, kind, isFunction]
  · cases fills : Place.fillsNamespace head <;> simp [level, kind, isFunction, fills]

/-- The depth of a name is that of its owner, or zero if this declares the name global or
there is none. -/
theorem depthOf_eq (name : String) (frames : List Frame) :
    depthOf name (frames.map Frame.level) =
      match owner? name frames with
      | none => 0
      | some owner => if owner.binding? name = some .global then 0 else owner.depth := by
  induction frames with
  | nil => rfl
  | cons frame outer induction =>
    rw [owner?] at induction ⊢
    rw [List.map_cons, depthOf]
    have kind := frame.level_kind_eq_namespaceFrame
    have lookup : frame.level.bindings.lookup name = frame.binding? name := rfl
    by_cases fills : frame.isNamespace = true
    · rw [if_pos (kind.mpr fills), List.find?_cons_of_neg (by simp [fills]), induction]
    · rw [if_neg (fun same => fills (kind.mp same)), lookup]
      cases found : frame.binding? name with
      | none =>
        rw [List.find?_cons_of_neg (by simp [Frame.binds, found])]
        exact induction
      | some binding =>
        cases binding with
        | own =>
          rw [List.find?_cons_of_pos (by simp [Frame.binds, found, fills])]
          simp only [found]
          rfl
        | global =>
          rw [List.find?_cons_of_pos (by simp [Frame.binds, found, fills])]
          simp only [found, if_true]
        | nonlocal =>
          rw [List.find?_cons_of_neg (by simp [Frame.binds, found])]
          exact induction

namespace Reference

variable (reference : Reference)

/-- What keeps a name in a function from being written with a depth: it is reserved, or local
to the function, or the cell of a class, or the class itself where its namespace is filled. -/
def StaysBare : Prop :=
  isReserved reference.name = true ∨ reference.frame.binding? reference.name = some .own ∨
    reference.name = "__classcell__" ∨
    reference.frame.isNamespace = true ∧ reference.name = "__class__"

/-- What a depth tells of a name. Above zero, it is that of the nearest frame around the
function that binds the name other than as nonlocal; this frame binds it as its own, and of all
frames on the chain, the function itself included, it alone has the depth, functions that fill
namespaces apart. At depth zero, the function declares the name global, or that nearest frame
is the module or declares the name global, or no frame that the name is looked up in binds it,
other than as nonlocal. -/
structure HasDepth (depth : Nat) : Prop where
  above : 0 < depth → ∃ owner, owner? reference.name reference.outer = some owner ∧
    owner.binding? reference.name = some .own ∧ reference.frame.binds reference.name = false ∧
    (reference.frame :: reference.outer).filter
      (fun frame => !frame.isNamespace && frame.depth == depth) = [owner]
  zero : depth = 0 → reference.frame.binding? reference.name = some .global ∨
    (∃ owner, owner? reference.name reference.outer = some owner ∧
      (owner.isFunction = false ∨ owner.binding? reference.name = some .global)) ∨
    (reference.frame.binds reference.name = false ∧
      ∀ frame ∈ reference.outer, frame.isNamespace = true ∨ frame.binds reference.name = false)

variable {reference}

theorem hasDepth_zero_of_global
    (global : reference.frame.binding? reference.name = some .global) : reference.HasDepth 0 where
  above positive := absurd positive (Nat.lt_irrefl 0)
  zero _ := .inl global

theorem hasDepth_depthOf (isChain : IsChain (reference.frame :: reference.outer))
    (unbound : reference.frame.binds reference.name = false) :
    reference.HasDepth (depthOf reference.name (reference.outer.map Frame.level)) := by
  rw [depthOf_eq]
  cases found : owner? reference.name reference.outer with
  | none =>
    refine ⟨fun positive => absurd positive (Nat.lt_irrefl 0),
      fun _ => .inr (.inr ⟨unbound, fun frame member => ?_⟩)⟩
    have passed := List.find?_eq_none.mp found frame member
    cases fills : frame.isNamespace with
    | true => exact .inl rfl
    | false => exact .inr (by simpa [fills] using passed)
  | some owner =>
    have isOwner := List.find?_some found
    have member : owner ∈ reference.frame :: reference.outer :=
      List.mem_cons_of_mem _ (List.mem_of_find?_eq_some found)
    rw [Bool.and_eq_true, Bool.not_eq_true'] at isOwner
    obtain ⟨other, binds⟩ := isOwner
    dsimp only
    split
    case isTrue global =>
      exact ⟨fun positive => absurd positive (Nat.lt_irrefl 0),
        fun _ => .inr (.inl ⟨owner, found, .inr global⟩)⟩
    case isFalse ownBinding =>
      have own : owner.binding? reference.name = some .own := by
        simpa [Frame.binds, ownBinding] using binds
      refine ⟨fun _ => ⟨owner, found, own, unbound, isChain.filter_depth member other⟩,
        fun zero => .inr (.inl ⟨owner, found, .inl ?_⟩)⟩
      cases isFunction : owner.isFunction with
      | false => rfl
      | true => exact absurd zero (Nat.ne_of_gt (isChain.depth_pos member other isFunction))

theorem staysBare_of_isExempt (plain : '@' ∉ reference.name.toList)
    (isFunction : reference.frame.isFunction = true)
    (exempt : (placeOf reference.frame reference.outer).isExempt reference.name = true) :
    reference.StaysBare := by
  have unmarked : reference.name.toList.contains '@' = false := by
    simpa [List.contains_iff_mem] using plain
  simp only [Place.isExempt, unmarked, placeOf, reference.frame.level_kind_eq_moduleFrame,
    reference.frame.level_kind_eq_namespaceFrame, isFunction, Bool.or_eq_true, Bool.and_eq_true,
    decide_eq_true_eq, beq_iff_eq, Bool.false_eq_true, Bool.true_eq_false, or_false,
    false_or] at exempt
  rcases exempt with (reserved | cell) | self
  · exact .inl reserved
  · exact .inr (.inr (.inl cell))
  · exact .inr (.inr (.inr self))

variable (reference) in
/-- How a name in a function is written: bare, if something keeps it so, or else with a depth
that tells of it. -/
def IsWrittenAs (written : String) : Prop :=
  (written = reference.name ∧ reference.StaysBare) ∨
    ∃ depth : Nat, written = reference.name ++ "@" ++ toString depth ∧ reference.HasDepth depth

theorem isWrittenAs_written (isChain : IsChain (reference.frame :: reference.outer))
    (plain : '@' ∉ reference.name.toList) (isFunction : reference.frame.isFunction = true) :
    reference.IsWrittenAs reference.written := by
  have lookup : (placeOf reference.frame reference.outer).here.bindings.lookup reference.name =
    reference.frame.binding? reference.name := rfl
  unfold written Place.address
  split
  case isTrue exempt => exact .inl ⟨rfl, staysBare_of_isExempt plain isFunction exempt⟩
  case isFalse exempt =>
    rw [lookup]
    split
    case h_1 own => exact .inl ⟨rfl, .inr (.inl own)⟩
    case h_2 global =>
      exact .inr ⟨0, by rw [String.append_assoc]; rfl, hasDepth_zero_of_global global⟩
    case h_3 notOwn notGlobal =>
      refine .inr ⟨_, rfl, hasDepth_depthOf isChain ?_⟩
      simpa [Frame.binds] using ⟨notOwn, notGlobal⟩

end Reference

/-- Addresses by depth are unambiguous. In a module without at signs in its names, each
reference in a function is left bare, because its name is reserved, local to the function, or
one of the two that stand for a class, or gets a depth that tells which frame binds its name:
above zero, the one frame with that depth; at zero, the module or none. A function that fills
the namespace of a class is passed over, so what it binds counts for itself only. -/
theorem addressNames_unambiguous (body : List Stmt)
    (plain : ∀ reference ∈ references body, '@' ∉ reference.name.toList) :
    List.Forall₂
      (fun reference written => reference.frame.isFunction = true → reference.IsWrittenAs written)
      (references body) ((references (addressNames body)).map Reference.name) := by
  rw [references_addressNames, List.forall₂_map_right_iff, List.forall₂_same]
  intro reference member isFunction
  have isChain := Stmt.isChain_referencesOfBody body (.ofModule body) reference member
  exact Reference.isWrittenAs_written isChain (plain reference member) isFunction

/-- A method that uses a parameter of the function around its class, and a name that nothing
binds. The namespace of the class has the depth of that function. -/
theorem addressNames_unambiguous_method :
    let method : Stmt := .function [] .unknown ⟨.unknown, "method"⟩ [] none
      [.returns .unknown (some (.tuple .unknown [.ofName "x", .ofName "other"] .unknown))]
    let fill : Stmt := .function [] .unknown ⟨.unknown, "_dp_class_ns_C_1"⟩
      [.mk .normal .unknown (some ⟨.unknown, "_dp_class_ns"⟩) none none] none [method]
    let body : List Stmt := [.function [] .unknown ⟨.unknown, "f"⟩
      [.mk .normal .unknown (some ⟨.unknown, "x"⟩) none none] none [fill]]
    (∀ reference ∈ references body, '@' ∉ reference.name.toList) ∧
      (references (addressNames body)).map Reference.name =
        ["f", "_dp_class_ns_C_1", "method", "x@1", "other@0"] ∧
      List.Forall₂
        (fun reference written => reference.frame.isFunction = true → reference.IsWrittenAs written)
        (references body) ["f", "_dp_class_ns_C_1", "method", "x@1", "other@0"] := by
  intro method fill body
  have plain : ∀ reference ∈ references body, '@' ∉ reference.name.toList := by decide +kernel
  have written : (references (addressNames body)).map Reference.name =
      ["f", "_dp_class_ns_C_1", "method", "x@1", "other@0"] := by decide +kernel
  exact ⟨plain, written, written ▸ addressNames_unambiguous body plain⟩

end Address
end Unsugar
