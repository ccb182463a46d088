import Unsugar.Proofs.Outcome
import Unsugar.Proofs.Refusal.Finding

/-! How computations with known findings end. Such a computation fails if one of its
findings is certain, and then for the reason of one of them. For lowering that takes the
statements into account that are set aside: a finding may come to light only when they are
run. -/

namespace Unsugar

variable {α β : Type}

/-- A failure that refuses a construct for the reason of a finding. -/
def Failure.Reports (found : List Finding) (failure : Failure) : Prop :=
  ∃ position construct, failure = .unsupported position construct ∧
    ∃ finding ∈ found, construct.reason? = some finding.reason

theorem Failure.Reports.mono {found more : List Finding} {failure : Failure}
    (reports : failure.Reports found) (kept : found ⊆ more) : failure.Reports more := by
  obtain ⟨position, construct, refused, finding, member, reason⟩ := reports
  exact ⟨position, construct, refused, finding, kept member, reason⟩

/-- Whether findings are all left open. -/
def Finding.AreOpen (found : List Finding) : Prop :=
  ∀ finding ∈ found, finding.certain = false

theorem Finding.areOpen_nil : AreOpen [] := by
  simp [AreOpen]

theorem Finding.areOpen_append {first second : List Finding} :
    AreOpen (first ++ second) ↔ AreOpen first ∧ AreOpen second := by
  simp [AreOpen, or_imp, forall_and]

/-- Findings that are among others, and leave out only what is open. -/
structure Finding.Within (fewer found : List Finding) : Prop where
  kept : fewer ⊆ found
  certain : ∀ finding ∈ found, finding.certain = true → finding ∈ fewer

namespace Finding.Within

theorem of_mem_iff {fewer found : List Finding}
    (same : ∀ finding, finding ∈ fewer ↔ finding ∈ found) : Within fewer found :=
  ⟨fun finding member => (same finding).mp member, fun finding member _ => (same finding).mpr member⟩

theorem areOpen {fewer found : List Finding} (within : Within fewer found)
    (isOpen : AreOpen fewer) : AreOpen found := by
  intro finding member
  cases certain : finding.certain with
  | false => rfl
  | true => exact certain.symm.trans (isOpen finding (within.certain finding member certain))

end Finding.Within

namespace Desugar

theorem Gives.and {allowed other : Failure → Prop} {holds known : α → Prop}
    {action : Desugar α} (given : Gives allowed holds action) (also : Gives other known action) :
    Gives allowed (fun value => holds value ∧ known value) action := by
  intro context steps
  have ended := given context steps
  have endedToo := also context steps
  revert ended endedToo
  rcases (action context steps).1 with failure | ⟨value, after⟩ <;> intro ended endedToo
  · exact ended
  · exact ⟨⟨ended.1, endedToo.1⟩, ended.2⟩

/-- A computation fails if a finding is certain, and only for the reason of a finding. -/
def Refuses (found : List Finding) (action : Desugar α) : Prop :=
  Gives (·.Reports found) (fun _ => Finding.AreOpen found) action

namespace Refuses

variable {found later : List Finding} {action : Desugar α} {next : α → Desugar β}

theorem pure {value : α} : Refuses [] (Pure.pure value : Desugar α) :=
  Gives.pure Finding.areOpen_nil

theorem refuse {position : Position} {construct : Construct} {finding : Finding}
    (member : finding ∈ found) (reason : construct.reason? = some finding.reason) :
    Refuses found (Desugar.refuse position construct : Desugar α) :=
  fun _ _ => ⟨position, construct, rfl, finding, member, reason⟩

theorem widen {fewer : List Finding} (given : Refuses fewer action)
    (within : Finding.Within fewer found) : Refuses found action :=
  (given.allow fun _ reports => reports.mono within.kept).imp fun _ => within.areOpen

theorem bind (first : Refuses found action) (rest : ∀ value, Refuses later (next value)) :
    Refuses (found ++ later) (action >>= next) := by
  refine (first.allow fun _ reports => reports.mono (List.subset_append_left ..)).bind
    fun value isOpen => ?_
  exact ((rest value).allow fun _ reports => reports.mono (List.subset_append_right ..)).imp
    fun _ laterOpen => Finding.areOpen_append.mpr ⟨isOpen, laterOpen⟩

/-- A computation that nothing follows that could fail. -/
theorem last (first : Refuses found action) (rest : ∀ value, Refuses [] (next value)) :
    Refuses found (action >>= next) := by
  simpa using first.bind rest

/-- A computation after one that cannot fail. -/
theorem after {holds : α → Prop} (first : Gives (fun _ => False) holds action)
    (rest : ∀ value, holds value → Refuses later (next value)) : Refuses later (action >>= next) :=
  first.anyway.bind fun value valid => rest value valid

theorem fresh {base : String} {next : String → Desugar β} (rest : ∀ name, Refuses later (next name)) :
    Refuses later (Desugar.fresh base >>= next) :=
  after (Gives.fresh base) fun name _ => rest name

theorem apply {rule : Rule} {outcome : Outcome} {position : Position} {next : Unit → Desugar β}
    (rest : Refuses later (next ())) : Refuses later (Desugar.apply rule outcome position >>= next) :=
  after (Gives.apply rule outcome position) fun _ _ => rest

theorem known {value : α} (rest : Refuses later (next value)) :
    Refuses later (Pure.pure value >>= next) := by
  rw [pure_bind]
  exact rest

theorem ite {condition : Prop} [Decidable condition] {whenTrue whenFalse : Desugar α}
    (trueRefuses : Refuses found whenTrue) (falseRefuses : Refuses found whenFalse) :
    Refuses found (if condition then whenTrue else whenFalse) := by
  split
  · exact trueRefuses
  · exact falseRefuses

end Refuses
end Desugar

/-! ## Statements that are set aside -/

theorem Deferred.runAll_refuses_append {found later : List Finding} {first second : List Deferred}
    (firstRefuses : Desugar.Refuses found (runAll first))
    (secondRefuses : Desugar.Refuses later (runAll second)) :
    Desugar.Refuses (found ++ later) (runAll (first ++ second)) := by
  rw [runAll_append]
  exact firstRefuses.bind fun _ => secondRefuses.last fun _ => .pure

namespace Lowering

/-- Lowering never fails, sets nothing aside, and gives a value with a property. -/
def Quiet (holds : α → Prop) (build : Lowering α) : Prop :=
  ∀ ahead, Desugar.Gives (fun _ => False) (fun (value, after) => holds value ∧ after = ahead)
    (build.run ahead)

namespace Quiet

variable {holds : α → Prop} {result : β → Prop}

theorem pure {value : α} (valid : holds value) : Quiet holds (Pure.pure value : Lowering α) :=
  fun _ => .pure ⟨valid, rfl⟩

theorem bind {build : Lowering α} {next : α → Lowering β} (first : Quiet holds build)
    (rest : ∀ value, holds value → Quiet result (next value)) : Quiet result (build >>= next) := by
  intro ahead
  rw [StateT.run_bind]
  refine (first ahead).bind fun (value, after) ended => ?_
  obtain ⟨valid, rfl⟩ := ended
  exact rest value valid _

theorem lift {action : Desugar α} (given : Desugar.Gives (fun _ => False) holds action) :
    Quiet holds (liftM action : Lowering α) := by
  intro ahead
  change Desugar.Gives _ _ (action >>= fun value => Pure.pure (value, ahead))
  exact given.bind fun value valid => .pure ⟨valid, rfl⟩

theorem touch : Quiet (fun _ => True) Lowering.touch :=
  .lift .touch

theorem fresh (base : String) : Quiet (fun _ => True) (Lowering.fresh base) :=
  .lift ((Desugar.Gives.fresh base).imp fun _ _ => trivial)

end Quiet

/-- Lowering, together with the statements that it sets aside, fails if a finding is
certain, and only for the reason of a finding. -/
def Refuses (found : List Finding) (build : Lowering α) : Prop :=
  ∀ ahead, Desugar.Gives (·.Reports found)
    (fun (_, after) => ∃ added, after = ahead ++ added ∧
      Desugar.Refuses found (Deferred.runAll added)) (build.run ahead)

namespace Refuses

variable {found later : List Finding} {build : Lowering α} {next : α → Lowering β}

theorem pure {value : α} : Refuses [] (Pure.pure value : Lowering α) :=
  fun _ => .pure ⟨[], by simp, Desugar.Refuses.pure⟩

theorem widen {fewer : List Finding} (given : Refuses fewer build)
    (within : Finding.Within fewer found) : Refuses found build := by
  intro ahead
  refine ((given ahead).allow fun _ reports => reports.mono within.kept).imp ?_
  rintro _ ⟨added, equal, refuses⟩
  exact ⟨added, equal, refuses.widen within⟩

theorem bind (first : Refuses found build) (rest : ∀ value, Refuses later (next value)) :
    Refuses (found ++ later) (build >>= next) := by
  intro ahead
  rw [StateT.run_bind]
  refine ((first ahead).allow fun _ reports => reports.mono (List.subset_append_left ..)).bind ?_
  rintro ⟨value, _⟩ ⟨added, rfl, refuses⟩
  refine ((rest value (ahead ++ added)).allow
    fun _ reports => reports.mono (List.subset_append_right ..)).imp ?_
  rintro ⟨value, _⟩ ⟨more, rfl, moreRefuses⟩
  exact ⟨added ++ more, by simp, Deferred.runAll_refuses_append refuses moreRefuses⟩

/-- Lowering that nothing follows that could fail. -/
theorem last (first : Refuses found build) (rest : ∀ value, Refuses [] (next value)) :
    Refuses found (build >>= next) := by
  simpa using first.bind rest

/-- Lowering after a step that does nothing of the kind. -/
theorem after {holds : α → Prop} (first : Quiet holds build)
    (rest : ∀ value, holds value → Refuses later (next value)) : Refuses later (build >>= next) := by
  intro ahead
  rw [StateT.run_bind]
  refine (first ahead).anyway.bind ?_
  rintro ⟨value, _⟩ ⟨valid, rfl⟩
  exact rest value valid _

theorem touch {next : Unit → Lowering β} (rest : Refuses later (next ())) :
    Refuses later (Lowering.touch >>= next) :=
  after .touch fun _ _ => rest

theorem fresh {base : String} {next : String → Lowering β} (rest : ∀ name, Refuses later (next name)) :
    Refuses later (Lowering.fresh base >>= next) :=
  after (.fresh base) fun name _ => rest name

theorem known {value : α} (rest : Refuses later (next value)) :
    Refuses later (Pure.pure value >>= next) := by
  rw [pure_bind]
  exact rest

theorem ite {condition : Prop} [Decidable condition] {whenTrue whenFalse : Lowering α}
    (trueRefuses : Refuses found whenTrue) (falseRefuses : Refuses found whenFalse) :
    Refuses found (if condition then whenTrue else whenFalse) := by
  split
  · exact trueRefuses
  · exact falseRefuses

/-- A step of the transformation sets nothing aside. -/
theorem lift {action : Desugar α} (given : Desugar.Refuses found action) :
    Refuses found (liftM action : Lowering α) := by
  intro ahead
  change Desugar.Gives _ _ (action >>= fun value => Pure.pure (value, ahead))
  refine Desugar.Gives.bind given fun value isOpen => .pure ⟨[], by simp, ?_⟩
  exact Desugar.Gives.pure isOpen

/-- What is set aside is run later. -/
theorem set {statements : List Deferred} (given : Desugar.Refuses found (Deferred.runAll statements)) :
    Refuses found (modify (· ++ statements) : Lowering Unit) :=
  fun _ => Desugar.Gives.pure ⟨statements, rfl, given⟩

theorem emit {statements : Deferred} (given : Desugar.Refuses found statements) :
    Refuses found (Lowering.emit statements) :=
  set (by rwa [Deferred.runAll_singleton])

/-- What lowering sets aside may be kept from what was set aside before. -/
theorem detached {next : α × List Deferred → Lowering β} (first : Refuses found build)
    (rest : ∀ value ahead, Desugar.Refuses found (Deferred.runAll ahead) →
      Refuses (found ++ later) (next (value, ahead))) :
    Refuses (found ++ later) (StateT.lift (build.run []) >>= next) := by
  intro ahead
  rw [StateT.run_bind]
  change Desugar.Gives _ _ ((build.run [] >>= fun value => Pure.pure (value, ahead)) >>= _)
  rw [bind_assoc]
  refine ((first []).allow fun _ reports => reports.mono (List.subset_append_left ..)).bind ?_
  rintro ⟨value, added⟩ ⟨_, rfl, refuses⟩
  rw [pure_bind]
  exact rest value _ refuses ahead

theorem flush {build : Lowering Stmt} (given : Refuses found build) :
    Desugar.Refuses found (Lowering.flush build) := by
  refine Desugar.Gives.bind (given []) ?_
  rintro ⟨stmt, _⟩ ⟨added, rfl, refuses⟩
  exact refuses.last fun _ => .pure

theorem storing {name : String} {value : Lowering Expr} (given : Refuses found value) :
    Desugar.Refuses found (Lowering.storing name value) :=
  flush (given.last fun _ => .pure)

end Refuses
end Lowering
end Unsugar
