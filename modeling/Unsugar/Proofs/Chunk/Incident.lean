import Mathlib.Data.List.Infix
import Mathlib.Data.List.Nodup
import Unsugar.Chunk

/-! Errors against expectations. The first error on a line meets what is expected there,
whether its message matches or not. So what is reported depends on all errors that
occurred, and nothing is reported exactly if each expectation was met once, by an error
that matches. -/

namespace Unsugar.Chunk

open Text (Pattern)

/-- An error that occurred. -/
structure Incident where
  line : Int
  message : String

/-- What is reported while errors occur one after the other, and when no more do. -/
def reports (chunk : Chunk) : List Incident → List Report
  | [] => chunk.unmet
  | first :: rest =>
    let (chunk, found) := chunk.gotError first.line first.message
    found ++ chunk.reports rest

/-- The lines on which an error is expected. -/
def wantedLines (chunk : Chunk) : List Int :=
  chunk.wanted.map fun entry => (entry.1 : Int)

/-- An error is expected on the line, and no earlier one met the expectation. -/
def Awaits (chunk : Chunk) (earlier : List Incident) (line : Int) : Prop :=
  line ∈ chunk.wantedLines ∧ line ∉ earlier.map Incident.line

instance (chunk : Chunk) (earlier : List Incident) (line : Int) :
    Decidable (chunk.Awaits earlier line) :=
  inferInstanceAs (Decidable (_ ∧ _))

/-- The message matches the pattern of its line. -/
def Matches (chunk : Chunk) (incident : Incident) : Prop :=
  ∀ entry ∈ chunk.wanted, (entry.1 : Int) = incident.line → entry.2.isIn incident.message = true

instance (chunk : Chunk) (incident : Incident) : Decidable (chunk.Matches incident) :=
  inferInstanceAs (Decidable (∀ entry ∈ chunk.wanted, _ → _))

/-- The errors that occurred, each after those before it. -/
def history (incidents : List Incident) : List (List Incident × Incident) :=
  incidents.inits.zip incidents

/-- How many errors occurred on lines without an expectation that was left. -/
def unexpectedCount (chunk : Chunk) (incidents : List Incident) : Nat :=
  (history incidents).countP fun moment => ¬ chunk.Awaits moment.1 moment.2.line

/-- How many errors met an expectation and do not match. -/
def mismatchCount (chunk : Chunk) (incidents : List Incident) : Nat :=
  (history incidents).countP fun moment =>
    chunk.Awaits moment.1 moment.2.line ∧ ¬ chunk.Matches moment.2

/-- How many expectations no error met. -/
def missedCount (chunk : Chunk) (incidents : List Incident) : Nat :=
  chunk.wantedLines.countP (· ∉ incidents.map Incident.line)

/-- A chunk after errors that occurred. -/
def after (chunk : Chunk) (incidents : List Incident) : Chunk :=
  { chunk with
    wanted := chunk.wanted.filter fun entry => (entry.1 : Int) ∉ incidents.map Incident.line
    ordered := chunk.ordered.filter _ }

/-! ## Expected lines -/

theorem nodup_wantedLines (chunk : Chunk) : chunk.wantedLines.Nodup := by
  rw [wantedLines, List.Nodup, List.pairwise_map]
  apply chunk.ordered.imp
  intro earlier later before same
  exact Nat.ne_of_lt before (Int.ofNat.inj same)

theorem eq_of_mem_wanted {chunk : Chunk} {line : Nat} {pattern other : Pattern}
    (member : (line, pattern) ∈ chunk.wanted) (another : (line, other) ∈ chunk.wanted) :
    other = pattern := by
  have same := List.inj_on_of_nodup_map chunk.nodup_wantedLines another member rfl
  exact (Prod.mk.inj same).2

theorem mem_wantedLines {chunk : Chunk} {line : Int} :
    line ∈ chunk.wantedLines ↔ ∃ number pattern, (number, pattern) ∈ chunk.wanted ∧
      (number : Int) = line := by
  rw [wantedLines, List.mem_map]
  constructor
  · rintro ⟨⟨number, pattern⟩, member, same⟩
    exact ⟨number, pattern, member, same⟩
  · rintro ⟨number, pattern, member, same⟩
    exact ⟨(number, pattern), member, same⟩

theorem mem_wanted_after {chunk : Chunk} {incidents : List Incident} {number : Nat}
    {pattern : Pattern} :
    (number, pattern) ∈ (chunk.after incidents).wanted ↔
      (number, pattern) ∈ chunk.wanted ∧ (number : Int) ∉ incidents.map Incident.line := by
  rw [after, List.mem_filter, decide_eq_true_eq]

theorem mem_wantedLines_after {chunk : Chunk} {incidents : List Incident} {line : Int} :
    line ∈ (chunk.after incidents).wantedLines ↔ chunk.Awaits incidents line := by
  rw [Awaits, mem_wantedLines, mem_wantedLines]
  constructor
  · rintro ⟨number, pattern, member, rfl⟩
    obtain ⟨member, unmet⟩ := mem_wanted_after.mp member
    exact ⟨⟨number, pattern, member, rfl⟩, unmet⟩
  · rintro ⟨⟨number, pattern, member, rfl⟩, unmet⟩
    exact ⟨number, pattern, mem_wanted_after.mpr ⟨member, unmet⟩, rfl⟩

@[simp] theorem after_nil (chunk : Chunk) : chunk.after [] = chunk := by
  simp [after]

theorem after_after (chunk : Chunk) (first : Incident) (rest : List Incident) :
    (chunk.after [first]).after rest = chunk.after (first :: rest) := by
  simp only [after, List.filter_filter, Chunk.mk.injEq, true_and]
  apply List.filter_congr
  intro entry _
  simp [Bool.and_comm]

/-! ## One error -/

/-- An error on a line where none is expected. -/
theorem gotError_unexpected {chunk : Chunk} {line : Int} (absent : line ∉ chunk.wantedLines)
    (message : String) :
    chunk.gotError line message =
      (chunk.after [⟨line, message⟩], [⟨chunk.file, line, .unexpected message⟩]) := by
  have others : ∀ entry ∈ chunk.wanted, (entry.1 : Int) ≠ line := by
    intro entry member same
    exact absent (mem_wantedLines.mpr ⟨entry.1, entry.2, member, same⟩)
  have search : chunk.wanted.find? (·.1 == line) = none := by
    simpa using others
  have kept : chunk.wanted.filter
      (fun entry => (entry.1 : Int) ∉ [Incident.mk line message].map Incident.line) =
        chunk.wanted := by
    apply List.filter_eq_self.mpr
    intro entry member
    simpa using others entry member
  have same : chunk.after [⟨line, message⟩] = chunk := by
    simp only [after, kept]
  rw [gotError, search, same]

/-- An error on a line where one is expected. -/
theorem gotError_expected {chunk : Chunk} {number : Nat} {pattern : Pattern}
    (member : (number, pattern) ∈ chunk.wanted) (message : String) :
    chunk.gotError number message =
      (chunk.after [⟨number, message⟩],
        if pattern.isIn message then []
        else [⟨chunk.file, number, .mismatch message pattern⟩]) := by
  have search : chunk.wanted.find? (·.1 == (number : Int)) = some (number, pattern) := by
    cases found : chunk.wanted.find? (·.1 == (number : Int)) with
    | none =>
      rw [List.find?_eq_none] at found
      exact absurd (beq_self_eq_true _) (found _ member)
    | some entry =>
      rcases entry with ⟨line, other⟩
      have same : (line : Int) = number := by simpa using List.find?_some found
      cases Int.ofNat.inj same
      rw [eq_of_mem_wanted member (List.mem_of_find?_eq_some found)]
  have rest : chunk.wanted.filter (·.1 != (number : Int)) =
      chunk.wanted.filter
        (fun entry => (entry.1 : Int) ∉ [Incident.mk number message].map Incident.line) := by
    apply List.filter_congr
    intro entry _
    simp [bne, beq_eq_decide]
  rw [gotError, search]
  simp only [rest, after]
  split
  · rfl
  · rfl

theorem matches_iff {chunk : Chunk} {number : Nat} {pattern : Pattern}
    (member : (number, pattern) ∈ chunk.wanted) (message : String) :
    chunk.Matches ⟨number, message⟩ ↔ pattern.isIn message = true := by
  constructor
  · intro all
    exact all (number, pattern) member rfl
  · rintro found ⟨line, other⟩ another same
    cases Int.ofNat.inj same
    rw [eq_of_mem_wanted member another]
    exact found

/-- The number of reports about an error, by the errors before it. -/
theorem length_gotError (chunk : Chunk) (earlier : List Incident) (incident : Incident) :
    ((chunk.after earlier).gotError incident.line incident.message).2.length =
      (if ¬ chunk.Awaits earlier incident.line then 1 else 0) +
        if chunk.Awaits earlier incident.line ∧ ¬ chunk.Matches incident then 1 else 0 := by
  rcases incident with ⟨line, message⟩
  by_cases awaited : chunk.Awaits earlier line
  · obtain ⟨number, pattern, member, rfl⟩ :=
      mem_wantedLines.mp (mem_wantedLines_after.mpr awaited)
    have matching := matches_iff (mem_wanted_after.mp member).1 message
    have report := gotError_expected member message
    by_cases found : pattern.isIn message = true
    · simp [report, awaited, matching, found]
    · simp [report, awaited, matching, found]
  · have absent : line ∉ (chunk.after earlier).wantedLines := by
      rw [mem_wantedLines_after]
      exact awaited
    simp [gotError_unexpected absent message, awaited]

/-! ## All errors -/

theorem gotError_after (chunk : Chunk) (incident : Incident) :
    (chunk.gotError incident.line incident.message).1 = chunk.after [incident] := by
  rcases incident with ⟨line, message⟩
  by_cases wanted : line ∈ chunk.wantedLines
  · obtain ⟨number, pattern, member, rfl⟩ := mem_wantedLines.mp wanted
    rw [gotError_expected member]
  · rw [gotError_unexpected wanted]

theorem reports_cons (chunk : Chunk) (first : Incident) (rest : List Incident) :
    chunk.reports (first :: rest) =
      (chunk.gotError first.line first.message).2 ++
        (chunk.gotError first.line first.message).1.reports rest := rfl

theorem history_cons (first : Incident) (rest : List Incident) :
    history (first :: rest) =
      ([], first) :: (history rest).map fun moment => (first :: moment.1, moment.2) := by
  rw [history, List.inits_cons, List.zip_cons_cons, List.zip_map_left]
  rfl

theorem forall_mem_history {p : Incident → Prop} {incidents : List Incident} :
    (∀ moment ∈ history incidents, p moment.2) ↔ ∀ incident ∈ incidents, p incident := by
  have incidentsOf : (history incidents).map Prod.snd = incidents := by
    apply List.map_snd_zip
    rw [List.length_inits]
    exact Nat.le_succ _
  have mapped := List.forall_mem_map (l := history incidents) (f := Prod.snd) (P := p)
  rw [incidentsOf] at mapped
  exact mapped.symm

/-- Every error is judged by the errors before it, and at the end by all of them. -/
theorem reports_eq (chunk : Chunk) (incidents : List Incident) :
    chunk.reports incidents =
      ((history incidents).flatMap fun moment =>
        ((chunk.after moment.1).gotError moment.2.line moment.2.message).2) ++
      (chunk.after incidents).unmet := by
  induction incidents generalizing chunk with
  | nil =>
    rw [after_nil]
    rfl
  | cons first rest later =>
    rw [reports_cons, gotError_after, later, after_after, history_cons, List.flatMap_cons,
      List.flatMap_map, after_nil, List.append_assoc]
    simp only [after_after]

theorem length_flatMap_eq {α β : Type} {judge : α → List β} {one other : α → Bool}
    (counted : ∀ value, (judge value).length =
      (if one value then 1 else 0) + if other value then 1 else 0) (values : List α) :
    (values.flatMap judge).length = values.countP one + values.countP other := by
  induction values with
  | nil => rfl
  | cons value rest later =>
    rw [List.flatMap_cons, List.length_append, counted, later, List.countP_cons,
      List.countP_cons]
    omega

theorem length_unmet (chunk : Chunk) (incidents : List Incident) :
    (chunk.after incidents).unmet.length = chunk.missedCount incidents := by
  rw [unmet, List.length_map, missedCount, wantedLines, List.countP_map,
    List.countP_eq_length_filter]
  rfl

/-- Every error is awaited exactly if the errors occur on different lines, on each of which
one is expected. -/
theorem awaited_iff {chunk : Chunk} {incidents : List Incident} :
    (∀ moment ∈ history incidents, chunk.Awaits moment.1 moment.2.line) ↔
      (incidents.map Incident.line).Nodup ∧
        ∀ incident ∈ incidents, incident.line ∈ chunk.wantedLines := by
  induction incidents generalizing chunk with
  | nil => simp [history]
  | cons first rest later =>
    -- The later errors are those of the chunk after the first one.
    have shifted : ∀ moment : List Incident × Incident,
        chunk.Awaits (first :: moment.1) moment.2.line ↔
          (chunk.after [first]).Awaits moment.1 moment.2.line := by
      intro moment
      rw [Awaits, Awaits, mem_wantedLines_after, Awaits]
      simp [and_assoc]
    simp only [history_cons, List.forall_mem_cons, List.forall_mem_map, shifted, later,
      mem_wantedLines_after]
    rw [List.map_cons, List.nodup_cons]
    constructor
    · rintro ⟨here, nodup, awaited⟩
      refine ⟨⟨?_, nodup⟩, here.1, fun incident member => (awaited incident member).1⟩
      intro again
      obtain ⟨incident, member, same⟩ := List.mem_map.mp again
      exact (awaited incident member).2 (List.mem_singleton.mpr same)
    · rintro ⟨⟨single, nodup⟩, here, wanted⟩
      refine ⟨⟨here, List.not_mem_nil⟩, nodup, ?_⟩
      intro incident member
      refine ⟨wanted incident member, ?_⟩
      intro same
      apply single
      rw [← List.mem_singleton.mp same]
      exact List.mem_map_of_mem member

/-- The errors occur on the lines where one is expected, once on each, exactly if each is
awaited and no expectation is left. -/
theorem perm_wantedLines_iff {chunk : Chunk} {incidents : List Incident} :
    (incidents.map Incident.line).Perm chunk.wantedLines ↔
      (∀ moment ∈ history incidents, chunk.Awaits moment.1 moment.2.line) ∧
        ∀ line ∈ chunk.wantedLines, line ∈ incidents.map Incident.line := by
  rw [awaited_iff, ← List.forall_mem_map (P := (· ∈ chunk.wantedLines))]
  constructor
  · intro same
    exact ⟨⟨same.nodup_iff.mpr chunk.nodup_wantedLines, fun line => same.mem_iff.mp⟩,
      fun line => same.mem_iff.mpr⟩
  · rintro ⟨⟨nodup, wanted⟩, met⟩
    rw [List.perm_ext_iff_of_nodup nodup chunk.nodup_wantedLines]
    intro line
    exact ⟨wanted line, met line⟩

/-- The reports are as many as the errors on lines without an expectation that is left, the
errors that do not match and the expectations that no error met. -/
theorem length_reports (chunk : Chunk) (incidents : List Incident) :
    (chunk.reports incidents).length = chunk.unexpectedCount incidents +
      chunk.mismatchCount incidents + chunk.missedCount incidents := by
  rw [reports_eq, List.length_append, length_unmet]
  congr 1
  apply length_flatMap_eq
  intro moment
  simp only [decide_eq_true_eq]
  exact chunk.length_gotError moment.1 moment.2

/-- Nothing is reported exactly if the errors occur on the lines where one is expected, once
on each, and match what is expected there. In any case the reports are as many as the errors
on lines without an expectation that is left, the errors that do not match and the
expectations that no error met. -/
theorem reports_judge_incidents (chunk : Chunk) (incidents : List Incident) :
    (chunk.reports incidents = [] ↔
      (incidents.map Incident.line).Perm chunk.wantedLines ∧
        ∀ incident ∈ incidents, chunk.Matches incident) ∧
    (chunk.reports incidents).length = chunk.unexpectedCount incidents +
      chunk.mismatchCount incidents + chunk.missedCount incidents := by
  refine ⟨?_, chunk.length_reports incidents⟩
  rw [← List.length_eq_zero_iff, length_reports, Nat.add_eq_zero_iff, Nat.add_eq_zero_iff,
    unexpectedCount, mismatchCount, missedCount, List.countP_eq_zero, List.countP_eq_zero,
    List.countP_eq_zero, perm_wantedLines_iff, ← forall_mem_history]
  simp only [decide_eq_true_eq, not_not, not_and]
  constructor
  · rintro ⟨⟨awaited, fits⟩, met⟩
    exact ⟨⟨awaited, met⟩, fun moment member => fits moment member (awaited moment member)⟩
  · rintro ⟨⟨awaited, met⟩, fits⟩
    exact ⟨⟨awaited, fun moment member _ => fits moment member⟩, met⟩

/-- An error that does not match, and an expectation that no error met. -/
example :
    ((ofText Pattern.plain "f" 1 "a ### 'p'\nb\nc ### 'q'\n".toList).reports
      [⟨1, "x"⟩]).map Report.text =
      ["\nf:1: error \"x\" does not match pattern \"p\"", "\nf:3: expected error matching \"q\""] := by
  decide +kernel

end Unsugar.Chunk
