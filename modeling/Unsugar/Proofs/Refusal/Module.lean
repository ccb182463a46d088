import Unsugar.Desugar
import Unsugar.Proofs.Definition.Lookup
import Unsugar.Proofs.Grammar.Statement
import Unsugar.Proofs.Lowering.Passes
import Unsugar.Proofs.Refusal.Hints
import Unsugar.Proofs.Refusal.Private
import Unsugar.Proofs.Refusal.Statement

/-! Which modules are refused. Only lowering refuses anything: once a module is lowered,
what may still fail is internal to the transformation. So the findings of a module decide
whether it is refused. -/

namespace Unsugar

variable {α β : Type}

theorem Desugar.Gives.ends {allowed : Failure → Prop} {holds : α → Prop} {action : Desugar α}
    (given : Gives allowed holds action) (context : Context) :
    Traced.Ends allowed (fun (value, _) => holds value) (action.run context) := by
  intro steps
  have ended := given context steps
  revert ended
  simp only [StateT.run]
  rcases (action context steps).1 with failure | ⟨value, after⟩ <;> intro ended
  · exact ended
  · exact ended.1

/-! ## Lowering -/

namespace Lowering

/-- Lowering a module ends as the first pass over it does. -/
theorem lowerModule_ends {allowed : Failure → Prop} {holds : List Stmt → Prop}
    {options : Options} {source body : List Stmt}
    (first : Desugar.Gives allowed holds (lowerBody ⟨options, .moduleFrame⟩ body)) :
    Traced.Ends allowed (fun (result, _) => holds result)
      ((lowerModule options body).run (.ofModule source)) := by
  intro steps
  have unfolded : lowerModule options body (.ofModule source) steps =
      lowerUntilDone options (7 + 1) body (.ofModule source) steps := rfl
  have ended := first (nextPass (.ofModule source)) steps
  have makes := lowerBody_reaches options body (nextPass (.ofModule source)) steps
  simp only [StateT.run, unfolded]
  rw [lowerUntilDone_succ]
  revert ended makes
  rcases lowerBody ⟨options, .moduleFrame⟩ body (nextPass (.ofModule source)) steps with
    ⟨failure | ⟨result, found⟩, later⟩ <;> intro ended makes
  · exact ended
  · -- No rule applies in a second pass, so it gives the module back.
    have lowered : Stmt.areLowered ⟨options, true⟩ result = true := Stmt.areLowered_iff.mpr makes.1
    cases modified : found.modified with
    | true =>
      simp only [modified, if_true, lowerUntilDone_of_areLowered lowered]
      exact ended.1
    | false =>
      simp only [modified]
      exact ended.1

/-- Lowering a module decides whether it is refused, and what it gives is plain. -/
theorem lowerModule_refuses {body : List Stmt} (valid : Stmt.areWellFormed body = true)
    (options : Options) :
    Traced.Ends (·.Reports (Stmt.moduleFindings options body))
      (fun (result, _) => Finding.AreOpen (Stmt.moduleFindings options body) ∧
        Stmt.arePlain Stmt.lowered result = true)
      ((lowerModule options (manglePrivate (takeHints body).2)).run (.ofModule body)) := by
  obtain ⟨takenValid, within⟩ := takeHints_taken valid options
  have refuses := lowerBody_refuses ⟨options, .moduleFrame⟩ (manglePrivate (takeHints body).2)
    ((areWellFormed_manglePrivate _).trans takenValid)
  rw [findingsOfBody_manglePrivate] at refuses
  have makes : MakesBody ⟨options, false⟩
      (lowerBody ⟨options, .moduleFrame⟩ (manglePrivate (takeHints body).2)) :=
    lowerBody_makes ⟨options, .moduleFrame⟩ rfl _ (manglePrivate_takeHints_fits body)
  refine (lowerModule_ends ((refuses.widen within).and makes)).mono (fun _ => id) ?_
  rintro ⟨result, context⟩ ⟨isOpen, lowered⟩
  exact ⟨isOpen, Stmt.arePlain_of_areLowered rfl result (Stmt.areLowered_iff.mpr lowered)⟩

end Lowering

/-! ## Modules -/

/-- A failure that reports a finding, or that is no refusal where all findings are open. -/
def Failure.Fits (found : List Finding) (failure : Failure) : Prop :=
  failure.Reports found ∨ ¬ failure.IsRefusal ∧ Finding.AreOpen found

theorem Desugar.module_ends {body : List Stmt} (valid : Stmt.areWellFormed body = true)
    (options : Options) (file : String) :
    Traced.Ends (·.Fits (Stmt.moduleFindings options body))
      (fun _ => Finding.AreOpen (Stmt.moduleFindings options body))
      ((Desugar.module options file body).run (.ofModule body)) := by
  have ended : Traced.Ends (·.Fits (Stmt.moduleFindings options body))
      (fun _ => Finding.AreOpen (Stmt.moduleFindings options body))
      ((Lowering.lowerModule options (manglePrivate (takeHints body).2) >>=
        complete options).run (.ofModule body)) := by
    have user : isReserved "x" = false := rfl
    rw [StateT.run_bind]
    refine ((Lowering.lowerModule_refuses valid options).mono (fun _ => .inl) fun _ => id).bind ?_
    rintro ⟨lowered, context⟩ ⟨isOpen, plain⟩
    exact ((complete_gives user options plain).ends context).mono
      (fun _ unrefused => .inr ⟨unrefused, isOpen⟩) fun _ _ => isOpen
  exact fun steps => ended
    (.phase .stage1 :: .annotations (takeHints body).1 :: .phase (.annotations file) :: steps)

namespace Result

theorem checkStable_ends (options : Options) (file : String) (body : List Stmt) :
    Traced.Ends (¬ ·.IsRefusal) (fun _ => True) (checkStable options file body) := by
  simp only [checkStable]
  refine (Traced.Ends.note _).bind fun _ _ => ?_
  split
  · exact .throw id
  · refine (Traced.Ends.tryCatch fun _ => id).bind fun twice _ => ?_
    split
    · exact .throw id
    · exact .pure trivial

theorem ofCheckedModule_ends {body : List Stmt} (valid : Stmt.areWellFormed body = true)
    (options : Options) (file : String) {source : List UInt8} (enabled : isDisabled source = false)
    (accepted : (Scope.ofModule body).errors [] = []) :
    Traced.Ends (·.Fits (Stmt.moduleFindings options body))
      (fun _ => Finding.AreOpen (Stmt.moduleFindings options body))
      (ofCheckedModule options file source body) := by
  simp only [ofCheckedModule, make, enabled, accepted, Bool.false_eq_true, if_false]
  refine (Desugar.module_ends valid options file).bind fun (result, context) isOpen => ?_
  have stable : Traced.Ends (·.Fits (Stmt.moduleFindings options body)) (fun _ => True)
      (checkStable options file result) :=
    (checkStable_ends options file result).mono (fun _ unrefused => .inr ⟨unrefused, isOpen⟩)
      fun _ => id
  have checked : Traced.Ends (·.Fits (Stmt.moduleFindings options body)) (fun _ => True)
      (if (options.checkIdempotent && !options.explicitScopes) = true then
        checkStable options file result else return) := by
    split
    · exact stable
    · exact .pure trivial
  exact checked.bind fun _ _ => (Traced.Ends.note _).bind fun _ _ => .pure isOpen

end Result

/-- A module that parses, is not disabled and has no scope errors is refused if one of its
findings is certain, and only for the reason of one of its findings. -/
theorem desugar_refuses_findings (options : Options) (file : String) (source : List UInt8)
    (steps : List Step) (body : List Stmt) (read : parseModule file (Text.decode source) = .ok body)
    (enabled : isDisabled source = false) (accepted : (Scope.ofModule body).errors [] = []) :
    ((∃ finding ∈ Stmt.moduleFindings options body, finding.certain = true) →
      ∃ position construct,
        (desugar options file source steps).1 = .error (.unsupported position construct)) ∧
    ∀ position construct,
      (desugar options file source steps).1 = .error (.unsupported position construct) →
      ∃ finding ∈ Stmt.moduleFindings options body, construct.reason? = some finding.reason := by
  have ended : Traced.Ends (·.Fits (Stmt.moduleFindings options body))
      (fun _ => Finding.AreOpen (Stmt.moduleFindings options body))
      (desugar options file source) := by
    rw [desugar, read]
    exact Result.ofCheckedModule_ends (parseModule_wellFormed read) options file enabled accepted
  have outcome := ended steps
  constructor
  · rintro ⟨finding, member, certain⟩
    have notOpen : ¬ Finding.AreOpen (Stmt.moduleFindings options body) := fun isOpen =>
      absurd (isOpen finding member) (by simp [certain])
    revert outcome
    rcases (desugar options file source steps).1 with failure | result <;> intro outcome
    · obtain ⟨position, construct, rfl, _⟩ | ⟨_, isOpen⟩ := outcome
      · exact ⟨position, construct, rfl⟩
      · exact (notOpen isOpen).elim
    · exact (notOpen outcome).elim
  · intro position construct refused
    rw [refused] at outcome
    obtain ⟨_, _, equal, reported⟩ | ⟨unrefused, _⟩ := outcome
    · cases equal
      exact reported
    · exact (unrefused trivial).elim

/-! ## Sources -/

/-- Whether a source is a module without scope errors that has a property and is not
disabled. -/
def isModule (source : List UInt8) (holds : List Stmt → Bool) : Bool :=
  match parseModule "m.py" (Text.decode source) with
  | .error _ => false
  | .ok body => !isDisabled source && ((Scope.ofModule body).errors []).isEmpty && holds body

theorem isModule_iff {source : List UInt8} {holds : List Stmt → Bool} :
    isModule source holds = true ↔ ∃ body, parseModule "m.py" (Text.decode source) = .ok body ∧
      isDisabled source = false ∧ (Scope.ofModule body).errors [] = [] ∧ holds body = true := by
  unfold isModule
  cases parseModule "m.py" (Text.decode source) with
  | error fault => simp
  | ok body => simp [and_assoc]

/-- A module with a finding for each reason. -/
def threeReasons : List UInt8 :=
  Text.toBytes "*a = b\nclass C:\n    x = [v := u for u in w]\nfrom m import *\n"

/-- Options with which an import of all members is refused. -/
def Options.refusingStars : Options :=
  { importStar := .refused }

theorem threeReasons_refused : ∃ body,
    parseModule "m.py" (Text.decode threeReasons) = .ok body ∧
    Stmt.moduleFindings .refusingStars body =
      [⟨.loneStar, true⟩, ⟨.namedInClass, true⟩, ⟨.starImport, true⟩] ∧
    ∃ position construct,
      (desugar .refusingStars "m.py" threeReasons []).1 =
        .error (.unsupported position construct) := by
  have isModule : isModule threeReasons (fun body => Stmt.moduleFindings .refusingStars body =
      [⟨.loneStar, true⟩, ⟨.namedInClass, true⟩, ⟨.starImport, true⟩]) = true := by
    decide +kernel
  obtain ⟨body, read, enabled, accepted, holds⟩ := isModule_iff.mp isModule
  have found := of_decide_eq_true holds
  refine ⟨body, read, found, ?_⟩
  refine (desugar_refuses_findings .refusingStars "m.py" threeReasons [] body read enabled
    accepted).1 ⟨⟨.loneStar, true⟩, ?_, rfl⟩
  simp [found]

/-- Whether the target of the first loop of a comprehension is starred. -/
def Expr.startsWithStar : Expr → Bool
  | .comprehension _ _ _ (.loop _ (.starred ..) _ :: _) _ => true
  | _ => false

/-- Whether a function has a parameter whose hint starts with a starred target. -/
def Stmt.hintsAtStar : Stmt → Bool
  | .function _ _ _ params _ _ => params.any (·.hint.any Expr.startsWithStar)
  | _ => false

/-- A function with a starred target in the hint of its parameter. -/
def starredHint : List UInt8 :=
  Text.toBytes "def f(a: [0 for *x in y]): pass\n"

/-- Not all that a module holds is refused: a hint that is dropped may bind a starred
target. -/
theorem starredHint_accepted :
    (∃ body, parseModule "m.py" (Text.decode starredHint) = .ok body ∧
      isDisabled starredHint = false ∧ (Scope.ofModule body).errors [] = [] ∧
      body.any Stmt.hintsAtStar = true) ∧
    (desugar .standard "m.py" starredHint []).1.isOk = true :=
  ⟨isModule_iff.mp (by decide +kernel), by decide +kernel⟩

end Unsugar
