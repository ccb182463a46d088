import Unsugar.Failure

/-! The record that a transformation keeps of its steps. The record of a
transformation that fails ends where it failed. -/

namespace Unsugar

/-- The forms of statements that have a lowering rule. -/
inductive Rule where
  | assign
  | augAssign
  | annAssign
  | delete
  | raises
  | asserts
  | imports
  | importFrom
  | whileLoop
  | forLoop
  | tryBlock
  | withBlock
  deriving DecidableEq

/-- What happens to the statements that a rule makes. -/
inductive Outcome where
  /-- Only their parts are lowered. -/
  | walk
  /-- They are lowered from scratch. -/
  | visit
  deriving DecidableEq

def Outcome.text : Outcome → String
  | walk => "walk"
  | visit => "visit"

inductive Phase where
  | annotations (file : String)
  | stage1
  | stage2
  | explicitScopes
  | closures
  | idempotenceCheck

inductive Step where
  | disabled (file : String)
  | phase (phase : Phase)
  | annotations (deferred : Bool)
  /-- A rule applied to a statement; `node` counts such statements. -/
  | applied (rule : Rule) (outcome : Outcome) (node line : Nat)
  | pass (number : Nat) (modified : Bool)
  | renamedFunction (name qualname fresh : String)
  | madeClass (name qualname body : String) (hasCell : Bool)
  | explicitScopes
  | done (passes fresh : Nat)

/-- Computations that may fail and that record their steps, the last step first. -/
abbrev Traced := ExceptT Failure (StateM (List Step))

def Traced.note (step : Step) : Traced Unit :=
  modify (step :: ·)

end Unsugar
