import Unsugar.Scope.Tree
import Unsugar.Tree.Visitor

/-! Going through a module together with its scopes. The scopes of the definitions
still ahead in a body are kept in order, so each definition finds its own scope
in front. -/

namespace Unsugar

/-- A body and its scope. -/
structure Opened where
  scope : Scope
  outer : Enclosing
  /-- The scopes of the definitions that follow this one in the body around it. -/
  later : List Scope

/-- Computations that go through a body; the state is the scopes of the
definitions still ahead in it. -/
abbrev Descent (m : Type → Type) := StateT (List Scope) m

namespace Opened

def info (opened : Opened) : ScopeInfo :=
  opened.scope.info

/-- The body of a module. -/
def ofModule (scope : Scope) : Opened := ⟨scope, [], []⟩

/-- The scopes around the definitions in a body. -/
def enclosing (opened : Opened) : Enclosing :=
  opened.info :: opened.outer

end Opened

namespace Descent

variable {m : Type → Type} [Monad m]

/-- Enters the definition that comes next. -/
def enter (around : Opened) : Descent m Opened := do
  match ← get with
  | [] => return ⟨around.scope, around.enclosing, []⟩
  | scope :: later =>
    set scope.children
    return ⟨scope, around.enclosing, later⟩

/-- Leaves a definition. -/
def leave (opened : Opened) : Descent m Unit :=
  set opened.later

/-- Goes through a module whose scopes are known. -/
def run {α : Type} (scope : Scope) (descent : Opened → Descent m α) : m α := do
  let (result, _) ← StateT.run (descent (.ofModule scope)) scope.children
  return result

end Descent
end Unsugar
