import Unsugar.Fault
import Unsugar.Scope.Collect

/-! Why a transformation fails. -/

namespace Unsugar

/-- What the transformation refuses to lower. -/
inductive Construct where
  | loneStarredTarget
  | assignmentTo (description : String)
  | severalStarredTargets
  | augmentedAssignmentTo (description : String)
  | deletionOf (description : String)
  | earlyBareHandler
  | importStarFrom (source : String)
  | namedInClassComprehension
  | bindingOf (name : String)

def Construct.text : Construct → String
  | loneStarredTarget => "starred assignment target outside a list or tuple"
  | assignmentTo description => "assignment to " ++ description
  | severalStarredTargets => "multiple starred expressions in assignment"
  | augmentedAssignmentTo description => "augmented assignment to " ++ description
  | deletionOf description => "deletion of " ++ description
  | earlyBareHandler => "bare except clause before the last handler"
  | importStarFrom source => "from " ++ source ++ " import *"
  | namedInClassComprehension => "assignment expression in a comprehension in a class body"
  | bindingOf name => "binding of " ++ name ++ " in this position"

inductive Failure where
  /-- The module cannot be parsed. -/
  | malformed (fault : Fault)
  /-- Declarations of the module contradict each other. -/
  | scopes (first : ScopeError) (rest : List ScopeError)
  | unsupported (position : Position) (construct : Construct)
  /-- Lowering still changed the module in its last permitted pass. -/
  | notConverged (passes : Nat)
  /-- Declarations of a lowered module contradict each other. -/
  | loweredScopes (first : ScopeError)
  | outputMalformed (fault : Fault)
  | outputRefused (reason : Failure)
  /-- Transforming the output changes it. -/
  | notIdempotent

namespace Failure

/-- Whether the transformation itself is to blame. -/
def isInternal : Failure → Bool
  | notConverged _ | loweredScopes _ | outputMalformed _ | outputRefused _ | notIdempotent => true
  | _ => false

def message : Failure → String
  | malformed fault => "syntax error: " ++ fault.message
  | scopes first _ => "syntax error: " ++ first.message
  | unsupported position construct =>
    (if position.isKnown then position.label ++ ": " else "") ++ "unsupported: " ++ construct.text
  | notConverged passes =>
    "internal error: rewriting did not converge after " ++ toString passes ++ " passes"
  | loweredScopes first => "internal error: rewritten module: " ++ first.message
  | outputMalformed fault => "internal error: output does not parse: " ++ fault.message
  | outputRefused reason => "internal error: transforming output: " ++ reason.message
  | notIdempotent => "internal error: transformation is not idempotent (-once +twice):"

end Failure
end Unsugar
