import Unsugar.Text.Quoted

/-! What a user can choose about a transformation. -/

namespace Unsugar

/-- What becomes of an import of all members of a module. -/
inductive ImportStar where
  | allowed
  | refused
  | stripped
  deriving DecidableEq

namespace ImportStar

def text : ImportStar → String
  | allowed => "allowed"
  | refused => "error"
  | stripped => "strip"

def all : List ImportStar := [allowed, refused, stripped]

def ofText? (text : String) : Option ImportStar :=
  all.find? (·.text == text)

/-- Why a text names no mode. -/
def refusal (text : String) : String :=
  "invalid import-star mode " ++ Text.quoted text ++ " (want allowed, error or strip)"

end ImportStar

structure Options where
  importStar : ImportStar := .allowed
  /-- Bind the support module at the top of the module. -/
  injectImport : Bool := false
  /-- Turn attribute accesses into calls. -/
  lowerAttributes : Bool := false
  /-- Make the conversion of tests to truth values explicit. -/
  truthy : Bool := false
  /-- Lower imports of future features too. -/
  lowerFutureImports : Bool := false
  /-- Delete the generated globals at the end of the module. -/
  cleanupGlobals : Bool := false
  /-- Address names by the depth of the scope that binds them. -/
  explicitScopes : Bool := false
  /-- Check that transforming the result again does not change it. -/
  checkIdempotent : Bool := false

/-- The options of a user who chooses nothing. -/
def Options.standard : Options := { injectImport := true }

end Unsugar
