import Unsugar.Address
import Unsugar.Closure
import Unsugar.Disabled
import Unsugar.Finish
import Unsugar.Grammar.Source
import Unsugar.Hints
import Unsugar.Lowering.Statement
import Unsugar.Renumber
import Unsugar.Scope.Private

/-! The whole transformation of a module. Hints are taken out and private names
renamed, statements and expressions are lowered, definitions are made explicit,
and then names: by cells and globals, or by depth. -/

namespace Unsugar

/-- A transformed module. -/
structure Result where
  body : List Stmt
  /-- The generated functions and who they are. -/
  functions : List (String × FunctionName)
  /-- Whether the module was left as it is. -/
  disabled : Bool

namespace Desugar

/-- The scopes of a module that is being transformed. -/
def scopes (body : List Stmt) : Desugar Scope := do
  let scope := Scope.ofModule body
  match scope.errors [] with
  | [] => return scope
  | first :: _ => throw (.loweredScopes first)

/-- Resolves the names of a module whose definitions are explicit. -/
def resolveNames (options : Options) (body : List Stmt) : Desugar (List Stmt) := do
  if options.explicitScopes then
    note (.phase .explicitScopes)
    let body := addressNames body
    note .explicitScopes
    return body
  else
    note (.phase .closures)
    resolveClosures (← scopes body) body

/-- The last changes, as far as the options ask for them. -/
def finish (options : Options) (body : List Stmt) : List Stmt :=
  let body := stripPasses body
  let body := if options.truthy then makeTestsExplicit body else body
  let body := if options.cleanupGlobals then cleanUpGlobals body else body
  if options.injectImport then bindSupport body else body

/-- Transforms a module; nothing is checked afterwards. -/
def module (options : Options) (file : String) (body : List Stmt) : Desugar (List Stmt) := do
  note (.phase (.annotations file))
  let (asText, body) := takeHints body
  note (.annotations asText)
  note (.phase .stage1)
  let body ← Lowering.lowerModule options (manglePrivate body)
  note (.phase .stage2)
  let scope ← scopes body
  let body ← renameFunctions scope body
  let body ← expandClasses scope body
  return finish options (← resolveNames options body)

end Desugar

namespace Result

/-- Transforms a module, followed by a check of the result. -/
def make (options : Options) (file : String) (source : List UInt8)
    (check : List Stmt → Traced Unit) (body : List Stmt) : Traced Result := do
  if isDisabled source then
    Traced.note (.disabled file)
    return ⟨body, [], true⟩
  match (Scope.ofModule body).errors [] with
  | first :: rest => throw (.scopes first rest)
  | [] =>
    let (body, context) ← (Desugar.module options file body).run (.ofModule body)
    check body
    Traced.note (.done context.passes context.counter)
    return ⟨body, context.functions, false⟩

/-- Transforms a module. -/
def ofModule (options : Options) (file : String) (source : List UInt8) (body : List Stmt) :
    Traced Result :=
  make options file source (fun _ => return) body

/-- Checks that transforming the printed result again gives the same text, up to
the numbers of generated names. -/
def checkStable (options : Options) (file : String) (body : List Stmt) : Traced Unit := do
  Traced.note (.phase .idempotenceCheck)
  let text := printModule body
  match parseModule file text.toList with
  | .error fault => throw (.outputMalformed fault)
  | .ok once =>
    let again := ofModule options file (Text.toBytes text) once
    let twice ← tryCatch again fun reason => throw (.outputRefused reason)
    if printModule (renumber once) ≠ printModule (renumber twice.body) then
      throw .notIdempotent

/-- Transforms a module, and checks the result if the options ask for it. -/
def ofCheckedModule (options : Options) (file : String) (source : List UInt8)
    (body : List Stmt) : Traced Result :=
  let checks := options.checkIdempotent && !options.explicitScopes
  make options file source (fun body => if checks then checkStable options file body else return)
    body

end Result

/-- Transforms the source of a module. -/
def desugar (options : Options) (file : String) (source : List UInt8) : Traced Result := do
  match parseModule file (Text.decode source) with
  | .error fault => throw (.malformed fault)
  | .ok body => Result.ofCheckedModule options file source body

end Unsugar
