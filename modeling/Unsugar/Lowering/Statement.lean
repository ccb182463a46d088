import Unsugar.Lowering.Expression

/-! Lowering of statements. Loops, context managers, typed handlers, assertions,
imports, deletions and the richer assignments become a few simple statements and
calls of the support module. -/

namespace Unsugar
namespace Lowering

/-- An assignment to a target. -/
def assign (env : Env) (target value : Expr) : Desugar (List Stmt) :=
  assignTo env target value (lower env value)

/-! ## Simple statements -/

/-- Assigns one value to several targets, from left to right. The value is
evaluated once. -/
def assignAll (env : Env) (targets : List Expr) (value : Expr) : Desugar (List Stmt) := do
  let saved ← if value.isPure then pure none else some <$> Desugar.fresh "tmp"
  Desugar.apply .assign .visit (Stmt.assign targets value).start
  let ahead : List Deferred := saved.toList.map fun name => storing name (lower env value)
  let value := (saved.map Expr.ofName).getD value
  Deferred.runAll (ahead ++ targets.map fun target => assign env target value)

/-- A part of a target that is both read and written. It is evaluated once: unless
a copy will do, its value is saved. -/
def once (env : Env) (named : Bool) (part : Expr) : Desugar (Expr × List Deferred) := do
  if part.isCopyable && part.isStable named then return (part, [])
  let saved ← Desugar.fresh "tmp"
  return (.ofName saved, [storing saved (lower env part)])

/-- The target of an augmented assignment as it is read and as it is written, and
what has to come ahead. -/
def readAndWrite (env : Env) (named : Bool) : Expr → Desugar (Expr × Expr × List Deferred)
  | .name position id => return (.ofName id, .name position id, [])
  | .member object position id => do
    let (object, ahead) ← once env named object
    return (.attributeOf object id, .member object position id, ahead)
  | .subscript object key closing => do
    let (object, aheadObject) ← once env named object
    let (key, aheadKey) ← once env named key
    return (.subscript object key .unknown, .subscript object key closing, aheadObject ++ aheadKey)
  | other => Desugar.refuse other.start (.augmentedAssignmentTo other.kindName)

/-- Lowers an augmented assignment. -/
def augment (env : Env) (target : Expr) (op : BinaryOp) (value : Expr) : Desugar (List Stmt) := do
  let (read, written, ahead) ← readAndWrite env value.hasNamed target
  Desugar.apply .augAssign .visit target.start
  let updated := Expr.supportCall op.inPlaceFunction [read, value]
  Deferred.runAll (ahead ++ [assign env written updated])

mutual

/-- The deletions of a target, or what of it cannot be deleted. -/
def deleteTarget (env : Env) (position : Position) : Expr → Except Expr (List Deferred)
  | .name start id => .ok [return [.delete position [.name start id]]]
  | .tuple _ items _ => deleteTargets env position items
  | .list _ items _ => deleteTargets env position items
  | .subscript object key _ =>
    .ok [flush do
      return .expression (← supporting "delitem" [lower env object, lower env key])]
  | .member object start id =>
    if object.isReservedPath then
      .ok [flush do return .delete position [.member (← lower env object) start id]]
    else
      .ok [flush do
        return .expression (← supporting "delattr" [lower env object, return .ofText id])]
  | other => .error other

def deleteTargets (env : Env) (position : Position) : List Expr → Except Expr (List Deferred)
  | [] => .ok []
  | first :: rest => do
    let here ← deleteTarget env position first
    return here ++ (← deleteTargets env position rest)

end

/-- Whether a deletion is as simple as can be. -/
def isSimpleDeletion : List Expr → Bool
  | [.name ..] => true
  | [.member object _ _] => object.isReservedPath
  | _ => false

/-- Lowers a deletion: each target is deleted by itself. -/
def delete (env : Env) (position : Position) (targets : List Expr) : Desugar (List Stmt) := do
  match deleteTargets env position targets with
  | .error other => Desugar.refuse other.start (.deletionOf other.kindName)
  | .ok deletions =>
    if !isSimpleDeletion targets then Desugar.apply .delete .walk position
    Deferred.runAll deletions

/-- Lowers an assertion to a test that only a debugging run makes. -/
def assert (env : Env) (position : Position) (test : Expr) (message : Option Expr) :
    Desugar (List Stmt) := do
  Desugar.apply .asserts .walk position
  let error := Expr.builtin "AssertionError"
  let checks ← flush do
    let failed ← supporting "not_" [lower env test]
    let raised ← flush do
      match message with
      | none => return .raises .unknown (some error) none
      | some message =>
        return .raises .unknown (some (← applying (return error) [lower env message])) none
    return .choose failed raised []
  return [.choose (.ofName "__debug__") checks []]

/-! ## Imports -/

/-- The components of a dotted path after the first. -/
def laterComponents (path : String) : List String :=
  ((path.toList.splitOn '.').drop 1).map String.ofList

/-- The module that a plain import binds. An import under another name binds the
last module of its path. -/
def importedModule (item : Alias) : Expr :=
  let root := Expr.supportCall "import_" [.ofText item.path, .ofName "__spec__"]
  match item.asName with
  | none => root
  | some _ =>
    (laterComponents item.path).foldl
      (fun found part => .supportCall "import_attr" [found, .ofText part]) root

/-- Lowers an import of modules. -/
def importModules (position : Position) (names : List Alias) : Desugar (List Stmt) := do
  Desugar.apply .imports .walk position
  return names.map fun item =>
    .assign [.name item.position item.bound] (importedModule item)

/-- Lowers an import of members: the module is imported once, and each member
taken from it. -/
def importMembers (env : Env) (position : Position) (source : String) (level : Nat)
    (names : List Alias) (closing : Position) : Desugar (List Stmt) := do
  let unchanged : List Stmt := [.importFrom position source level names closing]
  let isFuture := source == "__future__" && level == 0
  let isStar := names.any (·.path == "*")
  match isStar, env.options.importStar with
  | true, .allowed => return unchanged
  | true, .refused =>
    Desugar.refuse position (.importStarFrom (String.ofList (List.replicate level '.') ++ source))
  | true, .stripped =>
    Desugar.apply .importFrom .walk position
    return [.pass]
  | false, _ =>
    if isFuture && !env.options.lowerFutureImports then return unchanged
    let imported ← Desugar.fresh "import"
    Desugar.apply .importFrom .walk position
    let members := Expr.listOf (names.map (.ofText ·.path))
    let levels : List Expr := if level = 0 then [] else [.ofNat level]
    let value := Expr.supportCall "import_"
      ([.ofText source, .ofName "__spec__", members] ++ levels)
    return .store imported value :: names.map fun item =>
      .assign [.name item.position item.bound]
        (.supportCall "import_attr" [.ofName imported, .ofText item.path])

/-! ## Compound statements -/

/-- A loop whose test needs statements of its own: the test moves into the body,
where they run each time. -/
def loopTesting (position : Position) (test : Lowering Expr) (body : Desugar (List Stmt))
    (orelse : Option (Desugar (List Stmt))) : Desugar (List Stmt) := do
  let exited ← Desugar.fresh "exited"
  Desugar.apply .whileLoop .walk position
  let check ← flush do
    let failed ← supporting "not_" [test]
    return .choose failed [.store exited (.ofBool true), .branch .unknown .breakLoop] []
  let body ← body
  let after ← match orelse with
    | none => pure []
    | some orelse => do pure [.choose (.ofName exited) (← orelse) []]
  return [.store exited (.ofBool false),
    .whileLoop .unknown (.ofBool true) (check ++ body) []] ++ after

/-- Lowers a statement with context managers. Each is entered before the rest, and
left exactly once: in the handler if the rest fails, and else at the end. -/
def managing (env : Env) (position : Position) (body : Desugar (List Stmt)) :
    List WithItem → Desugar (List Stmt)
  | [] => body
  | item :: rest => do
    let manager ← Desugar.fresh "with_ctx"
    let exit ← Desugar.fresh "with_exit"
    let succeeded ← Desugar.fresh "with_ok"
    Desugar.apply .withBlock .visit position
    let start ← storing manager (lower env item.manager)
    let entering := Expr.supportCall "contextmanager_enter" [.ofName manager]
    let entered ← match item.target with
      | none => pure [.expression entering]
      | some target => assign env target entering
    let inner ← managing env position body rest
    let leave (reason : Expr) : Stmt :=
      .perform "contextmanager_exit" [.ofName exit, reason]
    return start ++
      .store exit (.supportCall "contextmanager_get_exit" [.ofName manager]) :: entered ++
      [.store succeeded (.ofBool true),
       .tryBlock .unknown inner
        [.mk .unknown none none
          [.store succeeded (.ofBool false), leave (.supportCall "exc_info" [])]]
        []
        [.choose (.ofName succeeded) [leave .absent] [], .store exit .absent]]

/-- The current exception. -/
def currentException : Expr := .supportCall "current_exception" []

/-- The body of a handler that names the exception: the name is deleted however
the body is left. -/
def namingException (ident : Option Ident) (position : Position) (body : List Stmt) : List Stmt :=
  match ident with
  | none => body
  | some ident =>
    [.store ident.name currentException,
     .tryBlock position body [] [] [.store ident.name .absent, .drop ident.name]]

/-- A handler with the computations that lower its parts. A bare one has no type. -/
structure Catch where
  position : Position
  type : Option (Lowering Expr)
  ident : Option Ident
  body : Desugar (List Stmt)

/-- The choice between handlers. Their types are evaluated in order until one
matches; if none does, the exception is raised again. -/
def choosingHandler : List Catch → Desugar (List Stmt)
  | [] => return [.raises .unknown none none]
  | ⟨_, none, _, body⟩ :: _ => body
  | ⟨position, some type, ident, body⟩ :: rest => flush do
    let test ← supporting "exception_matches" [return currentException, type]
    let body ← body
    return .conditional position test (namingException ident position body) .unknown
      (← choosingHandler rest)

/-- A statement with typed handlers: a single bare one makes the choice between
them. -/
def catching (position : Position) (body : Desugar (List Stmt)) (handlers : List Catch)
    (orelse final : Desugar (List Stmt)) : Desugar (List Stmt) := do
  Desugar.apply .tryBlock .visit position
  let body ← body
  let chosen ← choosingHandler handlers
  let orelse ← orelse
  return [.tryBlock position body [.mk .unknown none none chosen] orelse (← final)]

/-- The last handler without a type that stands before another handler. -/
def earlyBareHandler? (handlers : List Handler) : Option Handler :=
  handlers.dropLast.reverse.find? (·.type.isNone)

def isTyped (handler : Handler) : Bool :=
  handler.type.isSome

/-- A body that may be absent. -/
def ifPresent (source : List Stmt) (lowered : Desugar (List Stmt)) :
    Option (Desugar (List Stmt)) :=
  if source.isEmpty then none else some lowered

mutual

/-- Lowers a statement. -/
def lowerStmt (env : Env) : Stmt → Desugar (List Stmt)
  | .expression value => flush do return .expression (← lower env value)
  | .assign [target] value => assign env target value
  | .assign targets value => assignAll env targets value
  | .augAssign target op value => augment env target op value
  | .annAssign target _ none => do
    Desugar.apply .annAssign .walk target.start
    return [.pass]
  | .annAssign target _ (some value) => do
    Desugar.apply .annAssign .visit target.start
    assign env target value
  | .delete position targets => delete env position targets
  | .branch position kind => return [.branch position kind]
  | .returns position result => flush do return .returns position (← lowerOption env result)
  | .raises position (some exception) (some cause) => do
    Desugar.apply .raises .walk position
    flush do
      let raised ← supporting "raise_from" [lower env exception, lower env cause]
      return .raises position (some raised) none
  | .raises position exception _ => flush do
    return .raises position (← lowerOption env exception) none
  | .declare position declaration names => return [.declare position declaration names]
  | .asserts position test message => assert env position test message
  | .imports position names => importModules position names
  | .importFrom position source level names closing =>
    importMembers env position source level names closing
  | .conditional position test body elsePosition orelse => flush do
    let test ← lower env test
    let body ← lowerBody env body
    return .conditional position test body elsePosition (← lowerBody env orelse)
  | .whileLoop position test body orelse =>
    if test.needsStatements then
      loopTesting position (lower env test) (lowerBody env body)
        (ifPresent orelse (lowerBody env orelse))
    else flush do
      let test ← lower env test
      let body ← lowerBody env body
      return .whileLoop position test body (← lowerBody env orelse)
  | .forLoop position target iterable body orelse =>
    looping position (assign env target) (lower env iterable) (lowerBody env body)
      (ifPresent orelse (lowerBody env orelse))
  | .tryBlock position body handlers orelse final =>
    if handlers.any isTyped then
      match earlyBareHandler? handlers with
      | some handler => Desugar.refuse handler.start .earlyBareHandler
      | none => catching position (lowerBody env body) (lowerCatches env handlers)
          (lowerBody env orelse) (lowerBody env final)
    else do
      let body ← lowerBody env body
      let handlers ← lowerHandlers env handlers
      let orelse ← lowerBody env orelse
      return [.tryBlock position body handlers orelse (← lowerBody env final)]
  | .withBlock position items body => managing env position (lowerBody env body) items
  | .function decorators position ident params result body => flush do
    let decorators ← decorators.mapM (lower env)
    let params ← lowerParams env params
    let body ← lowerBody { env with frame := .functionFrame ident.name } body
    return .function decorators position ident params result body
  | .classDef decorators position ident bases body => flush do
    let decorators ← decorators.mapM (lower env)
    let bases ← bases.mapM (lower env)
    let body ← lowerBody { env with frame := .classFrame } body
    return .classDef decorators position ident bases body

/-- Lowers the statements of a body. -/
def lowerBody (env : Env) : List Stmt → Desugar (List Stmt)
  | [] => return []
  | first :: rest => do
    let here ← lowerStmt env first
    return here ++ (← lowerBody env rest)

/-- Lowers the bodies of handlers that have no type, and so no name. -/
def lowerHandlers (env : Env) : List Handler → Desugar (List Handler)
  | [] => return []
  | .mk position _ _ body :: rest => do
    let body ← lowerBody env body
    return .mk position none none body :: (← lowerHandlers env rest)

/-- The lowerings of the parts of handlers. -/
def lowerCatches (env : Env) : List Handler → List Catch
  | [] => []
  | .mk position type ident body :: rest =>
    ⟨position, type.map (lower env), ident, lowerBody env body⟩ :: lowerCatches env rest

end

/-! ## Modules -/

/-- How often a module may be lowered. One pass does the work, and a second one
finds nothing left to do. -/
def maxPasses : Nat := 8

/-- Lowers a module until no rule applies, in at most `remaining` passes. -/
def lowerUntilDone (options : Options) : (remaining : Nat) → List Stmt → Desugar (List Stmt)
  | 0, _ => throw (.notConverged maxPasses)
  | remaining + 1, body => do
    modify fun context => { context with passes := context.passes + 1, modified := false }
    let body ← lowerBody ⟨options, .moduleFrame⟩ body
    let context ← get
    Desugar.note (.pass context.passes context.modified)
    if context.modified then lowerUntilDone options remaining body else return body

/-- Lowers a module. -/
def lowerModule (options : Options) (body : List Stmt) : Desugar (List Stmt) := do
  lowerUntilDone options (maxPasses - (← get).passes) body

end Lowering
end Unsugar
