import Unsugar.Text.Utf8

/-! Files as commands see them. A command works on any storage that can read and
write files and make folders; what it does there is a matter of these operations
alone. -/

namespace Unsugar

/-- What may be found under a path. -/
inductive EntryKind where
  | file
  | folder
  deriving DecidableEq

inductive StorageCause where
  | missing
  | isFolder
  | notFolder
  | alreadyThere
  | other (reason : String)

def StorageCause.message : StorageCause → String
  | missing => "no such file or directory"
  | isFolder => "is a directory"
  | notFolder => "not a directory"
  | alreadyThere => "file exists"
  | other reason => reason

inductive StorageAction where
  | opening
  | reading
  | makingFolder

def StorageAction.word : StorageAction → String
  | opening => "open"
  | reading => "read"
  | makingFolder => "mkdir"

structure StorageError where
  action : StorageAction
  path : String
  cause : StorageCause

def StorageError.message (error : StorageError) : String :=
  error.action.word ++ " " ++ error.path ++ ": " ++ error.cause.message

/-- The operations on files that commands use, and the standard input. -/
structure Storage (m : Type → Type) where
  input : m (List UInt8)
  /-- What a path leads to, if it leads anywhere. -/
  kind? : String → m (Option EntryKind)
  read : String → m (Except StorageError (List UInt8))
  write : String → String → m (Except StorageError Unit)
  makeFolder : String → m (Except StorageError Unit)

namespace Path

/-- One more step of a path whose steps so far are given, the last one first.
A step up takes the last step back, where there is one. -/
def addStep (rooted : Bool) (steps : List String) (step : String) : List String :=
  if step = "" || step = "." then steps
  else if step ≠ ".." then step :: steps
  else match steps with
    | last :: rest => if last = ".." then step :: steps else rest
    | [] => if rooted then [] else [step]

/-- A path without needless steps. -/
def clean (path : String) : String :=
  let rooted := path.toList.head? = some '/'
  let steps := ((path.splitOn "/").foldl (addStep rooted) []).reverse
  let text := "/".intercalate steps
  if rooted then "/" ++ text else if text = "" then "." else text

/-- The last step of a path. -/
def base (path : String) : String :=
  match ((path.splitOn "/").filter (· ≠ "")).getLast? with
  | some step => step
  | none => if path = "" then "." else "/"

/-- The path of a name inside a folder. -/
def inside (folder name : String) : String :=
  clean (folder ++ "/" ++ name)

/-- The paths of the folders above a path, the outermost first. `front` is the
part of the path before the rest, its last character first. -/
def foldersAbove (front : List Char) : List Char → List String
  | [] => []
  | char :: rest =>
    let above := foldersAbove (char :: front) rest
    if char = '/' && !front.isEmpty && rest.head?.any (· ≠ '/') then
      String.ofList front.reverse :: above
    else above

end Path

namespace Storage

variable {m : Type → Type} [Monad m]

/-- Makes a folder if it is not there. -/
def ensureFolder (storage : Storage m) (path : String) : m (Except StorageError Unit) := do
  match ← storage.kind? path with
  | some .folder => return .ok ()
  | some .file => return .error ⟨.makingFolder, path, .notFolder⟩
  | none =>
    match ← storage.makeFolder path with
    | .ok () => return .ok ()
    | .error error =>
      return if (← storage.kind? path) = some .folder then .ok () else .error error

/-- Makes folders in turn, up to the first that cannot be made. -/
def ensureAll (storage : Storage m) : List String → m (Except StorageError Unit)
  | [] => return .ok ()
  | path :: rest => do
    match ← storage.ensureFolder path with
    | .ok () => storage.ensureAll rest
    | .error error => return .error error

/-- Makes a folder and those above it. -/
def makeFolders (storage : Storage m) (path : String) : m (Except StorageError Unit) :=
  storage.ensureAll (Path.foldersAbove [] path.toList ++ [path])

end Storage
end Unsugar
