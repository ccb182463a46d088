import Unsugar.CommandLine.Storage

/-! A storage in memory: one folder, with what is in it. -/

namespace Unsugar

structure Directory where
  /-- The texts of the files, by the steps of their paths. -/
  files : List (List String × String) := []
  /-- The folders that were made. Folders above a file need not be listed. -/
  folders : List (List String) := []

namespace Directory

def isFolder (directory : Directory) (steps : List String) : Bool :=
  steps.isEmpty || directory.folders.any (fun folder => steps.isPrefixOf folder) ||
    directory.files.any fun (path, _) => steps.isPrefixOf path && path ≠ steps

def entry? (directory : Directory) (steps : List String) : Option EntryKind :=
  if directory.isFolder steps then some .folder
  else if (directory.files.lookup steps).isSome then some .file
  else none

/-- Follows the steps of a path from a place. The last step need not lead
anywhere, but what comes before it must be folders. -/
def follow (directory : Directory) (place : List String) :
    List String → Except StorageCause (List String)
  | [] => .ok place
  | step :: rest =>
    match directory.entry? place with
    | none => .error .missing
    | some .file => .error .notFolder
    | some .folder =>
      if step = "" || step = "." then directory.follow place rest
      else if step = ".." then
        if place.isEmpty then .error .missing else directory.follow place.dropLast rest
      else directory.follow (place ++ [step]) rest

/-- The place that a path leads to. Absolute paths lead out of the folder. -/
def resolve (directory : Directory) (path : String) : Except StorageCause (List String) :=
  if path.toList.head?.all (· == '/') then .error .missing
  else directory.follow [] (path.splitOn "/")

/-- A path without the slashes at its end. -/
def trimSlashes (path : String) : String :=
  String.ofList (path.toList.reverse.dropWhile (· == '/')).reverse

def kind? (path : String) (directory : Directory) : Option EntryKind :=
  match directory.resolve path with
  | .ok place => directory.entry? place
  | .error _ => none

def read (path : String) (directory : Directory) : Except StorageError (List UInt8) :=
  match directory.resolve path with
  | .error cause => .error ⟨.opening, path, cause⟩
  | .ok place =>
    if directory.isFolder place then .error ⟨.reading, path, .isFolder⟩
    else match directory.files.lookup place with
      | some text => .ok (Text.toBytes text)
      | none => .error ⟨.opening, path, .missing⟩

/-- Puts a file in a place, over the one that is there. -/
def put (place : List String) (text : String) :
    List (List String × String) → List (List String × String)
  | [] => [(place, text)]
  | (path, old) :: rest =>
    if path = place then (place, text) :: rest else (path, old) :: put place text rest

/-- Writes a file. A slash at the end of a path asks for a folder, which cannot be
written. -/
def write (path text : String) (directory : Directory) : Except StorageError Unit × Directory :=
  match directory.resolve (trimSlashes path) with
  | .error cause => (.error ⟨.opening, path, cause⟩, directory)
  | .ok place =>
    if directory.isFolder place || trimSlashes path ≠ path then
      (.error ⟨.opening, path, .isFolder⟩, directory)
    else (.ok (), { directory with files := put place text directory.files })

def makeFolder (path : String) (directory : Directory) : Except StorageError Unit × Directory :=
  match directory.resolve (trimSlashes path) with
  | .error cause => (.error ⟨.makingFolder, path, cause⟩, directory)
  | .ok place =>
    if (directory.entry? place).isSome then
      (.error ⟨.makingFolder, path, .alreadyThere⟩, directory)
    else (.ok (), { directory with folders := place :: directory.folders })

/-- A directory as a storage, beside a standard input. -/
def storage (input : List UInt8) : Storage (StateM Directory) where
  input := return input
  kind? path := return kind? path (← get)
  read path := return read path (← get)
  write path text := modifyGet (write path text)
  makeFolder path := modifyGet (makeFolder path)

end Directory
end Unsugar
