import Unsugar.CommandLine.Run

/-! The program on the files, the environment and the standard streams of its
process. -/

namespace Unsugar.Main

def causeOf : IO.Error → StorageCause
  | .noFileOrDirectory .. => .missing
  | .alreadyExists .. => .alreadyThere
  | .inappropriateType .. => .notFolder
  | error => .other (toString error)

/-- An operation with its failure as a value. -/
def attempt {α : Type} (action : StorageAction) (path : String) (operation : IO α) :
    IO (Except StorageError α) := do
  try return .ok (← operation)
  catch error => return .error ⟨action, path, causeOf error⟩

def kind? (path : String) : IO (Option EntryKind) := do
  let place := (← IO.currentDir) / path
  if ← place.isDir then return some .folder
  else if ← place.pathExists then return some .file
  else return none

/-- The files of the process. -/
def files : Storage IO where
  input := return (← (← IO.getStdin).readBinToEnd).toList
  kind? := kind?
  read path := do
    if (← kind? path) = some .folder then return .error ⟨.reading, path, .isFolder⟩
    else attempt .opening path do return (← IO.FS.readBinFile path).toList
  write path text := do
    if (← kind? path) = some .folder then return .error ⟨.opening, path, .isFolder⟩
    else attempt .opening path (IO.FS.writeFile path text)
  makeFolder path := attempt .makingFolder path (IO.FS.createDir path)

/-- The variables of the environment that are set. -/
def environment (names : List String) : IO (List (String × String)) :=
  names.filterMapM fun name => do return (← IO.getEnv name).map (name, ·)

/-- Adds records to the end of the log. -/
def writeLog (path : String) (records : List LogRecord) : IO Unit := do
  unless records.isEmpty do
    let log ← IO.FS.Handle.mk path .append
    for record in records do
      log.putStrLn ("level=" ++ toString record.level ++ " msg=" ++ Text.quoted record.message)

end Unsugar.Main

def main (arguments : List String) : IO UInt32 := do
  let ending ← Unsugar.Program.run Unsugar.Main.files Unsugar.Main.environment arguments
  (← IO.getStdout).putStr ending.output
  (← IO.getStderr).putStr ending.remarks
  try Unsugar.Main.writeLog ending.logFile ending.records catch _ => pure ()
  return if ending.succeeded then 0 else 1
