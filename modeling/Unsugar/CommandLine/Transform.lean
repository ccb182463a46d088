import Unsugar.CommandLine.Configuration
import Unsugar.CommandLine.Storage
import Unsugar.Desugar
import Unsugar.Diff.Unified

/-! Transforming the modules that a user names: reading them, and writing the
results to files or to the standard output. Nothing is written unless all modules
could be transformed. -/

namespace Unsugar

/-- Why a command fails. -/
inductive CommandError where
  | programAndFiles
  | storage (error : StorageError)
  | options (reason : String)
  | transform (name : String) (failure : Failure)
  | configurationExists

def CommandError.message : CommandError → String
  | programAndFiles => "-c and file arguments are mutually exclusive"
  | storage error => error.message
  | options reason => reason
  | transform name failure => name ++ ": " ++ failure.message
  | configurationExists =>
    "failed to write config file: Config File " ++ Text.quoted Configuration.fileName ++
      " Already Exists"

/-- What a command has done so far. -/
structure Progress where
  output : String := ""
  /-- What is said beside the output. -/
  remarks : String := ""
  records : List LogRecord := []

/-- Steps of a command on files. -/
abbrev Work (m : Type → Type) := ExceptT CommandError (StateT Progress m)

/-- A module to transform. -/
structure SourceUnit where
  name : String
  source : List UInt8
  /-- Whether the name is that of a file. -/
  isFile : Bool

def SourceUnit.text (unit : SourceUnit) : String := Text.ofBytes unit.source

/-- A module that was transformed. -/
structure OutputUnit where
  unit : SourceUnit
  text : String
  functions : List (String × FunctionName)

namespace Work

variable {m : Type → Type} [Monad m]

def print (text : String) : Work m Unit :=
  modify fun progress => { progress with output := progress.output ++ text }

def remark (text : String) : Work m Unit :=
  modify fun progress => { progress with remarks := progress.remarks ++ text }

def record (level : Int) (message : String) : Work m Unit :=
  modify fun progress => { progress with records := progress.records ++ [⟨level, message⟩] }

/-- An operation of a storage as a step of a command. -/
def onStorage {α : Type} (operation : m (Except StorageError α)) : Work m α := do
  match ← (operation : StateT Progress m _) with
  | .ok value => return value
  | .error error => throw (.storage error)

/-! ## Reading -/

def readFile (storage : Storage m) (name : String) : Work m SourceUnit := do
  return ⟨name, ← onStorage (storage.read name), true⟩

/-- The standard input as a module. -/
def readInput (storage : Storage m) : Work m SourceUnit := do
  return ⟨"<stdin>", ← (storage.input : StateT Progress m _), false⟩

/-- The modules that the arguments name: a program, files, or the standard
input. -/
def readUnits (storage : Storage m) (program : String) (files : List String) :
    Work m (List SourceUnit) := do
  if program ≠ "" then
    if files.isEmpty then return [⟨"<cmdline>", Text.toBytes program, false⟩]
    else throw .programAndFiles
  else if files.isEmpty then return [← readInput storage]
  else files.mapM (readFile storage)

/-! ## Transforming -/

/-- The options in effect. -/
def options (layers : Layers) : Work m Options :=
  match Configuration.options? layers with
  | .ok options => return options
  | .error reason => throw (.options reason)

/-- The result of a transformation as text. A disabled module stays as it is. -/
def outputOf (unit : SourceUnit) (result : Result) : OutputUnit where
  unit := unit
  text := if result.disabled then unit.text else printModule result.body
  functions := if result.disabled then [] else result.functions

def transformUnit (options : Options) (unit : SourceUnit) : Work m OutputUnit := do
  match ((desugar options unit.name unit.source).run.run []).1 with
  | .ok result =>
    record LogRecord.infoLevel "transformed"
    return outputOf unit result
  | .error failure =>
    record LogRecord.errorLevel "transform failed"
    throw (.transform unit.name failure)

/-! ## Writing -/

/-- What is written for a module: its result, or how that differs from the
source. -/
def shownText (asDiff : Bool) (output : OutputUnit) : String :=
  let name := output.unit.name
  if asDiff then Diff.unified name (name ++ " (desugared)") output.unit.text output.text
  else output.text

/-- Writes what is shown of a module. Files go to the folder, if one is given; on
the standard output, one of several modules is headed by its name. -/
def writeOutput (storage : Storage m) (folder : String) (asDiff several : Bool)
    (output : OutputUnit) : Work m Unit := do
  let text := shownText asDiff output
  if folder ≠ "" && output.unit.isFile then
    let path := Path.inside folder (Path.base output.unit.name)
    onStorage (storage.write (if asDiff then path ++ ".diff" else path) text)
  else
    if several then print ("# " ++ output.unit.name ++ "\n")
    print text

def writeOutputs (storage : Storage m) (folder : String) (asDiff : Bool)
    (outputs : List OutputUnit) : Work m Unit := do
  if folder ≠ "" then onStorage (storage.makeFolders folder)
  outputs.forM (writeOutput storage folder asDiff (outputs.length > 1))

/-! ## Names of functions -/

/-- A character in a text of the names file. -/
def nameEscape (char : Char) : List Char :=
  if char == '"' || char == '\\' then ['\\', char]
  else if char.toNat < 0x20 then ['\\', 'u'] ++ Text.hexDigits 4 char.toNat
  else [char]

def nameText (name : String) : String :=
  "\"" ++ String.ofList (name.toList.flatMap nameEscape) ++ "\""

/-- Named entries in braces, a line each, in order of their names. Of entries with
one name the last counts. -/
def namedEntries (indentation : String) (entries : List (String × String)) : String :=
  let last := entries.foldl (fun found (name, text) =>
    found.filter (·.1 ≠ name) ++ [(name, text)]) ([] : List (String × String))
  let sorted := last.mergeSort fun left right => !decide (right.1 < left.1)
  let lines := sorted.map fun (name, text) =>
    "\n" ++ indentation ++ "\t" ++ nameText name ++ ": " ++ text
  if lines.isEmpty then "\x7b\x7d"
  else "\x7b" ++ ",".intercalate lines ++ "\n" ++ indentation ++ "\x7d"

/-- The generated functions of modules and what they are called in the source. -/
def namesText (outputs : List OutputUnit) : String :=
  let function (name : FunctionName) : String :=
    namedEntries "\t\t" [("name", nameText name.name), ("qualname", nameText name.qualname)]
  let file (output : OutputUnit) : String × String :=
    (output.unit.name,
      namedEntries "\t" (output.functions.map fun (fresh, name) => (fresh, function name)))
  namedEntries "" (outputs.map file) ++ "\n"

def writeNames (storage : Storage m) (path : String) (outputs : List OutputUnit) :
    Work m Unit :=
  if path = "" then return
  else if path = "-" then print (namesText outputs)
  else onStorage (storage.write path (namesText outputs))

/-! ## Commands -/

/-- Transforms the modules that the arguments name. -/
def transform (storage : Storage m) (layers : Layers) (arguments : Arguments) :
    Work m Unit := do
  let units ← readUnits storage (arguments.toText Flag.program) arguments.others
  let options ← options layers
  let outputs ← units.mapM (transformUnit options)
  let folder := arguments.toText Flag.outputFolder
  writeOutputs storage folder (arguments.isTrue Flag.diff) outputs
  writeNames storage (arguments.toText Flag.names) outputs

/-- Transforms the standard input as one module. -/
def transformInput (storage : Storage m) (layers : Layers) : Work m Unit := do
  let unit ← readInput storage
  let output ← transformUnit (← options layers) unit
  print output.text

end Work
end Unsugar
