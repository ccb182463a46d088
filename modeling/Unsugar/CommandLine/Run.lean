import Unsugar.CommandLine.Command
import Unsugar.CommandLine.Directory
import Unsugar.CommandLine.Transform
import Unsugar.Setting.Printer
import Unsugar.Setting.Reader

/-! The program: a command line in, texts and an exit code out. Arguments that are
not understood are reported beside the output; what goes wrong later goes to the
log. -/

namespace Unsugar

/-- What the program leaves behind, files apart. -/
structure Ending where
  succeeded : Bool
  output : String := ""
  remarks : String := ""
  /-- The file for the records. -/
  logFile : String := Configuration.logFileName
  records : List LogRecord := []

namespace Program

/-- What a user is told who asks for help. -/
def usage : String :=
  "Usage:\n  " ++ Command.programName ++ " [command]\n\nAvailable Commands:\n" ++
    String.join (Command.offered.map fun command => "  " ++ command.word ++ "\n")

/-- A failure in messages. -/
def report (message : String) : String := Command.programName ++ ": " ++ message

/-- A text that ends its last line. -/
def ensureLine (text : String) : String :=
  if text.toList.getLast? = some '\n' then text else text ++ "\n"

variable {m : Type → Type} [Monad m]

/-- Writes the settings in effect to the configuration file, which must not be
there yet. -/
def writeConfiguration (storage : Storage m) (layers : Layers) : Work m Unit := do
  if (← (storage.kind? Configuration.fileName : StateT Progress m _)).isSome then
    throw .configurationExists
  Work.onStorage (storage.write Configuration.fileName (Setting.print layers.settings))
  Work.remark ("wrote " ++ Configuration.fileName ++ "\n")

/-- Carries out a command. -/
def perform (storage : Storage m) (layers : Layers) (invocation : Invocation) : Work m Unit :=
  match invocation.command with
  | .transform => Work.transform storage layers invocation.arguments
  | .session => Work.transformInput storage layers
  | .init => writeConfiguration storage layers
  | .config => Work.print (Setting.print layers.settings)
  | .version => Work.remark "version: unknown\n"
  | .none | .completion | .help => Work.print usage

/-- What a command leaves behind that came to an end. -/
def finish (layers : Layers) (result : Except CommandError Unit × Progress) : Ending :=
  let (result, progress) := result
  let failed := match result with
    | .ok () => []
    | .error error => [⟨LogRecord.infoLevel, report error.message⟩]
  { succeeded := failed.isEmpty
    output := progress.output
    remarks := progress.remarks
    logFile := LogRecord.fileOf layers
    records := (progress.records ++ failed).filter (LogRecord.isKept layers) }

/-- The entries of the configuration file. A file that is missing or that cannot
be read has none. -/
def configuration (storage : Storage m) : m (List (String × Setting)) := do
  match ← storage.read Configuration.fileName with
  | .ok bytes => return (Setting.read? (Text.decode bytes)).getD []
  | .error _ => return []

/-- Runs the program. The variables of the environment are asked for by name. -/
def run (storage : Storage m) (lookUp : List String → m (List (String × String)))
    (arguments : List String) : m Ending := do
  match Invocation.ofArguments arguments with
  | .error error =>
    return { succeeded := false, remarks := ensureLine (report error.message) }
  | .ok invocation =>
    if invocation.wantsHelp then return { succeeded := true, output := usage }
    let file ← configuration storage
    let chosen := invocation.arguments.chosen
    let environment ← lookUp (Configuration.layers chosen [] file).environmentNames
    let layers := Configuration.layers chosen environment file
    return finish layers (← ((perform storage layers invocation).run.run {}))

/-- Runs the program in a directory. -/
def runIn (directory : Directory) (environment : List (String × String)) (input : List UInt8)
    (arguments : List String) : Ending × Directory :=
  (run (Directory.storage input) (fun _ => return environment) arguments).run directory

end Program
end Unsugar
