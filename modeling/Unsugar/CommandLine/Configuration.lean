import Unsugar.CommandLine.Flag
import Unsugar.Options
import Unsugar.Setting.Layers
import Unsugar.Text.Blank

/-! The settings of the program. -/

namespace Unsugar
namespace Configuration

/-- The file that settings are read from. -/
def fileName : String := "dietpy.yaml"

/-- The log file of a user who chooses none. -/
def logFileName : String := ".dietpy.log"

/-- The settings of a user who chooses nothing. -/
def standard : List (String × Setting) :=
  [("version", .integer 1),
   ("desugar", .table
     [("import_star", .text "allowed"), ("inject_import", .truth true),
      ("lower_attributes", .truth false), ("truthy", .truth false),
      ("force_import_rewrite", .truth false), ("cleanup_globals", .truth false),
      ("explicit_scopes", .truth false), ("check_idempotent", .truth false)]),
   ("transform", .table [("jobs", .integer 0)]),
   ("log", .table
     [("filename", .text logFileName), ("level", .integer 0), ("verbose", .truth false),
      ("max_size", .integer 10), ("max_backups", .integer 3), ("max_age", .integer 28),
      ("compress", .truth true)])]

/-- The settings in effect, given what flags choose, the environment and the
contents of the file. -/
def layers (chosen : List (String × Setting)) (environment : List (String × String))
    (file : List (String × Setting)) : Layers where
  choosable := (Flag.shared ++ Flag.ofTransform).filterMap (·.setting)
  chosen := chosen
  environment := environment
  file := file
  standard := standard

/-- The options of a transformation, unless the mode for imports of all members
is none. -/
def options? (layers : Layers) : Except String Options :=
  let mode := layers.toText "desugar.import_star"
  match ImportStar.ofText? mode with
  | none => .error (ImportStar.refusal mode)
  | some importStar => .ok
    { importStar
      injectImport := layers.isTrue "desugar.inject_import"
      lowerAttributes := layers.isTrue "desugar.lower_attributes"
      truthy := layers.isTrue "desugar.truthy"
      lowerFutureImports := layers.isTrue "desugar.force_import_rewrite"
      cleanupGlobals := layers.isTrue "desugar.cleanup_globals"
      explicitScopes := layers.isTrue "desugar.explicit_scopes"
      checkIdempotent := layers.isTrue "desugar.check_idempotent" }

end Configuration

/-! ## The log -/

/-- What a record of the log is about. -/
structure LogRecord where
  /-- How much the record matters. -/
  level : Int
  message : String

namespace LogRecord

def debugLevel : Int := -4

def infoLevel : Int := 0

def warningLevel : Int := 4

def errorLevel : Int := 8

/-- The level that a word or number stands for. -/
def levelOf (word : String) : Int :=
  match String.ofList ((Text.trim word.toList).map Text.lower) with
  | "debug" => debugLevel
  | "info" => infoLevel
  | "warn" | "warning" => warningLevel
  | "error" => errorLevel
  | word => (Text.decimalInteger? word.toList).getD infoLevel

/-- The least level that is recorded. -/
def threshold (layers : Layers) : Int :=
  if layers.isTrue "log.verbose" then debugLevel else levelOf (layers.toText "log.level")

/-- How many bytes the log may take. A size is given in units of a mebibyte. -/
def sizeLimit (layers : Layers) : Int64 :=
  let size := layers.toWord "log.max_size"
  (if size = 0 then 100 else size) * 1048576

/-- Whether a record goes to the log: it has to matter enough, and the log must have
room for it. -/
def isKept (layers : Layers) (record : LogRecord) : Bool :=
  threshold layers ≤ record.level && 0 < sizeLimit layers

/-- The file that records go to. -/
def fileOf (layers : Layers) : String :=
  let chosen := layers.toText "log.filename"
  if (Text.trim chosen.toList).isEmpty then Configuration.logFileName else chosen

end LogRecord
end Unsugar
