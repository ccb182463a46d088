import Unsugar.Setting
import Unsugar.Text.Quoted

/-! Flags of the command line. A flag has a long name, which stands after two
dashes, and perhaps a letter, which stands after one; letters may be run together.
Flags and other arguments may be mixed, up to a lone pair of dashes. -/

namespace Unsugar

/-- The values that a flag takes. -/
inductive FlagKind where
  | text
  /-- True or false, and true when no value is given. -/
  | switch
  | number
  deriving DecidableEq

structure Flag where
  name : String
  letter : Option Char := none
  kind : FlagKind
  /-- The setting that the flag chooses, by its dotted name. -/
  setting : Option String := none
  deriving DecidableEq

namespace Flag

/-- The flags of every command. -/
def shared : List Flag :=
  [⟨"import-star", none, .text, "desugar.import_star"⟩,
   ⟨"inject-import", none, .switch, "desugar.inject_import"⟩,
   ⟨"lower-attributes", none, .switch, "desugar.lower_attributes"⟩,
   ⟨"truthy", none, .switch, "desugar.truthy"⟩,
   ⟨"force-import-rewrite", none, .switch, "desugar.force_import_rewrite"⟩,
   ⟨"cleanup-globals", none, .switch, "desugar.cleanup_globals"⟩,
   ⟨"explicit-scopes", none, .switch, "desugar.explicit_scopes"⟩,
   ⟨"check-idempotent", none, .switch, "desugar.check_idempotent"⟩,
   ⟨"log-file", none, .text, "log.filename"⟩,
   ⟨"verbose", 'v', .switch, "log.verbose"⟩]

def program : Flag := ⟨"command", 'c', .text, none⟩

def outputFolder : Flag := ⟨"output-dir", 'o', .text, none⟩

def diff : Flag := ⟨"diff", none, .switch, none⟩

def names : Flag := ⟨"names", none, .text, none⟩

def jobs : Flag := ⟨"jobs", 'j', .number, "transform.jobs"⟩

/-- The flags of the command that transforms files. -/
def ofTransform : List Flag := [program, outputFolder, diff, names, jobs]

def help : Flag := ⟨"help", 'h', .switch, none⟩

/-- The flag of a long name. -/
def named? (flags : List Flag) (name : String) : Option Flag :=
  flags.find? (·.name == name)

/-- The flag of a letter. -/
def lettered? (flags : List Flag) (letter : Char) : Option Flag :=
  flags.find? (·.letter == some letter)

/-- A flag in messages. -/
def label (flag : Flag) : String :=
  match flag.letter with
  | some letter => "-" ++ letter.toString ++ ", --" ++ flag.name
  | none => "--" ++ flag.name

end Flag

inductive FlagError where
  | unknownName (name : String)
  | unknownLetter (letters : List Char)
  | missingValue (name : String)
  | missingValueAfter (letters : List Char)
  | malformed (argument : String)
  | notTruth (flag : Flag) (value : String)
  | notNumber (flag : Flag) (value : String) (reason : Text.IntegerError)

namespace FlagError

/-- The first of some letters in messages. Letters beyond ASCII are shown by the
first byte of their encoding alone. -/
def shownLetter (letters : List Char) : String :=
  let letter := letters.headD ' '
  Text.quotedChar (if letter.toNat < 0x80 then letter else '\xC3')

/-- Why a value does not suit a flag. -/
def unsuited (flag : Flag) (value reader reason : String) : String :=
  "invalid argument " ++ Text.quoted value ++ " for " ++ Text.quoted flag.label ++
    " flag: " ++ reader ++ ": parsing " ++ Text.quoted value ++ ": " ++ reason

def message : FlagError → String
  | unknownName name => "unknown flag: --" ++ name
  | unknownLetter letters =>
    "unknown shorthand flag: " ++ shownLetter letters ++ " in -" ++ String.ofList letters
  | missingValue name => "flag needs an argument: --" ++ name
  | missingValueAfter letters =>
    "flag needs an argument: " ++ shownLetter letters ++ " in -" ++ String.ofList letters
  | malformed argument => "bad flag syntax: " ++ argument
  | notTruth flag value => unsuited flag value "strconv.ParseBool" "invalid syntax"
  | notNumber flag value reason => unsuited flag value "strconv.ParseInt" reason.message

end FlagError

/-- Arguments that were taken apart. -/
structure Arguments where
  /-- The values of flags, the latest first. -/
  values : List (Flag × Setting) := []
  /-- The arguments that are not flags. -/
  others : List String := []

namespace Arguments

def find? (arguments : Arguments) (flag : Flag) : Option Setting :=
  arguments.values.lookup flag

def toText (arguments : Arguments) (flag : Flag) : String :=
  ((arguments.find? flag).map Setting.toText).getD ""

def isTrue (arguments : Arguments) (flag : Flag) : Bool :=
  ((arguments.find? flag).map Setting.isTrue).getD false

/-- The settings that flags choose. -/
def chosen (arguments : Arguments) : List (String × Setting) :=
  arguments.values.filterMap fun (flag, value) => flag.setting.map (·, value)

/-- Adds the value of a flag. -/
def add (arguments : Arguments) (flag : Flag) (value : String) : Except FlagError Arguments := do
  let setting ← match flag.kind with
    | .text => pure (.text value)
    | .switch =>
      match Text.truthValue? value with
      | some truth => pure (.truth truth)
      | none => throw (.notTruth flag value)
    | .number =>
      match Text.integer value.toList with
      | .ok number => pure (.integer number)
      | .error reason => throw (.notNumber flag value reason)
  return { arguments with values := (flag, setting) :: arguments.values }

def addOther (arguments : Arguments) (other : String) : Arguments :=
  { arguments with others := arguments.others ++ [other] }

/-- An argument by its form. -/
inductive Form where
  | other
  /-- The end of the flags. -/
  | stop
  | long (name : String) (value : Option String)
  | malformed
  | letters (letters : List Char)

def Form.of (argument : String) : Form :=
  match argument.toList with
  | ['-', '-'] => .stop
  | '-' :: '-' :: rest =>
    if rest.head? = some '-' || rest.head? = some '=' then .malformed
    else
      let name := rest.takeWhile (· != '=')
      match rest.drop name.length with
      | [] => .long (String.ofList name) none
      | _ :: value => .long (String.ofList name) (String.ofList value)
  | '-' :: letter :: rest => .letters (letter :: rest)
  | _ => .other

/-- What letters after a dash come to. -/
inductive Reading where
  | done (arguments : Arguments)
  /-- The flag of the letters that are left needs the next argument. -/
  | pending (arguments : Arguments) (flag : Flag) (letters : List Char)

/-- Reads letters that are run together. A flag that takes a value takes what
follows its letter; the value of a switch needs an equality sign. -/
def addLetters (flags : List Flag) (arguments : Arguments) :
    List Char → Except FlagError Reading
  | [] => .ok (.done arguments)
  | letter :: rest =>
    if "test.".toList.isPrefixOf (letter :: rest) then .ok (.done arguments)
    else match Flag.lettered? flags letter, rest with
      | none, _ => .error (.unknownLetter (letter :: rest))
      | some flag, '=' :: char :: value => do
        return .done (← arguments.add flag (String.ofList (char :: value)))
      | some flag, rest =>
        if flag.kind = .switch then do
          addLetters flags (← arguments.add flag "true") rest
        else if rest.isEmpty then .ok (.pending arguments flag [letter])
        else do return .done (← arguments.add flag (String.ofList rest))

/-- Reads arguments after those that were read already. -/
def readAfter (flags : List Flag) (arguments : Arguments) :
    List String → Except FlagError Arguments
  | [] => .ok arguments
  | argument :: rest =>
    match Form.of argument with
    | .other => readAfter flags (arguments.addOther argument) rest
    | .stop => .ok { arguments with others := arguments.others ++ rest }
    | .malformed => .error (.malformed argument)
    | .long name value =>
      match Flag.named? flags name, value with
      | none, _ => .error (.unknownName name)
      | some flag, some value => do readAfter flags (← arguments.add flag value) rest
      | some flag, none =>
        if flag.kind = .switch then do readAfter flags (← arguments.add flag "true") rest
        else match rest with
          | [] => .error (.missingValue name)
          | value :: rest => do readAfter flags (← arguments.add flag value) rest
    | .letters letters => do
      match ← addLetters flags arguments letters with
      | .done arguments => readAfter flags arguments rest
      | .pending arguments flag letters =>
        match rest with
        | [] => throw (.missingValueAfter letters)
        | value :: rest => readAfter flags (← arguments.add flag value) rest

/-- Reads the arguments of a command that has certain flags. -/
def read (flags : List Flag) (arguments : List String) : Except FlagError Arguments :=
  readAfter flags {} arguments

end Arguments
end Unsugar
