import Unsugar.CommandLine.Flag
import Unsugar.Text.Case

/-! Commands. The first argument that is neither a flag nor the value of one names
the command; flags may stand before it. -/

namespace Unsugar

inductive Command where
  /-- No command was named. -/
  | none
  | transform
  | session
  | init
  | config
  | version
  | completion
  | help
  deriving DecidableEq

namespace Command

/-- The name of the program. -/
def programName : String := "dietpy"

/-- The word that names a command. -/
def word : Command → String
  | none => ""
  | transform => "transform"
  | session => "repl"
  | init => "init"
  | config => "config"
  | version => "version"
  | completion => "completion"
  | help => "help"

/-- The commands that are offered to a user who mistyped one. -/
def offered : List Command := [transform, session, init, config, version, completion]

def named? (word : String) : Option Command :=
  (help :: offered).find? (·.word == word)

/-- The flags of a command, but for the one that asks for help. -/
def flags : Command → List Flag
  | transform => Flag.ofTransform ++ Flag.shared
  | _ => Flag.shared

/-- Whether a command takes arguments other than flags. -/
def takesOthers : Command → Bool
  | session | init | config => false
  | _ => true

/-! ## Finding the command -/

/-- Whether the argument after this one may be the value of a flag. Flags that are
not known may have values. -/
def wantsValue (flags : List Flag) (argument : String) : Bool :=
  match argument.toList with
  | '-' :: '-' :: name =>
    !name.contains '=' && (Flag.named? flags (String.ofList name)).all (·.kind ≠ .switch)
  | ['-', letter] =>
    letter.toNat < 0x80 && letter != '=' && (Flag.lettered? flags letter).all (·.kind ≠ .switch)
  | _ => false

def isFlag (argument : String) : Bool := argument.toList.head? = some '-'

/-- The first argument that is neither a flag nor a value. A flag that wants a
value ends the search if at most one argument is left. -/
def firstWord? (flags : List Flag) : List String → Option String
  | [] => Option.none
  | argument :: rest =>
    if argument = "--" then Option.none
    else if wantsValue flags argument then
      match rest with
      | _ :: next :: rest => firstWord? flags (next :: rest)
      | _ => Option.none
    else if argument = "" || isFlag argument then firstWord? flags rest
    else some argument

/-- Arguments without the first occurrence of a word that is neither a flag nor a
value. -/
def eraseWord (flags : List Flag) (word : String) : List String → List String
  | [] => []
  | argument :: rest =>
    if argument = "--" then argument :: rest
    else if wantsValue flags argument then
      match rest with
      | value :: rest => argument :: value :: eraseWord flags word rest
      | [] => [argument]
    else if argument = word then rest
    else argument :: eraseWord flags word rest

/-! ## Suggestions -/

/-- The next row of the table of distances, given the row above and the distance
to the left. -/
def distanceRow (char : UInt8) (left : Nat) : List UInt8 → List Nat → List Nat
  | other :: others, diagonal :: above :: row =>
    let distance := if char = other then diagonal else min (min left above) diagonal + 1
    distance :: distanceRow char distance others (above :: row)
  | _, _ => []

/-- How many insertions, deletions and exchanges lead from one text to another. -/
def distance (left right : List UInt8) : Nat :=
  let row := left.foldl (fun (row : List Nat) char =>
    let first := row.headD 0 + 1
    first :: distanceRow char first right row) (List.range (right.length + 1))
  row.getLastD 0

/-- Whether a word may have been meant for a command. -/
def resembles (typed : String) (command : Command) : Bool :=
  let typed := Text.toBytes (Text.lowered typed)
  let word := Text.toBytes command.word
  distance typed word ≤ 2 || typed.isPrefixOf word

/-- What a mistyped word may have been meant for. -/
def suggestions (typed : String) : String :=
  match offered.filter (resembles typed) with
  | [] => ""
  | meant => "\n\nDid you mean this?\n" ++ String.join (meant.map fun command =>
      "\t" ++ command.word ++ "\n")

end Command

/-- Why arguments are not understood. -/
inductive UsageError where
  | unknownCommand (typed : String)
  | unexpected (command : Command) (argument : String)
  | flag (error : FlagError)

def UsageError.message : UsageError → String
  | unknownCommand typed =>
    "unknown command " ++ Text.quoted typed ++ " for " ++ Text.quoted Command.programName ++
      Command.suggestions typed
  | unexpected command argument =>
    "unknown command " ++ Text.quoted argument ++ " for " ++
      Text.quoted (Command.programName ++ " " ++ command.word)
  | flag error => error.message

/-- A command with its arguments. -/
structure Invocation where
  command : Command
  arguments : Arguments

namespace Invocation

/-- The command that arguments name, and the other arguments. -/
def select (arguments : List String) : Except UsageError (Command × List String) :=
  match Command.firstWord? Flag.shared arguments with
  | none => .ok (.none, arguments)
  | some word =>
    match Command.named? word with
    | some command => .ok (command, Command.eraseWord Flag.shared word arguments)
    | none => .error (.unknownCommand word)

def wantsHelp (invocation : Invocation) : Bool :=
  invocation.command matches .none | .help | .completion ||
    invocation.arguments.isTrue Flag.help

/-- Understands the arguments of the program. -/
def ofArguments (arguments : List String) : Except UsageError Invocation := do
  let (command, rest) ← select arguments
  match Arguments.read (command.flags ++ [Flag.help]) rest with
  | .error error => throw (.flag error)
  | .ok arguments =>
    let invocation : Invocation := ⟨command, arguments⟩
    match arguments.others with
    | other :: _ =>
      if command.takesOthers || invocation.wantsHelp then return invocation
      else throw (.unexpected command other)
    | [] => return invocation

end Invocation
end Unsugar
