import Unsugar.Desugar

/-! Interactive sessions. Statements are read one at a time from a supply of
lines, and each is transformed by itself. What a step has read of its last line
and does not use is dropped. -/

namespace Unsugar
namespace Session

/-- The name of the input in messages. -/
def inputName : String := "<stdin>"

/-- The options for a single statement, which is no module of its own. -/
def statementOptions (options : Options) : Options :=
  { options with injectImport := false, cleanupGlobals := false }

/-- What came of one step. -/
inductive Reply where
  /-- There was no whole statement left. -/
  | ended
  | failed (failure : Failure)
  | printed (text : String)

/-- The statements read from lines, transformed. -/
def reply (options : Options) (read : List (List Char)) (body : List Stmt) : Reply :=
  if body.isEmpty then .printed ""
  else
    let source := Text.toBytes (String.ofList read.flatten)
    match (Result.ofCheckedModule options inputName source body).run.run [] with
    | (.ok result, _) => .printed (printModule result.body)
    | (.error failure, _) => .failed failure

/-- Reads one statement, and gives the lines that were not read. -/
def step (options : Options) (lines : List (List Char)) : Reply × List (List Char) :=
  let (parsed, rest) := parseInteractive inputName lines
  match parsed with
  | .ok body => (reply options (lines.take (lines.length - rest.length)) body, rest)
  | .error fault =>
    if fault.complaint matches .endOfInput then (.ended, rest) else (.failed (.malformed fault), rest)

/-- The replies to all statements of a supply of lines, each with the number of
lines left after it. -/
def replies (options : Options) (lines : List (List Char)) : List (Reply × Nat) :=
  match step options lines with
  | (.ended, rest) => [(.ended, rest.length)]
  | (reply, rest) =>
    (reply, rest.length) ::
      if _shorter : rest.length < lines.length then replies options rest else []
termination_by lines.length

end Session
end Unsugar
