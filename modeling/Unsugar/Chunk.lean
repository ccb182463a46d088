import Unsugar.Text.Blank
import Unsugar.Text.Pattern
import Unsugar.Text.Unquoted

/-! Files of several inputs, divided by lines of three dashes. A line may say which
error is expected on it, by three hashes and a quoted pattern. The errors that do
occur are compared with those expected. -/

namespace Unsugar

/-- One input of a file. -/
structure Chunk where
  file : String
  /-- The text, after as many line breaks as there are lines before it. -/
  source : List Char
  /-- The number of its first line. -/
  line : Nat
  /-- The errors still expected, by their lines. -/
  wanted : List (Nat × Text.Pattern)
  /-- A line expects one error at most. -/
  ordered : wanted.Pairwise fun earlier later => earlier.1 < later.1

/-- What is reported about a line. -/
inductive Discrepancy where
  | notQuoted (text : String)
  | badPattern (message : String)
  | mismatch (message : String) (pattern : Text.Pattern)
  | unexpected (message : String)
  | missing (pattern : Text.Pattern)

structure Report where
  file : String
  line : Int
  discrepancy : Discrepancy

def Discrepancy.text : Discrepancy → String
  | notQuoted text => "not a quoted regexp: " ++ text
  | badPattern message => message
  | mismatch message pattern =>
    "error " ++ Text.quoted message ++ " does not match pattern " ++ Text.quoted pattern.source
  | unexpected message => "unexpected error: " ++ message
  | missing pattern => "expected error matching " ++ Text.quoted pattern.source

def Report.text (report : Report) : String :=
  "\n" ++ report.file ++ ":" ++ toString report.line ++ ": " ++ report.discrepancy.text

namespace Chunk

/-! ## Reading -/

/-- A text with plain line breaks. -/
def plainBreaks : List Char → List Char
  | '\r' :: '\n' :: rest => '\n' :: plainBreaks rest
  | char :: rest => char :: plainBreaks rest
  | [] => []

/-- What stands between two chunks. -/
def separator : List Char := ['\n', '-', '-', '-', '\n']

/-- The chunks of a text, the first `skipped` characters of which belong to a
separator. `before` is what stands before the text in the first chunk. -/
def split (skipped : Nat) (before : List Char) : List Char → List (List Char)
  | [] => [before]
  | char :: rest =>
    match skipped with
    | skipped + 1 => split skipped before rest
    | 0 =>
      if separator.isPrefixOf (char :: rest) then
        before :: split (separator.length - 1) [] rest
      else split 0 (before ++ [char]) rest

/-- What follows three hashes on a line. -/
def afterHashes? : List Char → Option (List Char)
  | '#' :: '#' :: '#' :: rest => some rest
  | _ :: rest => afterHashes? rest
  | [] => none

section

variable (readPattern : Text.Pattern.Reader)

/-- The pattern of the error that a line expects, if it expects one. -/
def expectation? (line : List Char) : Option (Except Discrepancy Text.Pattern) :=
  (afterHashes? line).map fun rest =>
    let text := Text.trim rest
    match Text.unquoted? text with
    | none => .error (.notQuoted (String.ofList text))
    | some pattern => (readPattern pattern).mapError .badPattern

/-- The expectations of lines, numbered from `number` on. -/
def expectations (number : Nat) : List (List Char) → List (Nat × Except Discrepancy Text.Pattern)
  | [] => []
  | line :: rest =>
    ((expectation? readPattern line).toList.map (number, ·)) ++ expectations (number + 1) rest

theorem le_of_mem_expectations {number : Nat} {lines : List (List Char)}
    {found : Nat × Except Discrepancy Text.Pattern}
    (member : found ∈ expectations readPattern number lines) : number ≤ found.1 := by
  induction lines generalizing number with
  | nil => cases member
  | cons line rest later =>
    rw [expectations, List.mem_append, List.mem_map] at member
    rcases member with ⟨expected, -, rfl⟩ | member
    · exact Nat.le_refl number
    · exact Nat.le_of_succ_le (later member)

theorem expectations_ordered (number : Nat) (lines : List (List Char)) :
    (expectations readPattern number lines).Pairwise fun earlier later => earlier.1 < later.1 := by
  induction lines generalizing number with
  | nil => exact .nil
  | cons line rest later =>
    rw [expectations, List.pairwise_append]
    refine ⟨?_, later (number + 1), ?_⟩
    · cases expectation? readPattern line with
      | none => exact .nil
      | some expected => exact List.pairwise_singleton _ _
    · intro here present found member
      obtain ⟨expected, -, rfl⟩ := List.mem_map.mp present
      exact le_of_mem_expectations readPattern member

/-- The patterns among expectations. -/
def patterns (found : List (Nat × Except Discrepancy Text.Pattern)) :
    List (Nat × Text.Pattern) :=
  found.filterMap fun (line, expected) => expected.toOption.map (line, ·)

theorem patterns_ordered {found : List (Nat × Except Discrepancy Text.Pattern)}
    (ordered : found.Pairwise fun earlier later => earlier.1 < later.1) :
    (patterns found).Pairwise fun earlier later => earlier.1 < later.1 := by
  apply ordered.filterMap
  intro earlier later before first isFirst second isSecond
  obtain ⟨_, -, rfl⟩ := Option.map_eq_some_iff.mp isFirst
  obtain ⟨_, -, rfl⟩ := Option.map_eq_some_iff.mp isSecond
  exact before

/-- What is reported about expectations that cannot be read. -/
def unreadable (file : String) (found : List (Nat × Except Discrepancy Text.Pattern)) :
    List Report :=
  found.filterMap fun (line, expected) => match expected with
    | .ok _ => none
    | .error discrepancy => some ⟨file, line, discrepancy⟩

/-- The chunk of a text that begins on line `number`. -/
def ofText (file : String) (number : Nat) (text : List Char) : Chunk where
  file
  source := List.replicate (number - 1) '\n' ++ text
  line := number
  wanted := patterns (expectations readPattern number (text.splitOn '\n'))
  ordered := patterns_ordered (expectations_ordered readPattern number _)

/-- The chunks of texts, the first of which begins on line `number`, and what is
wrong with their expectations. -/
def ofTexts (file : String) (number : Nat) : List (List Char) → List Chunk × List Report
  | [] => ([], [])
  | text :: rest =>
    let lines := text.splitOn '\n'
    let reports := unreadable file (expectations readPattern number lines)
    let (chunks, later) := ofTexts file (number + lines.length + 1) rest
    (ofText readPattern file number text :: chunks, reports ++ later)

/-- The chunks of a file whose patterns `readPattern` reads. -/
def read (file : String) (text : List Char) : List Chunk × List Report :=
  ofTexts readPattern file 1 (split 0 [] (plainBreaks text))

end

/-- The chunks of a file with plain patterns. -/
def ofFile (file : String) (text : List Char) : List Chunk × List Report :=
  read Text.Pattern.plain file text

/-! ## Comparing -/

/-- Whether an error is still expected. -/
def wantsError (chunk : Chunk) : Bool :=
  !chunk.wanted.isEmpty

/-- Notes that an error occurred on a line. Each expectation is met once. -/
def gotError (chunk : Chunk) (line : Int) (message : String) : Chunk × List Report :=
  match chunk.wanted.find? (·.1 == line) with
  | none => (chunk, [⟨chunk.file, line, .unexpected message⟩])
  | some (_, pattern) =>
    let chunk := { chunk with
      wanted := chunk.wanted.filter (·.1 != line)
      ordered := chunk.ordered.filter _ }
    if pattern.isIn message then (chunk, [])
    else (chunk, [⟨chunk.file, line, .mismatch message pattern⟩])

/-- The errors that were expected and did not occur. -/
def unmet (chunk : Chunk) : List Report :=
  chunk.wanted.map fun (line, pattern) => ⟨chunk.file, line, .missing pattern⟩

end Chunk
end Unsugar
