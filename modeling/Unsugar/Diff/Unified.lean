import Unsugar.Diff.Block

/-! Differences of two texts in unified form: the changed lines, each group of
them with a few unchanged lines around it. -/

namespace Unsugar.Diff

/-- Lines of the two texts that correspond to each other. -/
structure Edit where
  /-- Whether the lines are the same. -/
  isEqual : Bool
  leftStart : Nat
  leftStop : Nat
  rightStart : Nat
  rightStop : Nat

/-- The edits between blocks, from a place in each text on. -/
def editsFrom (left right leftEnd rightEnd : Nat) : List Block → List Edit
  | [] =>
    if left < leftEnd || right < rightEnd then [⟨false, left, leftEnd, right, rightEnd⟩] else []
  | block :: rest =>
    let change : List Edit :=
      if left < block.left || right < block.right then
        [⟨false, left, block.left, right, block.right⟩]
      else []
    let afterLeft := block.left + block.size
    let afterRight := block.right + block.size
    change ++ ⟨true, block.left, afterLeft, block.right, afterRight⟩ ::
      editsFrom afterLeft afterRight leftEnd rightEnd rest

def edits (lefts rights : List String) : List Edit :=
  editsFrom 0 0 lefts.length rights.length (blocks lefts rights)

/-! ## Groups -/

namespace Edit

/-- The last `context` lines of an edit. -/
def last (context : Nat) (edit : Edit) : Edit :=
  { edit with
    leftStart := max edit.leftStart (edit.leftStop - context)
    rightStart := max edit.rightStart (edit.rightStop - context) }

/-- The first `context` lines of an edit. -/
def first (context : Nat) (edit : Edit) : Edit :=
  { edit with
    leftStop := min edit.leftStop (edit.leftStart + context)
    rightStop := min edit.rightStop (edit.rightStart + context) }

def leftSize (edit : Edit) : Nat := edit.leftStop - edit.leftStart

end Edit

/-- Cuts the unchanged lines before the first change to its context. -/
def trimFront (context : Nat) : List Edit → List Edit
  | edit :: rest => (if edit.isEqual then edit.last context else edit) :: rest
  | [] => []

/-- Cuts the unchanged lines after the last change to its context. -/
def trimBack (context : Nat) : List Edit → List Edit
  | [] => []
  | [edit] => [if edit.isEqual then edit.first context else edit]
  | edit :: rest => edit :: trimBack context rest

/-- Divides edits where many unchanged lines stand between two changes. -/
def divideGroups (context : Nat) : (group : List Edit) → List Edit → List (List Edit)
  | group, [] => [group]
  | group, edit :: rest =>
    if edit.isEqual && 2 * context < edit.leftSize then
      (group ++ [edit.first context]) :: divideGroups context [edit.last context] rest
    else divideGroups context (group ++ [edit]) rest

/-- The groups of changes. -/
def groups (context : Nat) (edits : List Edit) : List (List Edit) :=
  (divideGroups context [] (trimBack context (trimFront context edits))).filter fun group =>
    group.any (!·.isEqual)

/-! ## Text -/

/-- Lines with their breaks. The last one gets a break that it did not have. -/
def splitLines (text : String) : List String :=
  (text.toList.splitOn '\n').map fun line => String.ofList (line ++ ['\n'])

/-- A range of lines, counted from one; one line is written without its length. -/
def rangeText (start stop : Nat) : String :=
  match stop - start with
  | 0 => toString start ++ ",0"
  | 1 => toString (start + 1)
  | length => toString (start + 1) ++ "," ++ toString length

def slice (lines : List String) (start stop : Nat) : List String :=
  (lines.drop start).take (stop - start)

def editLines (lefts rights : List String) (edit : Edit) : List String :=
  let left := slice lefts edit.leftStart edit.leftStop
  let right := slice rights edit.rightStart edit.rightStop
  if edit.isEqual then left.map (" " ++ ·) else left.map ("-" ++ ·) ++ right.map ("+" ++ ·)

def groupLines (lefts rights : List String) (group : List Edit) : List String :=
  match group.head?, group.getLast? with
  | some first, some last =>
    let header := "@@ -" ++ rangeText first.leftStart last.leftStop ++ " +" ++
      rangeText first.rightStart last.rightStop ++ " @@\n"
    header :: group.flatMap (editLines lefts rights)
  | _, _ => []

/-- The differences of two texts, with three unchanged lines around each change.
Equal texts have none. -/
def unified (leftName rightName left right : String) : String :=
  let lefts := splitLines left
  let rights := splitLines right
  match groups 3 (edits lefts rights) with
  | [] => ""
  | found =>
    "--- " ++ leftName ++ "\n+++ " ++ rightName ++ "\n" ++
      String.join (found.flatMap (groupLines lefts rights))

end Unsugar.Diff
