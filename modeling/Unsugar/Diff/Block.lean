/-! Matching blocks of two texts. The longest block that the texts share is found
first, and then, in the same way, those before and after it. In a long text,
lines that occur very often do not begin a block, but may extend one. -/

namespace Unsugar.Diff

/-- Lines that stand in both texts: where in the first, where in the second, and
how many. -/
structure Block where
  left : Nat
  right : Nat
  size : Nat
  deriving DecidableEq

/-- How many lines two texts share at their fronts. -/
def sharedFront : List String → List String → Nat
  | first :: lefts, second :: rights =>
    if first == second then sharedFront lefts rights + 1 else 0
  | _, _ => 0

/-- For each line of the second text, how many lines up to it equal those up to
`line` in the first; `row` has the numbers for the line before. -/
def nextRow (skips : String → Bool) (line : String) (row : List Nat) (rights : List String) :
    List Nat :=
  List.zipWith (fun before other => if other == line && !skips other then before + 1 else 0)
    (0 :: row) rights

/-- The better of a block and those that end at `left` and from `right` on. -/
def bestOfRow (left : Nat) : (right : Nat) → (best : Block) → List Nat → Block
  | _, best, [] => best
  | right, best, size :: rest =>
    let best := if best.size < size then ⟨left + 1 - size, right + 1 - size, size⟩ else best
    bestOfRow left (right + 1) best rest

/-- The first of the longest blocks that begin no skipped line. -/
def longestOf (skips : String → Bool) (rights : List String) :
    (left : Nat) → (best : Block) → (row : List Nat) → List String → Block
  | _, best, _, [] => best
  | left, best, row, line :: rest =>
    let row := nextRow skips line row rights
    longestOf skips rights (left + 1) (bestOfRow left 0 best row) row rest

/-- A block with all equal lines around it. -/
def Block.extend (lefts rights : List String) (block : Block) : Block :=
  let before := sharedFront (lefts.take block.left).reverse (rights.take block.right).reverse
  let after := sharedFront (lefts.drop (block.left + block.size))
    (rights.drop (block.right + block.size))
  ⟨block.left - before, block.right - before, before + block.size + after⟩

/-- The block that two texts are divided at. -/
def longest (skips : String → Bool) (lefts rights : List String) : Block :=
  (longestOf skips rights 0 ⟨0, 0, 0⟩ (rights.map fun _ => 0) lefts).extend lefts rights

def Block.shift (left right : Nat) (block : Block) : Block :=
  ⟨block.left + left, block.right + right, block.size⟩

/-- The blocks of two texts, in order. Each level takes at least one line of the
first text out, so its length bounds the `depth`. -/
def divide (skips : String → Bool) : (depth : Nat) → List String → List String → List Block
  | 0, _, _ => []
  | depth + 1, lefts, rights =>
    if lefts.isEmpty || rights.isEmpty then []
    else
      let block := longest skips lefts rights
      if block.size = 0 then []
      else
        let left := block.left + block.size
        let right := block.right + block.size
        divide skips depth (lefts.take block.left) (rights.take block.right) ++
          block :: (divide skips depth (lefts.drop left) (rights.drop right)).map
            (Block.shift left right)

/-- Joins blocks that follow one another without a gap. -/
def joinAdjacent : List Block → List Block
  | first :: rest =>
    match joinAdjacent rest with
    | second :: later =>
      if first.left + first.size = second.left && first.right + first.size = second.right then
        ⟨first.left, first.right, first.size + second.size⟩ :: later
      else first :: second :: later
    | [] => [first]
  | [] => []

/-- Whether a line occurs so often in a long text that no block begins with it. -/
def isPopular (lines : List String) (line : String) : Bool :=
  200 ≤ lines.length && lines.length / 100 + 1 < lines.count line

/-- The matching blocks of two texts. -/
def blocks (lefts rights : List String) : List Block :=
  joinAdjacent (divide (isPopular rights) (lefts.length + 1) lefts rights)

end Unsugar.Diff
