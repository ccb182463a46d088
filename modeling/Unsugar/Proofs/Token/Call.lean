import Mathlib.Data.List.TakeDrop
import Unsugar.Proofs.Token.Word

/-! What one call of the scanner does. A call goes through rounds that give no word, and
then gives one. Through all of them the open blocks are a stack of columns that grows
from zero, and the indents that were returned and not matched, with those that are
pending, are as many as the open blocks. Each call but the last uses up some of a
budget that is fixed by the characters that are left, the open blocks and the pending
words. -/

namespace Unsugar

namespace Token

/-- By how much a token changes the number of indents that are not matched. -/
def indentation : Token → Int
  | .indent => 1
  | .outdent => -1
  | _ => 0

/-- Whether a token stands for the layout of lines. -/
def isLayout : Token → Bool
  | .newline => true
  | .indent => true
  | .outdent => true
  | _ => false

theorem indentation_of_isWord {token : Token} (isWord : token.isWord = true) :
    token.indentation = 0 := by
  cases token <;> first | rfl | cases isWord

theorem isLayout_of_isWord {token : Token} (isWord : token.isWord = true) :
    token.isLayout = false := by
  cases token <;> first | rfl | cases isWord

end Token

namespace Scanner

/-- Columns that grow strictly from zero, the largest first. -/
structure IsStack (levels : List Nat) : Prop where
  descending : levels.Pairwise (· > ·)
  bottom : levels.getLast? = some 0

theorem IsStack.ne_nil {levels : List Nat} (stack : IsStack levels) : levels ≠ [] := by
  rintro rfl
  cases stack.bottom

/-- Closing the blocks that are too deep leaves a stack. -/
theorem IsStack.dropWhile {levels : List Nat} (stack : IsStack levels) (width : Nat) :
    IsStack (levels.dropWhile (width < ·)) := by
  induction levels with
  | nil => exact stack
  | cons level outer induction =>
    rw [List.dropWhile_cons]
    split
    case isFalse => exact stack
    case isTrue deeper =>
      apply induction
      cases outer with
      | nil =>
        have bottom : level = 0 := Option.some.inj stack.bottom
        simp [bottom] at deeper
      | cons next outer =>
        refine ⟨(List.pairwise_cons.mp stack.descending).2, ?_⟩
        rw [← stack.bottom, List.getLast?_cons_cons]

theorem IsStack.drop_eq {levels : List Nat} (stack : IsStack levels) :
    levels.drop (levels.length - 1) = [0] := by
  rw [List.drop_length_sub_one stack.ne_nil]
  have bottom := stack.bottom
  rw [List.getLast?_eq_some_getLast stack.ne_nil] at bottom
  rw [Option.some.inj bottom]

/-- What holds of a scanner of a text between calls and between rounds. -/
structure Steady (scanner : Scanner) : Prop extends InText scanner where
  stack : IsStack scanner.levels
  pending_le : scanner.pending ≤ scanner.height
  waiting : scanner.pending ≠ 0 → scanner.depth = 0 ∨ scanner.Ended
  starting : scanner.lineStart = true → scanner.pending = 0

theorem steady_ofText (file : String) (text : List Char) : Steady (ofText file text) where
  supply := rfl
  line := Nat.one_pos
  column := Nat.one_pos
  stack := ⟨List.pairwise_singleton _ _, rfl⟩
  pending_le := Int.le_refl 0
  waiting := fun pending => absurd rfl pending
  starting := fun _ => rfl

/-- A bound on the calls that are left when no word is pending. A character gives at
most two words, since the blank that opens a block is also what closes it. -/
def reserve (scanner : Scanner) : Nat :=
  if scanner.Ended then
    scanner.height + (if scanner.lineStart ∨ scanner.height = 0 then 0 else 1) + 1
  else 2 * scanner.size + scanner.height + 1

/-- A bound on the calls that are left. -/
def budget (scanner : Scanner) : Nat :=
  scanner.pending.natAbs + scanner.reserve

theorem budget_pos (scanner : Scanner) : 0 < scanner.budget := by
  unfold budget reserve
  split <;> omega

theorem budget_lt_of_shorter {before after : Scanner} (more : ¬before.Ended)
    (shorter : after.size < before.size)
    (cheaper : after.pending.natAbs + after.height ≤ before.pending.natAbs + before.height) :
    after.budget < before.budget := by
  unfold budget reserve
  rw [if_neg more]
  split
  · split <;> omega
  · omega

/-- A round that gives no word. -/
structure Round (before after : Scanner) : Prop where
  steady : after.Steady
  file : after.file = before.file
  depth : after.depth = before.depth
  balance : (after.height : Int) - after.pending = before.height - before.pending
  size_le : after.size ≤ before.size
  budget_le : after.budget ≤ before.budget

end Scanner

namespace Lexer

open Scanner

/-- A word without characters at the end of the text. -/
def AtEnd (lexeme : Lexeme) (scanner : Scanner) : Prop :=
  scanner.Ended ∧ lexeme.start = scanner.position

/-- The end of the text, with nothing left to return. -/
structure Finished (lexeme : Lexeme) (scanner : Scanner) : Prop where
  lexeme : lexeme = ⟨.endOfFile, "", scanner.position⟩
  ended : scanner.Ended
  height : scanner.height = 0
  pending : scanner.pending = 0
  lineStart : scanner.lineStart = false

/-- A call that gives a word. -/
structure Call (before : Scanner) (lexeme : Lexeme) (after : Scanner) : Prop where
  steady : after.Steady
  file : after.file = before.file
  balance : (after.height : Int) - after.pending =
    before.height - before.pending + lexeme.token.indentation
  depth : (after.depth : Int) = before.depth + lexeme.token.nesting
  layout : lexeme.token.isLayout = true → after.depth = 0 ∨ AtEnd lexeme after
  last : lexeme.token = .endOfFile → Finished lexeme after
  size_le : after.size ≤ before.size
  budget_lt : lexeme.token ≠ .endOfFile → after.budget < before.budget

theorem Call.of_round {before middle after : Scanner} {lexeme : Lexeme}
    (round : Round before middle) (call : Call middle lexeme after) :
    Call before lexeme after where
  steady := call.steady
  file := call.file.trans round.file
  balance := by rw [call.balance, round.balance]
  depth := by rw [call.depth, round.depth]
  layout := call.layout
  last := call.last
  size_le := Nat.le_trans call.size_le round.size_le
  budget_lt := fun more => Nat.lt_of_lt_of_le (call.budget_lt more) round.budget_le

/-! ## Pending words -/

/-- A pending word that is returned. -/
theorem Call.of_pending {scanner : Scanner} {lexeme : Lexeme} {changed : Int}
    (steady : scanner.Steady) (pending : scanner.pending ≠ 0)
    (fewer : changed.natAbs < scanner.pending.natAbs) (bound : changed ≤ scanner.height)
    (indentation : lexeme.token.indentation = scanner.pending - changed)
    (nesting : lexeme.token.nesting = 0) (more : lexeme.token ≠ .endOfFile)
    (start : lexeme.start = scanner.position) :
    Call scanner lexeme { scanner with pending := changed } where
  steady :=
    { supply := steady.supply
      line := steady.line
      column := steady.column
      stack := steady.stack
      pending_le := bound
      waiting := fun _ => steady.waiting pending
      starting := fun start => absurd (steady.starting start) pending }
  file := rfl
  balance := by
    change (scanner.height : Int) - changed = _
    omega
  depth := by rw [nesting, Int.add_zero]
  layout := fun _ => (steady.waiting pending).imp_right fun ended => ⟨ended, start⟩
  last := fun last => absurd last more
  size_le := Nat.le_refl _
  budget_lt := fun _ => Nat.add_lt_add_right fewer scanner.reserve

theorem pendingWord_ends {scanner : Scanner} {fails : Fault → Prop} (steady : scanner.Steady)
    (pending : scanner.pending ≠ 0) : Ends pendingWord scanner (Call scanner) fails := by
  have bound := steady.pending_le
  refine .get (.ite (fun negative => .set (.get (.pure ?_))) fun positive => .set (.get (.pure ?_)))
  · refine .of_pending steady pending ?_ ?_ ?_ rfl (nofun) rfl
    · omega
    · omega
    · change (-1 : Int) = _
      omega
  · refine .of_pending steady pending ?_ ?_ ?_ rfl (nofun) rfl
    · omega
    · omega
    · change (1 : Int) = _
      omega

/-! ## Indentation -/

/-- An indentation is made of characters of the line, some of them if it is wide, and
none at the end of the text. -/
theorem measure_skips (width column : Nat) (chars : List Char) :
    ∃ count, (measure width column chars).2 = (column + count, chars.drop count) ∧
      (width < (measure width column chars).1 → 0 < count ∧
        ∃ char rest, chars = char :: rest ∧ isBreak char = false) ∧
      (seen (chars.headD '\x00') = '\x00' → count = 0) := by
  have further : ∀ {width column count : Nat} {blank : Char} {rest : List Char}
      {taken : Nat × Nat × List Char}, taken.2 = (column + 1 + count, rest.drop count) →
      isBreak blank = false → seen blank ≠ '\x00' →
      ∃ count, taken.2 = (column + count, (blank :: rest).drop count) ∧
        (width < taken.1 → 0 < count ∧
          ∃ char others, blank :: rest = char :: others ∧ isBreak char = false) ∧
        (seen ((blank :: rest).headD '\x00') = '\x00' → count = 0) := by
    intro width column count blank rest taken same inLine some
    refine ⟨count + 1, ?_, fun _ => ⟨Nat.succ_pos count, blank, rest, rfl, inLine⟩, ?_⟩
    · rw [same, List.drop_succ_cons, Nat.add_assoc, Nat.add_comm 1]
    · exact fun ended => absurd ended some
  fun_induction measure width column chars with
  | case1 width column rest induction =>
    obtain ⟨count, same, -⟩ := induction
    exact further same rfl (by decide)
  | case2 width column rest induction =>
    obtain ⟨count, same, -⟩ := induction
    exact further same rfl (by decide)
  | case3 width column rest induction =>
    obtain ⟨count, same, -⟩ := induction
    exact further same rfl (by decide)
  | case4 width column rest =>
    exact ⟨0, rfl, fun wider => absurd wider (Nat.lt_irrefl width), fun _ => rfl⟩

/-- What measuring an indentation leaves: a scanner after it, further on if it is wide. -/
structure Indented (width : Nat) (before after : Scanner) : Prop where
  placed : after.InText
  file : after.file = before.file
  depth : after.depth = before.depth
  levels : after.levels = before.levels
  pending : after.pending = before.pending
  lineStart : after.lineStart = false
  size_le : after.size ≤ before.size
  wider : 0 < width → after.size < before.size
  ended : before.Ended → after.Ended

theorem indented_of_measure {scanner : Scanner} {width column : Nat} {rest : List Char}
    (placed : scanner.InText)
    (measured : measure 0 scanner.column scanner.rest = (width, column, rest)) :
    Indented width scanner { scanner with column, rest, lineStart := false } := by
  obtain ⟨count, same, wide, stays⟩ := measure_skips 0 scanner.column scanner.rest
  rw [measured] at same wide
  obtain ⟨rfl, rfl⟩ := Prod.mk.inj same
  have moved := reads_skip scanner count
  exact
    { placed := ⟨placed.supply, placed.line, (moved.inText placed).column⟩
      file := rfl
      depth := rfl
      levels := rfl
      pending := rfl
      lineStart := rfl
      size_le := moved.size_le
      wider := fun wider => by
        obtain ⟨positive, char, rest, begins, inLine⟩ := wide wider
        exact size_skip_lt positive begins inLine
      ended := fun ended => by
        have unmoved := stays ended
        subst unmoved
        exact ended }

/-- Aligning changes the open blocks and the pending words together. -/
structure Aligned (width : Nat) (before : Scanner) (levels : List Nat) (pending : Int) : Prop where
  stack : IsStack levels
  balance : (levels.length : Int) - pending = before.levels.length - before.pending
  opens : pending ≤ before.pending ∨ (pending = before.pending + 1 ∧ 0 < width)

theorem innermost_ends {scanner : Scanner} {level : Nat} {outer : List Nat}
    {gives : Nat → Scanner → Prop} {fails : Fault → Prop} (begins : scanner.levels = level :: outer)
    (holds : gives level scanner) : Ends innermost scanner gives fails := by
  refine .get ?_
  rw [begins]
  exact .pure holds

theorem align_ends {width : Nat} {scanner : Scanner} (placed : scanner.InText)
    (stack : IsStack scanner.levels) :
    Ends (align width) scanner
      (fun _ after => ∃ levels pending, after = { scanner with levels, pending } ∧
        Aligned width scanner levels pending) (Fault.IsOfText scanner.file) := by
  obtain ⟨current, outer, found⟩ := List.exists_cons_of_ne_nil stack.ne_nil
  refine .get (.bind (innermost_ends found ?_))
  refine .ite (fun deeper => .put ?_) fun _ => .ite (fun _ => .set ?_) fun _ => .pure ?_
  · refine ⟨_, _, rfl, ⟨?_, ?_⟩, ?_, .inr ⟨rfl, Nat.lt_of_le_of_lt (Nat.zero_le _) deeper⟩⟩
    · refine List.pairwise_cons.mpr ⟨fun level member => ?_, stack.descending⟩
      have below := (List.pairwise_cons.mp (found ▸ stack.descending)).1
      rcases List.mem_cons.mp (found ▸ member) with rfl | member
      · exact deeper
      · exact Nat.lt_trans (below level member) deeper
    · rw [found, List.getLast?_cons_cons, ← found]
      exact stack.bottom
    · simp only [List.length_cons]
      omega
  · have kept := stack.dropWhile width
    have shorter : (scanner.levels.dropWhile (width < ·)).length ≤ scanner.levels.length :=
      (List.dropWhile_suffix _).length_le
    obtain ⟨level, rest, begins⟩ := List.exists_cons_of_ne_nil kept.ne_nil
    refine .bind (innermost_ends begins (.ite (fun _ => isOfText_position placed rfl) fun _ => ?_))
    refine .pure ⟨_, _, rfl, kept, ?_, .inl ?_⟩ <;> omega
  · exact ⟨_, _, rfl, stack, rfl, .inl (Int.le_refl _)⟩

/-- What opening a line leaves: a scanner further on in the text, with the words that the
indentation calls for. -/
structure Opened (before after : Scanner) : Prop where
  steady : after.Steady
  file : after.file = before.file
  depth : after.depth = before.depth
  lineStart : after.lineStart = false
  settled : after.pending = 0 → before.pending = 0
  balance : (after.height : Int) - after.pending = before.height - before.pending
  size_le : after.size ≤ before.size
  ended : before.Ended → after.Ended
  budget_le : after.pending ≠ 0 → after.budget ≤ before.budget

/-- Blocks that are opened or closed after an indentation. -/
theorem Opened.of_aligned {width : Nat} {before middle : Scanner} {levels : List Nat}
    {changed : Int} (steady : before.Steady) (starts : before.lineStart = true)
    (indented : Indented width before middle) (aligned : Aligned width middle levels changed)
    (waits : changed ≠ 0 → middle.depth = 0 ∧ ¬middle.Ended) :
    Opened before { middle with levels, pending := changed } := by
  have settled := steady.starting starts
  have none : middle.pending = 0 := indented.pending.trans settled
  have height : middle.levels.length - 1 = before.height := by
    rw [indented.levels]
    rfl
  have some := List.length_pos_iff.mpr aligned.stack.ne_nil
  have once : 0 < middle.levels.length :=
    indented.levels ▸ List.length_pos_iff.mpr steady.stack.ne_nil
  have opens := aligned.opens
  have balance : ((levels.length - 1 : Nat) : Int) - changed =
      before.height - before.pending := by
    have := aligned.balance
    omega
  have placed := indented.placed
  exact
    { steady :=
        { toInText := ⟨placed.supply, placed.line, placed.column⟩
          stack := aligned.stack
          pending_le := by
            change changed ≤ ((levels.length - 1 : Nat) : Int)
            omega
          waiting := fun pending => .inl (waits pending).1
          starting := fun starts => by
            rw [show _ = false from indented.lineStart] at starts
            cases starts }
      file := indented.file
      depth := indented.depth
      lineStart := indented.lineStart
      settled := fun _ => settled
      balance := balance
      size_le := indented.size_le
      ended := indented.ended
      -- A block that opens costs a call, which the indentation pays for.
      budget_le := fun pending => by
        have more := (waits pending).2
        have early : ¬before.Ended := fun early => more (indented.ended early)
        have late : ¬Ended { middle with levels, pending := changed } := more
        change changed.natAbs + reserve { middle with levels, pending := changed } ≤ _
        unfold budget reserve
        rw [if_neg early, if_neg late]
        change changed.natAbs + (2 * middle.size + (levels.length - 1) + 1) ≤ _
        have shorter := indented.size_le
        rcases opens with _ | ⟨_, deep⟩
        · omega
        · have := indented.wider deep
          omega }

theorem startLine_ends {scanner : Scanner} (steady : scanner.Steady)
    (starts : scanner.lineStart = true) :
    Ends startLine scanner (fun _ => Opened scanner) (Fault.IsOfText scanner.file) := by
  refine .bind (.fill steady.supply (.get ?_))
  cases measured : measure 0 scanner.column scanner.rest with
  | mk width place =>
  obtain ⟨column, rest⟩ := place
  have indented := indented_of_measure steady.toInText measured
  refine .set (.bind (.peek steady.supply ?_))
  revert indented
  -- The scanner after the indentation, before any block is opened or closed.
  generalize { scanner with column, rest, lineStart := false } = middle
  intro indented
  have stack : IsStack middle.levels := indented.levels ▸ steady.stack
  refine .ite (fun both => ?_) fun _ => .pure ?_
  · simp only [Bool.and_eq_true, Bool.not_eq_true', beq_iff_eq] at both
    have more : ¬middle.Ended := by
      intro ended
      have blank : endsBlank middle.front = true := by simp [endsBlank, show _ = _ from ended]
      rw [blank] at both
      cases both.1
    rw [← indented.file]
    refine (align_ends indented.placed stack).after fun _ after aligned => ?_
    obtain ⟨levels, changed, rfl, aligned⟩ := aligned
    exact .pure (.of_aligned steady starts indented aligned
      fun _ => ⟨indented.depth.trans both.2, more⟩)
  · have unchanged : Aligned width middle middle.levels middle.pending :=
      ⟨stack, rfl, .inl (Int.le_refl _)⟩
    exact .of_aligned steady starts indented unchanged
      fun waits => absurd (indented.pending.trans (steady.starting starts)) waits

theorem Opened.round {before after : Scanner} (opened : Opened before after)
    (pending : after.pending ≠ 0) : Round before after :=
  ⟨opened.steady, opened.file, opened.depth, opened.balance, opened.size_le,
    opened.budget_le pending⟩

theorem openLine_ends {scanner : Scanner} (steady : scanner.Steady) :
    Ends openLine scanner (fun _ => Opened scanner) (Fault.IsOfText scanner.file) := by
  refine .get (.ite (fun starts => startLine_ends steady starts) fun going => .pure ?_)
  exact
    { steady := steady
      file := rfl
      depth := rfl
      lineStart := by simpa using going
      settled := id
      balance := rfl
      size_le := Nat.le_refl _
      ended := id
      budget_le := fun _ => Nat.le_refl _ }

/-! ## Blanks -/

theorem skip_fitting_of_ended {scanner : Scanner} {fit : Char → Bool} (ended : scanner.Ended)
    (unfit : fit '\x00' = false) : scanner.skip (fitting fit scanner) = scanner := by
  have none : fitting fit scanner = 0 := by
    unfold Ended front at ended
    unfold fitting
    cases begins : scanner.rest with
    | nil => rfl
    | cons char rest =>
      rw [begins] at ended
      rw [List.takeWhile_cons_of_neg]
      · rfl
      · rw [show seen char = '\x00' from ended, unfit]
        exact Bool.false_ne_true
  rw [none]
  rfl

theorem skipBlanks_ends {scanner : Scanner} {fails : Fault → Prop} (text : scanner.supply = none) :
    Ends skipBlanks scanner
      (fun _ after => Reads scanner after ∧ (scanner.Ended → after.Ended)) fails := by
  refine .bind (.takeWhile text ?_)
  have blanks : ∀ count, Reads scanner (scanner.skip count) := reads_skip scanner
  have ended : scanner.Ended → scanner.skip (fitting isGap scanner) = scanner :=
    fun ended => skip_fitting_of_ended ended rfl
  refine .bind (.peek text (.ite (fun comment => ?_) fun _ => .pure ⟨blanks _, fun early => ?_⟩))
  · refine .bind (.takeWhile text (.pure ⟨(blanks _).trans (reads_skip _ _), fun early => ?_⟩))
    rw [ended early] at comment
    exact absurd (early.symm.trans (beq_iff_eq.mp comment)) (by decide)
  · rw [ended early]
    exact early

/-! ## Calls -/

theorem next_of_pending {scanner : Scanner} {fails : Fault → Prop} (steady : scanner.Steady)
    (pending : scanner.pending ≠ 0) (fuel : Nat) :
    Ends (next (fuel + 1)) scanner (Call scanner) fails := by
  have going : ¬scanner.lineStart = true := fun starts => pending (steady.starting starts)
  refine .get (.bind (.get (.ite (fun starts => absurd starts going) fun _ => .pure (.get ?_))))
  exact .ite (fun _ => pendingWord_ends steady pending) fun none => absurd pending none

theorem skipBlanks_of_ended {scanner : Scanner} {fails : Fault → Prop}
    {gives : Unit → Scanner → Prop} (text : scanner.supply = none) (ended : scanner.Ended)
    (holds : gives () scanner) : Ends skipBlanks scanner gives fails := by
  refine .bind (.takeWhile text ?_)
  rw [skip_fitting_of_ended ended rfl]
  refine .bind (.peek text (.ite (fun comment => ?_) fun _ => .pure holds))
  rw [show scanner.front = '\x00' from ended] at comment
  cases comment

/-- At the end of the text each call gives the same word, and reads nothing. -/
theorem next_of_finished {scanner : Scanner} {lexeme : Lexeme} (text : scanner.supply = none)
    (finished : Finished lexeme scanner) (fuel : Nat) :
    next (fuel + 1) scanner = .ok lexeme scanner := by
  apply Ends.eq
  have going := finished.lineStart
  refine .get (.bind (.get (.ite (fun starts => ?_) fun _ => .pure (.get ?_))))
  · rw [going] at starts
    cases starts
  · refine .ite (fun waits => absurd finished.pending waits) fun _ => ?_
    refine .bind (skipBlanks_of_ended text finished.ended (.bind (.peek text ?_)))
    rw [show scanner.front = '\x00' from finished.ended]
    refine .get (.ite (fun _ => .get (.pure ⟨finished.lexeme.symm, rfl⟩)) fun deep => ?_)
    exact absurd finished.height deep

/-- A scanner at the first character of a line that is not blank, with no word pending. -/
structure Begun (before after : Scanner) : Prop where
  placed : after.InText
  stack : IsStack after.levels
  file : after.file = before.file
  depth : after.depth = before.depth
  lineStart : after.lineStart = false
  pending : after.pending = 0
  settled : before.pending = 0
  height : after.height = before.height
  size_le : after.size ≤ before.size
  ended : before.Ended → after.Ended

theorem Begun.of_reads {before middle after : Scanner} (opened : Opened before middle)
    (none : middle.pending = 0) (reads : Reads middle after)
    (ended : middle.Ended → after.Ended) : Begun before after where
  placed := reads.inText opened.steady.toInText
  stack := reads.levels ▸ opened.steady.stack
  file := reads.file.trans opened.file
  depth := reads.depth.trans opened.depth
  lineStart := reads.lineStart.trans opened.lineStart
  pending := reads.pending.trans none
  settled := opened.settled none
  height := by
    have balance := opened.balance
    rw [none, opened.settled none] at balance
    rw [reads.height]
    omega
  size_le := Nat.le_trans reads.size_le opened.size_le
  ended := ended ∘ opened.ended

/-- Characters that are taken after the beginning of a line are worth a call. -/
theorem Begun.budget_lt {before begun after : Scanner} (ready : Begun before begun)
    (more : ¬begun.Ended) (shorter : after.size < begun.size)
    (height : after.height = begun.height) (pending : after.pending = begun.pending) :
    after.budget < before.budget := by
  have smaller : after.size < before.size := Nat.lt_of_lt_of_le shorter ready.size_le
  refine budget_lt_of_shorter (more ∘ ready.ended) smaller (Nat.le_of_eq ?_)
  rw [height, pending, ready.height, ready.pending, ready.settled]

/-- The scanner after the characters that a round takes. -/
theorem Begun.further {before begun after : Scanner} (starts : Bool) (ready : Begun before begun)
    (more : ¬begun.Ended) (reads : Reads { begun with lineStart := starts } after)
    (shorter : after.size < begun.size) :
    Round before after ∧ after.budget < before.budget := by
  have height : after.height = before.height := reads.height.trans ready.height
  have pending : after.pending = 0 := reads.pending.trans ready.pending
  have cheaper := ready.budget_lt more shorter reads.height reads.pending
  refine ⟨⟨?_, reads.file.trans ready.file, reads.depth.trans ready.depth, ?_, ?_, ?_⟩, cheaper⟩
  · exact
      { toInText := reads.inText ⟨ready.placed.supply, ready.placed.line, ready.placed.column⟩
        stack := reads.levels ▸ ready.stack
        pending_le := by omega
        waiting := fun waits => absurd pending waits
        starting := fun _ => pending }
  · rw [height, pending, ready.settled]
  · exact Nat.le_of_lt (Nat.lt_of_lt_of_le shorter ready.size_le)
  · exact Nat.le_of_lt cheaper

/-- A call that returns a word of the line. -/
theorem Begun.word {before begun after : Scanner} {lexeme : Lexeme} (ready : Begun before begun)
    (more : ¬begun.Ended) (word : Word begun lexeme after) : Call before lexeme after := by
  have same : after.height = begun.height := congrArg (·.length - 1) word.levels
  have height : after.height = before.height := same.trans ready.height
  have pending : after.pending = 0 := word.pending.trans ready.pending
  have isWord := word.isWord
  exact
    { steady :=
        { toInText := word.inText
          stack := word.levels ▸ ready.stack
          pending_le := by omega
          waiting := fun waits => absurd pending waits
          starting := fun _ => pending }
      file := word.file.trans ready.file
      balance := by
        rw [height, pending, ready.settled, Token.indentation_of_isWord isWord, Int.add_zero]
      depth := by rw [word.depth, ready.depth]
      layout := fun layout => by
        rw [Token.isLayout_of_isWord isWord] at layout
        cases layout
      last := fun last => by
        rw [last] at isWord
        cases isWord
      size_le := Nat.le_of_lt (Nat.lt_of_lt_of_le word.shorter ready.size_le)
      budget_lt := fun _ => ready.budget_lt more word.shorter same word.pending }

/-- A call that returns the end of a line after reading it. -/
theorem Begun.newline {before begun after : Scanner} {lexeme : Lexeme}
    (ready : Begun before begun) (more : ¬begun.Ended) (flat : begun.depth = 0)
    (reads : Reads { begun with lineStart := true } after) (shorter : after.size < begun.size)
    (token : lexeme.token = .newline) : Call before lexeme after := by
  obtain ⟨round, cheaper⟩ := ready.further true more reads shorter
  exact
    { steady := round.steady
      file := round.file
      balance := by
        rw [round.balance, token]
        exact (Int.add_zero _).symm
      depth := by
        rw [round.depth, token]
        exact (Int.add_zero _).symm
      layout := fun _ => .inl (reads.depth.trans flat)
      last := fun last => by
        rw [token] at last
        cases last
      size_le := round.size_le
      budget_lt := fun _ => cheaper }

/-- A call that returns the end of a line that the text leaves open. -/
theorem Begun.missingNewline {before begun : Scanner} {lexeme : Lexeme}
    (ready : Begun before begun) (ended : begun.Ended) (deep : begun.height ≠ 0)
    (going : ¬before.lineStart = true) (token : lexeme.token = .newline)
    (start : lexeme.start = begun.position) :
    Call before lexeme { begun with lineStart := true } := by
  have height := ready.height
  exact
    { steady :=
        { toInText := ⟨ready.placed.supply, ready.placed.line, ready.placed.column⟩
          stack := ready.stack
          pending_le := by
            change begun.pending ≤ begun.height
            rw [ready.pending]
            omega
          waiting := fun _ => .inr ended
          starting := fun _ => ready.pending }
      file := ready.file
      balance := by
        change (begun.height : Int) - begun.pending = _
        rw [height, ready.pending, ready.settled, token]
        exact (Int.add_zero _).symm
      depth := by
        change (begun.depth : Int) = _
        rw [ready.depth, token]
        exact (Int.add_zero _).symm
      layout := fun _ => .inr ⟨ended, start⟩
      last := fun last => by
        rw [token] at last
        cases last
      size_le := ready.size_le
      budget_lt := fun _ => by
        have after : budget { begun with lineStart := true } = begun.height + 1 := by
          unfold budget reserve
          rw [if_pos (show Ended { begun with lineStart := true } from ended)]
          change begun.pending.natAbs + (begun.height + _ + 1) = _
          rw [ready.pending, if_pos (.inl rfl)]
          simp
        rw [after, height]
        unfold budget reserve
        rw [ready.settled]
        split
        case isTrue =>
          have open_ : ¬(before.lineStart = true ∨ before.height = 0) := by
            rintro (starts | none)
            · exact going starts
            · exact deep (height.trans none)
          rw [if_neg open_]
          omega
        case isFalse more =>
          have := size_pos_of_not_ended more
          omega }

/-- A call that returns the end of the text. -/
theorem Begun.endOfFile {before begun : Scanner} (ready : Begun before begun)
    (ended : begun.Ended) (flat : begun.height = 0) :
    Call before ⟨.endOfFile, "", begun.position⟩ begun where
  steady :=
    { toInText := ready.placed
      stack := ready.stack
      pending_le := by
        rw [ready.pending]
        omega
      waiting := fun waits => absurd ready.pending waits
      starting := fun _ => ready.pending }
  file := ready.file
  balance := by
    rw [ready.height, ready.pending, ready.settled]
    exact (Int.add_zero _).symm
  depth := by
    rw [ready.depth]
    exact (Int.add_zero _).symm
  layout := nofun
  last := fun _ => ⟨rfl, ended, flat, ready.pending, ready.lineStart⟩
  size_le := ready.size_le
  budget_lt := fun more => absurd rfl more

/-- A round that closes all blocks at the end of the text. -/
theorem Begun.closing {before begun : Scanner} (ready : Begun before begun)
    (ended : begun.Ended) :
    Round before { begun with
      levels := begun.levels.drop begun.height, pending := -(begun.height : Int) } := by
  have height := ready.height
  have bottom : begun.levels.drop begun.height = [0] := ready.stack.drop_eq
  rw [bottom]
  exact
    { steady :=
        { toInText := ⟨ready.placed.supply, ready.placed.line, ready.placed.column⟩
          stack := ⟨List.pairwise_singleton _ _, rfl⟩
          pending_le := by
            change -(begun.height : Int) ≤ 0
            omega
          waiting := fun _ => .inr ended
          starting := fun starts => by
            rw [show _ = false from ready.lineStart] at starts
            cases starts }
      file := ready.file
      depth := ready.depth
      balance := by
        change (0 : Int) - -(begun.height : Int) = _
        rw [ready.settled]
        omega
      size_le := ready.size_le
      budget_le := by
        have after : budget { begun with levels := [0], pending := -(begun.height : Int) } =
            begun.height + 1 := by
          unfold budget reserve
          rw [if_pos (show Ended { begun with levels := [0], pending := -(begun.height : Int) }
            from ended)]
          change (-(begun.height : Int)).natAbs + (0 + _ + 1) = _
          rw [if_pos (.inr rfl)]
          omega
        rw [after, height]
        unfold budget reserve
        split <;> omega }

theorem next_ends (fuel : Nat) : ∀ {scanner : Scanner}, scanner.Steady → scanner.size + 2 ≤ fuel →
    Ends (next fuel) scanner (Call scanner) (Fault.IsOfText scanner.file) := by
  induction fuel with
  | zero =>
    intro scanner _ enough
    exact absurd enough (Nat.not_succ_le_zero _)
  | succ fuel induction =>
    intro scanner steady enough
    refine .get (.after (openLine_ends steady) fun blank opened opens => .get ?_)
    refine .ite (fun pending => ?_) fun pending => ?_
    · have round := opens.round pending
      exact (pendingWord_ends opens.steady pending).imp fun _ _ => Call.of_round round
    have none : opened.pending = 0 := by simpa using pending
    refine (skipBlanks_ends opens.steady.supply).after fun _ begun skipped => ?_
    have ready := Begun.of_reads opens none skipped.1 skipped.2
    have text := ready.placed.supply
    -- A round that takes characters leaves the rest to the rounds after it.
    have again : ∀ starts after, ¬begun.Ended → Reads { begun with lineStart := starts } after →
        after.size < begun.size →
        Ends (next fuel) after (Call scanner) (Fault.IsOfText scanner.file) := by
      intro starts after more reads shorter
      obtain ⟨round, -⟩ := ready.further starts more reads shorter
      have bound := ready.size_le
      have ended := induction round.steady (by omega)
      rw [round.file] at ended
      exact ended.imp fun _ _ => Call.of_round round
    refine .bind (.peek text ?_)
    refine .ite (fun feed => ?_) fun other => .ite (fun null => ?_) fun more =>
      .ite (fun slash => ?_) fun _ => ?_
    -- A line break, which is read over inside brackets and after a blank line.
    · have more : ¬begun.Ended := fun ended => by
        rw [show begun.front = '\x00' from ended] at feed
        cases feed
      have some := rest_ne_nil more
      refine .change (.get (.ite (fun _ => ?_) fun inside => .ite (fun blank => ?_) fun _ => ?_))
      · refine .bind (.read text some fun after reads size => ?_)
        exact again true after more reads (Nat.lt_of_succ_le (Nat.le_of_eq size))
      · simp [text] at inside blank
        exact absurd (inside.2.symm.trans blank.1) Bool.false_ne_true
      · refine .get (.bind (.read text some fun after reads size => .pure ?_))
        have flat : begun.depth = 0 := by
          simp only [Bool.or_eq_true, decide_eq_true_eq, not_or, Nat.not_lt] at inside
          exact Nat.le_zero.mp inside.1
        exact ready.newline more flat reads (Nat.lt_of_succ_le (Nat.le_of_eq size)) rfl
    -- The end of the text, before which the last line and all blocks end.
    · have ended : begun.Ended := beq_iff_eq.mp null
      refine .get (.ite (fun flat => .get (.pure ?_)) fun deep =>
        .ite (fun starts => ?_) fun going => ?_)
      · exact ready.endOfFile ended flat
      · have round := ready.closing ended
        obtain ⟨less, rfl⟩ : ∃ less, fuel = less + 1 := ⟨fuel - 1, by omega⟩
        have pending : -(begun.height : Int) ≠ 0 := by omega
        exact .change ((next_of_pending round.steady pending less).imp
          fun _ _ => Call.of_round round)
      · exact .change (.get (.pure (ready.missingNewline ended deep going rfl rfl)))
    -- A backslash, which must stand before a line break.
    · have slash : begun.front = '\\' := beq_iff_eq.mp slash
      have more : ¬begun.Ended := fun ended => absurd (slash.symm.trans ended) (by decide)
      refine .bind (.read text (rest_ne_nil more) fun next reads size => ?_)
      have placed := reads.inText ready.placed
      refine .bind (.peek placed.supply (.ite (fun _ => ?_) fun feed => ?_))
      · rw [← ready.file, ← reads.file]
        exact isOfText_position placed rfl
      · have feed : next.front = '\n' := by simpa using feed
        have follows : next.rest ≠ [] := rest_ne_nil (by simp [feed])
        refine .bind (.read placed.supply follows fun last after smaller => ?_)
        exact again begun.lineStart last more (reads.trans after) (by omega)
    · have more : begun.front ≠ '\x00' := by simpa using more
      have plain : isBreak begun.front = false := isBreak_front (by simpa using other)
      have bound := ready.size_le
      have enough : begun.size ≤ fuel := by omega
      have taken := wordAt_ends ready.placed more plain enough
      rw [ready.file] at taken
      exact taken.imp fun _ _ => ready.word more

end Lexer
end Unsugar
