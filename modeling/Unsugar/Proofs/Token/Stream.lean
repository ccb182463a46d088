import Unsugar.Proofs.Text.Utf8
import Unsugar.Proofs.Token.Fuel

/-! The words of a whole text. The calls of the scanner follow one another until one
gives the end of the text or a fault of it, and the budget of the first scanner bounds
their number. What each call keeps holds after every call, so indents and outdents are
balanced, and no line ends inside brackets. -/

namespace Unsugar

namespace Token

def isIndent (token : Token) : Bool :=
  token = .indent

def isOutdent (token : Token) : Bool :=
  token = .outdent

def isOpening : Token → Bool
  | .symbol mark => Lexer.isOpening mark
  | _ => false

def isClosing : Token → Bool
  | .symbol mark => Lexer.isClosing mark
  | _ => false

theorem nesting_eq (token : Token) :
    token.nesting = (token.isOpening.toNat : Int) - token.isClosing.toNat := by
  cases token with
  | symbol mark => cases mark <;> rfl
  | _ => rfl

theorem indentation_eq (token : Token) :
    token.indentation = (token.isIndent.toNat : Int) - token.isOutdent.toNat := by
  cases token <;> rfl

end Token

namespace Stream

/-- The calls that give a word, each with the scanner after it. -/
def calls : Stream Scanner → List (Lexeme × Scanner)
  | failed _ _ => []
  | last lexeme after => [(lexeme, after)]
  | word lexeme after rest => (lexeme, after) :: rest.calls

/-- The number of calls, with the one that fails. -/
def length : Stream Scanner → Nat
  | failed _ _ => 1
  | last _ _ => 1
  | word _ _ rest => rest.length + 1

/-- The stream ends with a fault of the text, or with a word that each later call gives
again without reading anything. -/
def Finishes (file : String) : Stream Scanner → Prop
  | failed fault _ => fault.IsOfText file
  | last lexeme after =>
    lexeme.token = .endOfFile ∧ ∀ fuel, Lexer.next (fuel + 1) after = .ok lexeme after
  | word _ _ rest => rest.Finishes file

/-- How many of some calls give a token of a kind. -/
def tally (kind : Token → Bool) (calls : List (Lexeme × Scanner)) : Nat :=
  calls.countP fun call => kind call.1.token

theorem tally_cons (kind : Token → Bool) (lexeme : Lexeme) (after : Scanner)
    (calls : List (Lexeme × Scanner)) :
    tally kind ((lexeme, after) :: calls) = tally kind calls + (kind lexeme.token).toNat := by
  rw [tally, List.countP_cons]
  cases kind lexeme.token <;> rfl

end Stream

namespace Lexer

open Scanner

/-- Calls one after the other. -/
inductive Calls : Scanner → List (Lexeme × Scanner) → Scanner → Prop where
  | none {scanner : Scanner} : Calls scanner [] scanner
  | more {scanner after final : Scanner} {lexeme : Lexeme} {rest : List (Lexeme × Scanner)}
      (call : Call scanner lexeme after) (calls : Calls after rest final) :
      Calls scanner ((lexeme, after) :: rest) final

/-- A stream of calls, each going on from where the one before stopped. -/
inductive Run : Scanner → Stream Scanner → Prop where
  | failed {scanner after : Scanner} {fault : Fault} (isOfText : fault.IsOfText scanner.file) :
      Run scanner (.failed fault after)
  | last {scanner after : Scanner} {lexeme : Lexeme} (call : Call scanner lexeme after)
      (ends : lexeme.token = .endOfFile) : Run scanner (.last lexeme after)
  | word {scanner after : Scanner} {lexeme : Lexeme} {rest : Stream Scanner}
      (call : Call scanner lexeme after) (more : lexeme.token ≠ .endOfFile)
      (run : Run after rest) : Run scanner (.word lexeme after rest)

/-! ## Every scanner of a text runs to an end -/

theorem run_of_budget_le {fuel : Nat} (count : Nat) : ∀ {scanner : Scanner}, scanner.Steady →
    scanner.size + 2 ≤ fuel → scanner.budget ≤ count →
    Run scanner (Stream.read fuel count scanner) := by
  induction count with
  | zero =>
    intro scanner _ _ spent
    exact absurd spent (Nat.not_le_of_gt (budget_pos scanner))
  | succ count induction =>
    intro scanner steady enough within
    have ended := next_ends fuel steady enough
    unfold Ends at ended
    unfold Stream.read
    revert ended
    cases next fuel scanner with
    | error fault after => exact .failed
    | ok lexeme after =>
      intro call
      dsimp only
      split
      case isTrue last => exact .last call last
      case isFalse more =>
        have cheaper := call.budget_lt more
        have smaller := call.size_le
        exact .word call more (induction call.steady (by omega) (by omega))

theorem budget_ofText_le (file : String) (text : List Char) :
    (ofText file text).budget ≤ 2 * (ofText file text).size + 1 := by
  unfold budget reserve
  split
  · exact Nat.le_add_left 1 _
  · exact Nat.le_of_eq (Nat.zero_add _)

theorem run_ofText (file : String) (text : List Char) :
    Run (ofText file text) (Stream.ofScanner (ofText file text)) := by
  have within := budget_ofText_le file text
  apply run_of_budget_le _ (steady_ofText file text)
  · omega
  · omega

/-- Larger bounds give the same words. -/
theorem Run.read_eq {fuel : Nat} (extra more : Nat) {count : Nat} : ∀ {scanner : Scanner},
    scanner.Steady → scanner.size + 2 ≤ fuel → Run scanner (Stream.read fuel count scanner) →
    Stream.read (fuel + extra) (count + more) scanner = Stream.read fuel count scanner := by
  induction count with
  | zero =>
    intro scanner _ _ run
    cases run with
    | failed isOfText => cases isOfText.2
  | succ count induction =>
    intro scanner steady enough run
    have same := next_eq_of_le steady enough (Nat.le_add_right fuel extra)
    rw [Nat.succ_add, Stream.read, Stream.read, same]
    rw [Stream.read] at run
    revert run
    cases next fuel scanner with
    | error fault after => exact fun _ => rfl
    | ok lexeme after =>
      dsimp only
      split
      case isTrue => exact fun _ => rfl
      case isFalse =>
        intro run
        cases run with
        | word call _ run =>
          have smaller := call.size_le
          rw [induction call.steady (by omega) run]

theorem Run.length_le {scanner : Scanner} {stream : Stream Scanner} (run : Run scanner stream) :
    stream.length ≤ scanner.budget := by
  induction run with
  | failed => exact budget_pos _
  | last => exact budget_pos _
  | word call more _ induction => exact Nat.lt_of_le_of_lt induction (call.budget_lt more)

theorem Run.finishes {scanner : Scanner} {stream : Stream Scanner} (run : Run scanner stream) :
    stream.Finishes scanner.file := by
  induction run with
  | failed isOfText => exact isOfText
  | last call ends => exact ⟨ends, next_of_finished call.steady.supply (call.last ends)⟩
  | word call _ _ induction =>
    rw [call.file] at induction
    exact induction

/-! ## What a run keeps -/

/-- Each call of a run comes after the calls before it. -/
theorem Run.calls_before {scanner : Scanner} {stream : Stream Scanner} (run : Run scanner stream) :
    ∀ {before rest : List (Lexeme × Scanner)} {lexeme : Lexeme} {after : Scanner},
      stream.calls = before ++ (lexeme, after) :: rest →
      ∃ middle, Calls scanner before middle ∧ Call middle lexeme after := by
  induction run with
  | failed =>
    intro before rest lexeme after split
    cases before <;> cases split
  | last call =>
    intro before rest lexeme after split
    cases before with
    | nil =>
      cases split
      exact ⟨_, .none, call⟩
    | cons first before => cases before <;> cases split
  | word call _ _ induction =>
    intro before rest lexeme after split
    cases before with
    | nil =>
      cases split
      exact ⟨_, .none, call⟩
    | cons first before =>
      obtain ⟨rfl, others⟩ := List.cons.inj split
      obtain ⟨middle, calls, next⟩ := induction others
      exact ⟨middle, .more call calls, next⟩

/-- Calls and one more call. -/
theorem Calls.concat {scanner middle after : Scanner} {lexeme : Lexeme}
    {calls : List (Lexeme × Scanner)} (before : Calls scanner calls middle)
    (call : Call middle lexeme after) : Calls scanner (calls ++ [(lexeme, after)]) after := by
  induction before with
  | none => exact .more call .none
  | more first _ induction => exact .more first (induction call)

/-- The indents that are not matched and those that are pending are the open blocks. -/
theorem Calls.balance {scanner final : Scanner} {calls : List (Lexeme × Scanner)}
    (run : Calls scanner calls final) : (final.height : Int) - final.pending =
      scanner.height - scanner.pending +
        (Stream.tally Token.isIndent calls - Stream.tally Token.isOutdent calls) := by
  induction run with
  | none => exact (Int.add_zero _).symm
  | more call _ induction =>
    rw [induction, call.balance, Token.indentation_eq, Stream.tally_cons, Stream.tally_cons]
    omega

/-- The brackets that are open are those that were opened and not closed. -/
theorem Calls.depth {scanner final : Scanner} {calls : List (Lexeme × Scanner)}
    (run : Calls scanner calls final) : (final.depth : Int) = scanner.depth +
      (Stream.tally Token.isOpening calls - Stream.tally Token.isClosing calls) := by
  induction run with
  | none => exact (Int.add_zero _).symm
  | more call _ induction =>
    rw [induction, call.depth, Token.nesting_eq, Stream.tally_cons, Stream.tally_cons]
    omega

/-- A stream that is not refused ends with the last call. -/
theorem Run.last_of_accepted {scanner : Scanner} {stream : Stream Scanner}
    (run : Run scanner stream) (accepted : stream.fault? = none) :
    ∃ lexeme final, Calls scanner stream.calls final ∧ Finished lexeme final := by
  induction run with
  | failed => cases accepted
  | last call ends => exact ⟨_, _, .more call .none, call.last ends⟩
  | word call _ _ induction =>
    obtain ⟨lexeme, final, calls, finished⟩ := induction accepted
    exact ⟨lexeme, final, .more call calls, finished⟩

end Lexer

namespace Stream

open Lexer Scanner

/-- The indentation of a text is balanced. After each call the columns of the open blocks
grow strictly from zero, there are as many of them as indents that are not matched or
pending, and the call gives no line end, indent or outdent inside brackets, unless it
stands at the end of the text. -/
theorem layout_balanced {file : String} {text : List Char}
    (accepted : (Stream.ofScanner (ofText file text)).fault? = none) :
    let calls := (Stream.ofScanner (ofText file text)).calls
    tally Token.isIndent calls = tally Token.isOutdent calls ∧
      ∀ before lexeme after rest, calls = before ++ (lexeme, after) :: rest →
        let given := before ++ [(lexeme, after)]
        tally Token.isOutdent given ≤ tally Token.isIndent given ∧
        after.levels.reverse.Pairwise (· < ·) ∧ after.levels.reverse.head? = some 0 ∧
        (tally Token.isIndent given : Int) - tally Token.isOutdent given + after.pending =
          after.levels.length - 1 ∧
        (lexeme.token.isLayout = true →
          tally Token.isOpening given = tally Token.isClosing given ∨
            after.Ended ∧ lexeme.start = after.position) := by
  dsimp only
  have run := run_ofText file text
  have start : ((ofText file text).height : Int) - (ofText file text).pending = 0 := rfl
  constructor
  · obtain ⟨lexeme, final, calls, finished⟩ := run.last_of_accepted accepted
    have balance := calls.balance
    rw [finished.height, finished.pending, start] at balance
    omega
  · intro before lexeme after rest split
    obtain ⟨middle, earlier, call⟩ := run.calls_before split
    have whole := earlier.concat call
    have balance := whole.balance
    have depth := whole.depth
    rw [start] at balance
    have bound := call.steady.pending_le
    have stack := call.steady.stack
    have some := List.length_pos_iff.mpr stack.ne_nil
    have height : after.height = after.levels.length - 1 := rfl
    refine ⟨?_, ?_, ?_, ?_, fun layout => ?_⟩
    · omega
    · exact List.pairwise_reverse.mpr stack.descending
    · rw [List.head?_reverse]
      exact stack.bottom
    · omega
    · apply (call.layout layout).imp_left
      intro flat
      change _ = ((0 : Nat) : Int) + _ at depth
      omega

/-- A block that an indentation opens and the end of the text closes. -/
theorem layout_balanced_block :
    let stream := Stream.ofScanner (ofText "a.py" "if a:\n  b(\n)".toList)
    stream.fault? = none ∧
      tally Token.isIndent stream.calls = tally Token.isOutdent stream.calls ∧
      ∀ before lexeme after rest, stream.calls = before ++ (lexeme, after) :: rest →
        tally Token.isOutdent (before ++ [(lexeme, after)]) ≤
          tally Token.isIndent (before ++ [(lexeme, after)]) := by
  intro stream
  have accepted : stream.fault? = none := by decide +kernel
  obtain ⟨equal, each⟩ := layout_balanced accepted
  exact ⟨accepted, equal, fun before lexeme after rest split =>
    (each before lexeme after rest split).1⟩

/-- Scanning comes to an end, whatever the bytes. After at most two calls for each byte
and two more, the scanner gives the end of the text, and gives it again on each later call,
or it complains about a place of the text; it never reads past the end, and no call finds
the stack of blocks empty. The calls and their number are cut short by no bound. -/
theorem scanning_finishes (file : String) (source : List UInt8) :
    let start := ofText file (Text.decode source)
    let stream := Stream.ofScanner start
    let bound := 2 * start.size + 2
    stream.length ≤ 2 * source.length + 2 ∧ stream.Finishes file ∧
      (∀ call ∈ stream.calls, call.2.levels ≠ []) ∧
      ∀ fuel count, Stream.read (bound + fuel) (bound + count) start = stream := by
  intro start stream bound
  have run : Run start stream := run_ofText file (Text.decode source)
  have steady : start.Steady := steady_ofText file (Text.decode source)
  refine ⟨?_, run.finishes, fun call member => ?_, fun fuel count => ?_⟩
  · have length := run.length_le
    have budget : start.budget ≤ 2 * start.size + 1 := budget_ofText_le file (Text.decode source)
    have size : start.size ≤ source.length := by
      rw [size_eq steady.supply]
      exact Nat.le_trans (length_unifyBreaks_le _) (Text.length_decode_le source)
    omega
  · obtain ⟨before, rest, split⟩ := List.append_of_mem member
    obtain ⟨_, _, given⟩ := run.calls_before split
    exact given.steady.stack.ne_nil
  · exact run.read_eq fuel count steady (by omega)

end Stream
end Unsugar
