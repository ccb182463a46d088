import Unsugar.Grammar.Source
import Unsugar.Proofs.Text.Utf8
import Unsugar.Proofs.Token.Unified

/-! Conventions for line ends. A text whose lines end with line feeds, and the same text
with other line ends, have the same words and the same tree, or the same fault. -/

namespace Unsugar

/-! ## Parsing -/

/-- A parser does not see which line breaks a text has. -/
theorem Cursor.run_unified {α : Type} (parser : Parser α) {scanner : Scanner}
    (text : scanner.supply = none) :
    Cursor.run parser scanner.unified = Cursor.run parser scanner := by
  have interactive : scanner.unified.supply.isSome = false := by simp [Scanner.unified, text]
  unfold Cursor.run
  rw [Scanner.size_unified, Stream.ofScanner_unified, Stream.map_map, interactive, text]
  rfl

theorem parseModule_unifyBreaks (file : String) (text : List Char) :
    parseModule file (unifyBreaks text) = parseModule file text :=
  congrArg Prod.fst (Cursor.run_unified moduleBody (rfl : (Scanner.ofText file text).supply = none))

/-! ## Line ends of sources -/

/-- What ends a line in place of a line feed. -/
inductive LineEnd where
  | carriageReturn
  | carriageReturnAndFeed

namespace LineEnd

def bytes : LineEnd → List UInt8
  | carriageReturn => [0x0D]
  | carriageReturnAndFeed => [0x0D, 0x0A]

def chars : LineEnd → List Char
  | carriageReturn => ['\r']
  | carriageReturnAndFeed => ['\r', '\n']

/-- A source with another end of each line. -/
def inSource (ending : LineEnd) (source : List UInt8) : List UInt8 :=
  source.flatMap fun byte => if byte = 0x0A then ending.bytes else [byte]

/-- A text with another end of each line. -/
def inText (ending : LineEnd) (text : List Char) : List Char :=
  text.flatMap fun char => if char = '\n' then ending.chars else [char]

variable (ending : LineEnd)

theorem inText_cons_of_ne {char : Char} (other : char ≠ '\n') (rest : List Char) :
    ending.inText (char :: rest) = char :: ending.inText rest := by
  rw [inText, List.flatMap_cons, if_neg other]
  rfl

theorem inSource_cons_of_ne {byte : UInt8} (other : byte ≠ 0x0A) (rest : List UInt8) :
    ending.inSource (byte :: rest) = byte :: ending.inSource rest := by
  rw [inSource, List.flatMap_cons, if_neg other]
  rfl

/-- No line of the changed text begins with a line feed. -/
theorem head?_carriageReturn (text : List Char) :
    (carriageReturn.inText text).head? ≠ some '\n' := by
  cases text with
  | nil => exact nofun
  | cons char text =>
    by_cases feed : char = '\n'
    · subst feed
      exact fun same => absurd (Option.some.inj same) (by decide)
    · rw [inText_cons_of_ne carriageReturn feed]
      exact fun same => feed (Option.some.inj same)

theorem unifyBreaks_inText {text : List Char} (plain : '\r' ∉ text) :
    unifyBreaks (ending.inText text) = text := by
  induction text with
  | nil => rfl
  | cons char text induction =>
    have rest := induction fun member => plain (List.mem_cons_of_mem char member)
    by_cases feed : char = '\n'
    · subst feed
      have ends : afterBreak? (ending.inText ('\n' :: text)) = some (ending.inText text) := by
        cases ending with
        | carriageReturnAndFeed => rfl
        | carriageReturn => exact afterBreak?_return (head?_carriageReturn text)
      rw [unifyBreaks_of_afterBreak? ends, rest]
    · have inLine : isBreak char = false := by
        have other : char ≠ '\r' := fun same => plain (same ▸ List.mem_cons_self)
        simp [isBreak, feed, other]
      rw [inText_cons_of_ne ending feed, unifyBreaks_cons_of_not_isBreak inLine, rest]

/-- Continuation bytes stand as they are. -/
theorem takeWhile_inSource (source : List UInt8) :
    (ending.inSource source).takeWhile Text.isContinuation =
      source.takeWhile Text.isContinuation := by
  induction source with
  | nil => rfl
  | cons byte source induction =>
    by_cases feed : byte = 0x0A
    · subst feed
      cases ending <;> rfl
    · rw [inSource_cons_of_ne ending feed, List.takeWhile_cons, List.takeWhile_cons, induction]

theorem shown_piecesFrom_inSource {skipped : Nat} {source : List UInt8}
    (within : skipped ≤ (source.takeWhile Text.isContinuation).length) :
    (Text.piecesFrom skipped (ending.inSource source)).map Text.Piece.shown =
      ending.inText ((Text.piecesFrom skipped source).map Text.Piece.shown) := by
  fun_induction Text.piecesFrom skipped source with
  | case1 => simp [inSource, inText, Text.piecesFrom]
  | case2 skipped byte rest induction =>
    have continues : Text.isContinuation byte = true := by
      cases stray : Text.isContinuation byte with
      | true => rfl
      | false => simp [stray] at within
    have other : byte ≠ 0x0A := by
      rintro rfl
      cases continues
    rw [List.takeWhile_cons_of_pos continues, List.length_cons] at within
    rw [inSource_cons_of_ne ending other, Text.piecesFrom]
    exact induction (Nat.le_of_succ_le_succ within)
  | case3 first rest char width found induction =>
    obtain ⟨ascii, bound⟩ := Text.width_of_wellFormed? found
    by_cases feed : first = 0x0A
    · subst feed
      obtain ⟨rfl, rfl⟩ : char = '\n' ∧ width = 1 := by
        have spelt : Text.wellFormed? 0x0A rest = some ('\n', 1) :=
          Text.wellFormed?_ascii (by decide) rest
        rw [spelt] at found
        cases found
        exact ⟨rfl, rfl⟩
      have rest' := induction bound
      cases ending with
      | carriageReturn => exact congrArg ('\r' :: ·) rest'
      | carriageReturnAndFeed => exact congrArg ('\r' :: '\n' :: ·) rest'
    · have other : char ≠ '\n' := by
        rintro rfl
        rcases ascii with ⟨-, same⟩ | high
        · exact feed (UInt8.toNat_inj.mp same)
        · exact absurd high (by decide)
      rw [inSource_cons_of_ne ending feed, Text.piecesFrom, ← Text.wellFormed?_takeWhile,
        takeWhile_inSource, Text.wellFormed?_takeWhile, found]
      dsimp only
      rw [List.map_cons, List.map_cons, induction bound]
      exact (inText_cons_of_ne ending other _).symm
  | case4 first rest found induction =>
    have other : first ≠ 0x0A := by
      rintro rfl
      rw [Text.wellFormed?_ascii (by decide)] at found
      cases found
    rw [inSource_cons_of_ne ending other, Text.piecesFrom, ← Text.wellFormed?_takeWhile,
      takeWhile_inSource, Text.wellFormed?_takeWhile, found]
    have shown : Text.replacement ≠ '\n' := by decide
    dsimp only
    rw [List.map_cons, List.map_cons, induction (Nat.zero_le _)]
    exact (inText_cons_of_ne ending shown _).symm

theorem decode_inSource (source : List UInt8) :
    Text.decode (ending.inSource source) = ending.inText (Text.decode source) :=
  shown_piecesFrom_inSource ending (Nat.zero_le _)

end LineEnd

theorem return_notMem_decode {source : List UInt8} (plain : 0x0D ∉ source) :
    '\r' ∉ Text.decode source := by
  have pieces : ∀ skipped (source : List UInt8), 0x0D ∉ source →
      '\r' ∉ (Text.piecesFrom skipped source).map Text.Piece.shown := by
    intro skipped source
    fun_induction Text.piecesFrom skipped source with
    | case1 => exact fun _ => List.not_mem_nil
    | case2 skipped byte rest induction =>
      exact fun plain => induction fun member => plain (List.mem_cons_of_mem byte member)
    | case3 first rest char width found induction =>
      intro plain member
      rcases List.mem_cons.mp member with rfl | member
      · rcases (Text.width_of_wellFormed? found).1 with ⟨-, same⟩ | high
        · obtain rfl : first = 0x0D := UInt8.toNat_inj.mp same
          exact plain List.mem_cons_self
        · exact absurd high (by decide)
      · exact induction (fun member => plain (List.mem_cons_of_mem first member)) member
    | case4 first rest _ induction =>
      intro plain member
      rcases List.mem_cons.mp member with same | member
      · exact absurd same (by decide : '\r' ≠ Text.replacement)
      · exact induction (fun member => plain (List.mem_cons_of_mem first member)) member
  exact pieces 0 source plain

/-- Reading a source does not depend on how its lines end. With carriage returns, or with
carriage returns before the line feeds, in place of its line feeds, a source has the same
words with the same values at the same places, and the same tree, or the same fault. -/
theorem line_ends_agree (file : String) {source : List UInt8} (plain : 0x0D ∉ source)
    (ending : LineEnd) :
    let text := Text.decode source
    let changed := Text.decode (ending.inSource source)
    (Stream.ofScanner (.ofText file changed)).lexemes =
        (Stream.ofScanner (.ofText file text)).lexemes ∧
      (Stream.ofScanner (.ofText file changed)).fault? =
        (Stream.ofScanner (.ofText file text)).fault? ∧
      parseModule file changed = parseModule file text := by
  intro text changed
  have unified : unifyBreaks changed = text := by
    rw [show changed = _ from ending.decode_inSource source]
    exact ending.unifyBreaks_inText (return_notMem_decode plain)
  have streams : Stream.ofScanner (.ofText file text) =
      (Stream.ofScanner (.ofText file changed)).map Scanner.unified := by
    rw [← Stream.ofScanner_unified, ← unified]
    rfl
  refine ⟨?_, ?_, ?_⟩
  · rw [streams, Stream.lexemes_map]
  · rw [streams, Stream.fault?_map]
  · rw [← unified]
    exact (parseModule_unifyBreaks file changed).symm

/-- Two lines that a lone carriage return ends. -/
theorem line_ends_agree_two_lines :
    let text := Text.decode [0x61, 0x0A, 0x62]
    let changed := Text.decode (LineEnd.carriageReturn.inSource [0x61, 0x0A, 0x62])
    (0x0D : UInt8) ∉ [0x61, 0x0A, 0x62] ∧
      (Stream.ofScanner (.ofText "a.py" changed)).lexemes =
        (Stream.ofScanner (.ofText "a.py" text)).lexemes ∧
      (Stream.ofScanner (.ofText "a.py" changed)).fault? =
        (Stream.ofScanner (.ofText "a.py" text)).fault? ∧
      parseModule "a.py" changed = parseModule "a.py" text := by
  intro text changed
  have plain : (0x0D : UInt8) ∉ [0x61, 0x0A, 0x62] := by decide
  exact ⟨plain, line_ends_agree "a.py" plain .carriageReturn⟩

end Unsugar
