import Unsugar.Proofs.Token.Reading
import Unsugar.Token.Numeral

/-! The room of numbers. A number that is read takes at least one of the characters and
no more than there are, and the place of a complaint is among them or just after them. -/

namespace Unsugar

def Token.isNumber : Token → Bool
  | .integer _ => true
  | .float _ => true
  | .imaginary _ => true
  | _ => false

namespace Numeral

variable {α β : Type}

/-- A complaint whose place is among `room` characters or just after them. -/
def Failure.IsWithin (room : Nat) (failure : Failure) : Prop :=
  failure.offset ≤ room ∧ failure.complaint.isOfText = true

/-- What holds of the value of a computation that complains only within its room. -/
def Fits (room : Nat) (holds : α → Prop) : Except Failure α → Prop
  | .ok value => holds value
  | .error failure => failure.IsWithin room

namespace Fits

variable {room : Nat} {holds : α → Prop} {result : β → Prop}

theorem pure {value : α} (valid : holds value) :
    Fits room holds (Pure.pure value : Except Failure α) :=
  valid

theorem throw {failure : Failure} (within : failure.IsWithin room) :
    Fits room holds (MonadExcept.throw failure : Except Failure α) :=
  within

theorem bind {outcome : Except Failure α} {next : α → Except Failure β}
    (first : Fits room holds outcome)
    (rest : ∀ value, holds value → Fits room result (next value)) :
    Fits room result (outcome >>= next) := by
  cases outcome with
  | ok value => exact rest value first
  | error failure => exact first

theorem ite {condition : Prop} [Decidable condition] {first second : Except Failure α}
    (whenTrue : condition → Fits room holds first)
    (whenFalse : ¬condition → Fits room holds second) :
    Fits room holds (if condition then first else second) := by
  split
  case isTrue true => exact whenTrue true
  case isFalse false => exact whenFalse false

end Fits

theorem length_takeWhile_le (fit : Char → Bool) (chars : List Char) :
    (chars.takeWhile fit).length ≤ chars.length :=
  (List.takeWhile_prefix _).length_le

theorem length_run_le (fit : Char → Bool) (chars : List Char) :
    (run fit chars).length ≤ chars.length :=
  length_takeWhile_le _ _

/-- What stands after some characters is there only if they do not reach the end. -/
theorem lt_length_of_head?_drop {chars : List Char} {width : Nat} {test : Char → Bool}
    (found : ((chars.drop width).head?.map test).getD false = true) : width < chars.length := by
  apply Nat.lt_of_not_le
  intro far
  rw [List.drop_eq_nil_of_le far] at found
  cases found

theorem exponentWidth_fits {room offset : Nat} {chars : List Char}
    (within : offset + chars.length ≤ room) :
    Fits room (· ≤ chars.length) (exponentWidth offset chars) := by
  unfold exponentWidth
  cases chars with
  | nil => exact .pure (Nat.le_refl 0)
  | cons mark rest =>
    have short := length_takeWhile_le isDigit
    refine .ite (fun _ => .pure (Nat.zero_le _)) fun _ => ?_
    simp only [List.length_cons] at within ⊢
    have signed : ∀ digits : List Char, rest.length = digits.length + 1 →
        Fits room (· ≤ rest.length + 1)
          (if (digits.head?.map isDigit).getD false = true then
            (Pure.pure (2 + (digits.takeWhile isDigit).length) : Except Failure Nat)
          else MonadExcept.throw ⟨.floatLiteral, offset + 2⟩) := by
      intro digits same
      have bound := short digits
      refine .ite (fun _ => .pure ?_) fun _ => .throw ⟨?_, rfl⟩
      · omega
      · dsimp only
        omega
    split
    · exact signed _ rfl
    · exact signed _ rfl
    · have bound := short rest
      refine .pure ?_
      omega

/-- A reading with a positive width that fits into its characters. -/
def Reading.IsNumber (room : Nat) (reading : Reading) : Prop :=
  0 < reading.width ∧ reading.width ≤ room ∧ reading.token.isNumber = true

theorem decimal_fits {whole : Nat} {chars : List Char} (within : whole ≤ chars.length)
    (some : 0 < whole ∨ chars.head? = some '.') :
    Fits chars.length (Reading.IsNumber chars.length) (decimal whole chars) := by
  unfold decimal
  extract_lets rest pointed fraction
  have length_rest : rest.length = chars.length - whole := List.length_drop ..
  have fraction_le : fraction ≤ rest.length := by
    unfold fraction
    split
    case isFalse => exact Nat.zero_le _
    case isTrue point =>
      have bound := length_run_le isDigit (rest.drop 1)
      rw [List.length_drop] at bound
      cases begins : rest with
      | nil =>
        rw [show pointed = (rest.head? == Option.some '.') from rfl, begins] at point
        cases point
      | cons => simp only [begins, List.length_cons] at bound ⊢; omega
  have fraction_pos : chars.head? = Option.some '.' → whole = 0 → 0 < fraction := by
    rintro head rfl
    have point : pointed = true := by simp [pointed, rest, head]
    simp only [fraction, point, if_true]
    omega
  have within : whole + fraction + (rest.drop fraction).length ≤ chars.length := by
    rw [List.length_drop]
    omega
  refine (exponentWidth_fits within).bind fun exponent exponent_le => ?_
  rw [List.length_drop] at exponent_le
  extract_lets width text
  have width_pos : 0 < width := by
    unfold width
    rcases Nat.eq_zero_or_pos whole with none | positive
    · have := fraction_pos (some.resolve_left (by omega)) none
      omega
    · omega
  have width_le : width ≤ chars.length := by
    unfold width
    omega
  refine .ite (fun imaginary => ?_) fun _ => .ite (fun _ => ?_) fun _ => ?_
  · have more := lt_length_of_head?_drop imaginary
    split
    · exact .ite (fun _ => .throw ⟨Nat.zero_le _, rfl⟩)
        fun _ => .pure ⟨Nat.succ_pos _, more, rfl⟩
    · exact .throw ⟨Nat.zero_le _, rfl⟩
  · split
    · exact .pure ⟨width_pos, width_le, rfl⟩
    · exact .throw ⟨Nat.zero_le _, rfl⟩
  · exact .pure ⟨width_pos, width_le, rfl⟩

theorem based_fits (base : Nat) {digits chars : List Char}
    (within : 2 + digits.length ≤ chars.length) :
    Fits chars.length (Reading.IsNumber chars.length) (based base digits chars) := by
  refine .ite (fun _ => .throw ⟨Nat.zero_le _, rfl⟩) fun _ => ?_
  refine .ite (fun _ => .throw ⟨Nat.zero_le _, rfl⟩) fun _ => .pure ⟨?_, within, rfl⟩
  dsimp only
  omega

theorem zeroLed_fits {chars : List Char} (some : chars ≠ []) :
    Fits chars.length (Reading.IsNumber chars.length) (zeroLed chars) := by
  unfold zeroLed
  extract_lets digits width decides
  have width_le : width ≤ chars.length := by
    have bound := length_run_le isDigit (chars.drop 1)
    have positive := List.length_pos_iff.mpr some
    rw [List.length_drop] at bound
    unfold width digits
    omega
  refine .ite (fun _ => ?_) fun _ => .ite (fun _ => .throw ⟨width_le, rfl⟩) fun _ => ?_
  · refine decimal_fits width_le (.inl ?_)
    unfold width
    omega
  · exact .throw ⟨Nat.zero_le _, rfl⟩

/-- Characters at the front of which a number can begin. -/
def BeginsNumber (chars : List Char) : Prop :=
  (∃ char rest, chars = char :: rest ∧ isDigit char = true) ∨ chars.head? = some '.'

theorem read_fits {chars : List Char} (begins : BeginsNumber chars) :
    Fits chars.length (Reading.IsNumber chars.length) (read chars) := by
  unfold read
  split
  case h_1 mark rest =>
    have short : ∀ fit, 2 + (run fit rest).length ≤ ('0' :: mark :: rest).length := by
      intro fit
      have bound := length_run_le fit rest
      simp only [List.length_cons]
      omega
    have far : 2 ≤ ('0' :: mark :: rest).length := by
      simp only [List.length_cons]
      omega
    refine .ite (fun _ => ?_) fun _ => .ite (fun _ => ?_) fun _ => .ite (fun _ => ?_) fun _ => ?_
    · exact .ite (fun _ => .throw ⟨Nat.zero_le _, rfl⟩) fun _ => based_fits 16 (short _)
    · exact .ite (fun _ => .throw ⟨far, rfl⟩) fun _ => based_fits 8 (short _)
    · exact .ite (fun _ => .throw ⟨far, rfl⟩) fun _ => based_fits 2 (short _)
    · exact zeroLed_fits (List.cons_ne_nil _ _)
  case h_2 =>
    refine decimal_fits (length_run_le _ _) ?_
    rcases begins with ⟨char, rest, rfl, digit⟩ | point
    · left
      simp [run, digit]
    · exact .inr point

/-! ## What follows the line -/

section EndsLine

variable {rest : List Char}

theorem run_append {test : Char → Bool} (rejects : rejectsBreaks test = true) (line : List Char)
    (ends : EndsLine rest) : run test (line ++ rest) = run test line := by
  apply takeWhile_append_of_endsLine _ line ends
  simpa [rejectsBreaks] using rejects

theorem exponentWidth_append (offset : Nat) (line : List Char) (ends : EndsLine rest) :
    exponentWidth offset (line ++ rest) = exponentWidth offset line := by
  have digits : ∀ line : List Char, (line ++ rest).takeWhile isDigit = line.takeWhile isDigit :=
    fun line => takeWhile_append_of_endsLine (by decide) line ends
  have head : ∀ line : List Char, ((line ++ rest).head?.map isDigit).getD false =
      (line.head?.map isDigit).getD false :=
    fun line => head?_append_of_endsLine (by decide) line ends
  cases line with
  | nil =>
    cases rest with
    | nil => rfl
    | cons char rest =>
      have unfit : isExponentMark char = false :=
        eq_false_of_rejectsBreaks (by decide) (ends char rfl)
      simp [exponentWidth, unfit]
  | cons mark line =>
    cases line with
    | nil =>
      cases rest with
      | nil => rfl
      | cons char rest =>
        have none : (char :: rest).takeWhile isDigit = [] := digits []
        have sign : char ≠ '+' ∧ char ≠ '-' := by
          rcases (isBreak_iff char).mp (ends char rfl) with rfl | rfl <;> decide
        simp [exponentWidth, sign.1, sign.2, none]
    | cons sign line =>
      have whole := digits (sign :: line)
      simp only [List.cons_append] at whole ⊢
      unfold exponentWidth
      by_cases plus : sign = '+'
      · subst plus
        simp only [digits, head]
      · by_cases minus : sign = '-'
        · subst minus
          simp only [digits, head]
        · simp [plus, minus, whole]

theorem imaginaryAt_append {width : Nat} {line : List Char} (within : width ≤ line.length)
    (ends : EndsLine rest) : imaginaryAt (line ++ rest) width = imaginaryAt line width := by
  unfold imaginaryAt
  rw [List.drop_append_of_le_length within]
  exact head?_append_of_endsLine (by decide) _ ends

/-- The number of characters of a fraction, its point included. -/
theorem fraction_append (tail : List Char) (ends : EndsLine rest) :
    (if (tail ++ rest).head? == some '.' then 1 + (run isDigit ((tail ++ rest).drop 1)).length
      else 0) =
    if tail.head? == some '.' then 1 + (run isDigit (tail.drop 1)).length else 0 := by
  rw [head?_append_beq_of_endsLine (by decide) tail ends]
  split
  case isFalse => rfl
  case isTrue point =>
    cases tail with
    | nil => cases point
    | cons char tail =>
      rw [List.cons_append, List.drop_succ_cons, List.drop_succ_cons, List.drop_zero,
        List.drop_zero,
        run_append (by decide) tail ends]

theorem fraction_le (tail : List Char) :
    (if tail.head? == some '.' then 1 + (run isDigit (tail.drop 1)).length else 0) ≤
      tail.length := by
  split
  case isFalse => exact Nat.zero_le _
  case isTrue point =>
    cases tail with
    | nil => cases point
    | cons char tail =>
      have bound := length_run_le isDigit tail
      simp only [List.drop_succ_cons, List.drop_zero, List.length_cons]
      omega

theorem decimal_append {whole : Nat} {line : List Char} (within : whole ≤ line.length)
    (ends : EndsLine rest) : decimal whole (line ++ rest) = decimal whole line := by
  have inLine : isBreak '.' = false := by decide
  have pointed := head?_append_beq_of_endsLine inLine (line.drop whole) ends
  have fraction := fraction_append (line.drop whole) ends
  have short := fraction_le (line.drop whole)
  have length : (line.drop whole).length = line.length - whole := List.length_drop
  unfold decimal
  dsimp only
  rw [List.drop_append_of_le_length within, fraction, pointed, List.drop_append_of_le_length short,
    exponentWidth_append _ _ ends]
  revert short
  generalize (if (line.drop whole).head? == some '.' then
    1 + (run isDigit ((line.drop whole).drop 1)).length else 0) = fraction
  intro short
  have within' : whole + fraction + ((line.drop whole).drop fraction).length ≤ line.length := by
    rw [List.length_drop]
    omega
  have fits := exponentWidth_fits within'
  revert fits
  cases exponentWidth (whole + fraction) ((line.drop whole).drop fraction) with
  | error failure => exact fun _ => rfl
  | ok exponent =>
    intro fits
    have small : exponent ≤ ((line.drop whole).drop fraction).length := fits
    have inside : whole + fraction + exponent ≤ line.length := by omega
    simp only [bind, Except.bind, List.take_append_of_le_length inside,
      imaginaryAt_append inside ends]

theorem based_append (base : Nat) {digits line : List Char}
    (within : 2 + digits.length ≤ line.length) (ends : EndsLine rest) :
    based base digits (line ++ rest) = based base digits line := by
  unfold based
  dsimp only
  rw [imaginaryAt_append within ends]

theorem zeroLed_append {line : List Char} (some : line ≠ []) (ends : EndsLine rest) :
    zeroLed (line ++ rest) = zeroLed line := by
  obtain ⟨zero, line, rfl⟩ := List.exists_cons_of_ne_nil some
  have bound := length_run_le isDigit line
  have within : 1 + (run isDigit line).length ≤ (zero :: line).length := by
    rw [List.length_cons]
    omega
  unfold zeroLed
  dsimp only
  rw [List.cons_append, List.drop_succ_cons, List.drop_succ_cons, List.drop_zero, List.drop_zero,
    run_append (by decide) line ends, ← List.cons_append, List.drop_append_of_le_length within,
    decimal_append within ends]
  cases (zero :: line).drop (1 + (run isDigit line).length) with
  | cons => rfl
  | nil =>
    cases rest with
    | nil => rfl
    | cons char rest =>
      have breaks := ends char rfl
      have point : (char == '.') = false :=
        eq_false_of_rejectsBreaks (by decide : rejectsBreaks (· == '.') = true) breaks
      have exponent : isExponentMark char = false := eq_false_of_rejectsBreaks (by decide) breaks
      have imaginary : isImaginaryMark char = false := eq_false_of_rejectsBreaks (by decide) breaks
      simp only [List.nil_append, List.head?_cons, List.head?_nil, point, exponent, imaginary,
        Bool.false_or]

theorem read_of_not_zero {chars : List Char} (other : chars.head? ≠ some '0') :
    read chars = decimal (run isDigit chars).length chars := by
  unfold read
  split
  case h_1 => exact absurd rfl other
  case h_2 => rfl

/-- A number is read without a look at what follows its line. -/
theorem read_append (line : List Char) (ends : EndsLine rest) :
    read (line ++ rest) = read line := by
  by_cases zero : (line ++ rest).head? = some '0'
  · cases line with
    | nil => exact absurd (ends '0' zero) (by decide)
    | cons first line =>
      obtain rfl : first = '0' := Option.some.inj zero
      cases line with
      | nil =>
        cases rest with
        | nil => rfl
        | cons char rest =>
          have whole := zeroLed_append (List.cons_ne_nil '0' []) ends
          rcases (isBreak_iff char).mp (ends char rfl) with rfl | rfl
          · exact whole
          · exact whole
      | cons mark line =>
        have within : ∀ test, 2 + (run test line).length ≤ ('0' :: mark :: line).length := by
          intro test
          have bound := length_run_le test line
          simp only [List.length_cons]
          omega
        have hex : run isHexDigit (line ++ rest) = run isHexDigit line :=
          run_append (by decide) line ends
        have octal : run isOctalDigit (line ++ rest) = run isOctalDigit line :=
          run_append (by decide) line ends
        have binary : run isBinaryDigit (line ++ rest) = run isBinaryDigit line :=
          run_append (by decide) line ends
        have based : ∀ base test, based base (run test line) ('0' :: mark :: (line ++ rest)) =
            based base (run test line) ('0' :: mark :: line) :=
          fun base test => based_append base (within test) ends
        have zeroLed := zeroLed_append (List.cons_ne_nil '0' (mark :: line)) ends
        rw [List.cons_append, List.cons_append] at zeroLed
        simp only [List.cons_append, read, hex, octal, binary, based, zeroLed]
  · have alone : line.head? ≠ some '0' := by
      cases line with
      | nil => exact nofun
      | cons => exact zero
    have digits := run_append (by decide : rejectsBreaks isDigit = true) line ends
    rw [read_of_not_zero zero, read_of_not_zero alone, digits]
    exact decimal_append (length_run_le isDigit line) ends

end EndsLine

end Numeral
end Unsugar
