import Mathlib.Data.Nat.Digits.Defs
import Unsugar.Proofs.Token.Literal

/-! Integer literals. A decimal or hexadecimal integer of any length is scanned as one word
with the number that its digits denote. An octal or binary one is too, as long as the
number has at most sixty-three bits; a larger one is refused. -/

namespace Unsugar
namespace Numeral

/-! ## The grammar of integers -/

/-- Digits with single underscores between them. -/
inductive Grouped (fit : Char → Bool) : List Char → Prop where
  | last {digit : Char} (fits : fit digit = true) : Grouped fit [digit]
  | next {digit : Char} {rest : List Char} (fits : fit digit = true)
      (others : Grouped fit rest) : Grouped fit (digit :: rest)
  | split {digit : Char} {rest : List Char} (fits : fit digit = true)
      (others : Grouped fit rest) : Grouped fit (digit :: '_' :: rest)

/-- The base that a letter after a zero announces. -/
def announced? (mark : Char) : Option Nat :=
  if mark == 'x' || mark == 'X' then some 16
  else if mark == 'o' || mark == 'O' then some 8
  else if mark == 'b' || mark == 'B' then some 2
  else none

/-- Whether a character is a digit in a base. -/
def isDigitOf (base : Nat) : Char → Bool :=
  if base = 16 then isHexDigit
  else if base = 8 then isOctalDigit
  else if base = 2 then isBinaryDigit
  else isDigit

/-- An integer literal, with its base and its digits. -/
inductive IsInteger : (base : Nat) → (digits literal : List Char) → Prop where
  | decimal {digits : List Char} (grouped : Grouped isDigit digits)
      (begins : digits.head? ≠ some '0') : IsInteger 10 digits digits
  | zero {digits : List Char} (grouped : Grouped (· == '0') digits) : IsInteger 10 digits digits
  | based {base : Nat} {mark : Char} {digits : List Char} (known : announced? mark = some base)
      (grouped : Grouped (isDigitOf base) digits) : IsInteger base digits ('0' :: mark :: digits)

/-- Whether a character after an integer literal belongs to the same number. -/
def continues (base : Nat) (literal : List Char) (char : Char) : Bool :=
  isDigitOf base char || char == '_' || isImaginaryMark char ||
    (base == 10 && (char == '.' || isExponentMark char)) ||
    (literal == ['0'] && (announced? char).isSome)

/-- What follows an integer literal, if anything does, is no part of it. -/
def IsWhole (base : Nat) (literal rest : List Char) : Prop :=
  ∀ char ∈ rest.head?, continues base literal char = false

/-- The number that digits in a base denote, the last digit being the lowest. -/
def denoted (base : Nat) (digits : List Char) : Nat :=
  Nat.ofDigits base ((digitsOf digits).map digitValue).reverse

theorem value_eq_denoted (base : Nat) (digits : List Char) :
    value base (digitsOf digits) = denoted base digits := by
  rw [denoted, value, Nat.ofDigits_eq_foldr, List.foldr_reverse, List.foldl_map]
  simp only [Nat.cast_id, Nat.add_comm, Nat.mul_comm]

/-! ## Reading them -/

namespace Grouped

variable {fit : Char → Bool} {digits rest : List Char}

theorem begins (grouped : Grouped fit digits) :
    ∃ digit others, digits = digit :: others ∧ fit digit = true := by
  cases grouped with
  | last fits => exact ⟨_, _, rfl, fits⟩
  | next fits _ => exact ⟨_, _, rfl, fits⟩
  | split fits _ => exact ⟨_, _, rfl, fits⟩

theorem fits_or_underscore (grouped : Grouped fit digits) :
    ∀ char ∈ digits, (fit char || char == '_') = true := by
  induction grouped with
  | last fits => simp [fits]
  | next fits _ induction => simpa [fits] using induction
  | split fits _ induction => simpa [fits] using induction

theorem digitsOf_ne_nil (grouped : Grouped fit digits) (line : fit '_' = false) :
    digitsOf digits ≠ [] := by
  obtain ⟨digit, others, rfl, fits⟩ := grouped.begins
  have other : digit ≠ '_' := by
    rintro rfl
    rw [line] at fits
    cases fits
  simp [digitsOf, other]

end Grouped

/-- A run of digits ends where they do. -/
theorem run_append_of_ends {fit : Char → Bool} {digits rest : List Char}
    (fits : ∀ char ∈ digits, (fit char || char == '_') = true)
    (ends : ∀ char ∈ rest.head?, (fit char || char == '_') = false) :
    run fit (digits ++ rest) = digits := by
  rw [run, List.takeWhile_append_of_pos fits]
  cases rest with
  | nil => exact List.append_nil digits
  | cons char rest =>
    have unfit := ends char rfl
    rw [List.takeWhile_cons, unfit, if_neg Bool.false_ne_true, List.append_nil]

section Read

variable {base : Nat} {digits literal rest : List Char}

/-- What follows an integer literal is none of its digits. -/
theorem IsWhole.ends (whole : IsWhole base literal rest) :
    ∀ char ∈ rest.head?, (isDigitOf base char || char == '_') = false := by
  intro char found
  have ends := whole char found
  simp only [continues, Bool.or_eq_false_iff] at ends
  exact Bool.or_eq_false_iff.mpr ends.1.1.1

theorem head?_of_isWhole {test : Char → Bool} (whole : IsWhole base literal rest)
    (implies : ∀ char, continues base literal char = false → test char = false) :
    (rest.head?.map test).getD false = false := by
  cases found : rest.head? with
  | none => rfl
  | some char => exact implies char (whole char found)

/-- Digits that nothing continues are an integer. -/
theorem decimal_append_isWhole (whole : IsWhole 10 literal rest) :
    decimal digits.length (digits ++ rest) =
      .ok ⟨.integer (value 10 (digitsOf digits)), digits.length⟩ := by
  have point : (rest.head? == some '.') = false := by
    cases found : rest.head? with
    | none => rfl
    | some char =>
      have ends := whole char found
      simp only [continues, beq_self_eq_true, Bool.true_and, Bool.or_eq_false_iff] at ends
      simpa using ends.1.2.1
  have exponent : exponentWidth digits.length rest = .ok 0 := by
    cases rest with
    | nil => rfl
    | cons char rest =>
      have ends := whole char rfl
      simp only [continues, beq_self_eq_true, Bool.true_and, Bool.or_eq_false_iff] at ends
      simp [exponentWidth, ends.1.2.2]
      rfl
  have imaginary : imaginaryAt (digits ++ rest) digits.length = false := by
    rw [imaginaryAt, List.drop_left]
    refine head?_of_isWhole whole fun char ends => ?_
    simp only [continues, Bool.or_eq_false_iff] at ends
    exact ends.1.1.2
  unfold decimal
  simp [point, exponent, imaginary, bind, Except.bind]
  rfl

/-- Octal and binary integers are limited to sixty-three bits. -/
def IsTooLarge (base number : Nat) : Prop :=
  (base = 8 ∨ base = 2) ∧ Nat.pow 2 63 ≤ number

instance (base number : Nat) : Decidable (IsTooLarge base number) :=
  inferInstanceAs (Decidable (_ ∧ _))

/-- What is read of an integer literal. -/
def readingOf (base : Nat) (digits literal : List Char) : Except Failure Reading :=
  if IsTooLarge base (denoted base digits) then .error ⟨.integerLiteral, 0⟩
  else .ok ⟨.integer (denoted base digits), literal.length⟩

theorem readingOf_ten : readingOf 10 digits literal =
    .ok ⟨.integer (denoted 10 digits), literal.length⟩ :=
  if_neg (by simp [IsTooLarge])

theorem announced?_cases {mark : Char} (known : announced? mark = some base) :
    base = 16 ∨ base = 8 ∨ base = 2 := by
  unfold announced? at known
  grind

theorem isDigitOf_underscore (base : Nat) : isDigitOf base '_' = false := by
  unfold isDigitOf
  split
  · decide
  split
  · decide
  split <;> decide

theorem based_append_isWhole {mark : Char} (known : announced? mark = some base)
    (grouped : Grouped (isDigitOf base) digits)
    (whole : IsWhole base ('0' :: mark :: digits) rest) :
    based base digits ('0' :: mark :: (digits ++ rest)) =
      readingOf base digits ('0' :: mark :: digits) := by
  have width : 2 + digits.length = ('0' :: mark :: digits).length := by
    simp only [List.length_cons]
    omega
  have imaginary :
      imaginaryAt ('0' :: mark :: (digits ++ rest)) ('0' :: mark :: digits).length = false := by
    rw [imaginaryAt, ← List.cons_append, ← List.cons_append, List.drop_left]
    refine head?_of_isWhole whole fun char ends => ?_
    simp only [continues, Bool.or_eq_false_iff] at ends
    exact ends.1.1.2
  have some : (digitsOf digits).isEmpty = false :=
    List.isEmpty_eq_false_iff.mpr (grouped.digitsOf_ne_nil (isDigitOf_underscore base))
  unfold based readingOf IsTooLarge
  dsimp only
  rw [width, imaginary, some, value_eq_denoted]
  rcases announced?_cases known with rfl | rfl | rfl <;> simp <;> rfl

/-- A literal in a base of its own is recognized by its letter. -/
theorem read_announced {mark : Char} (known : announced? mark = some base)
    (grouped : Grouped (isDigitOf base) digits)
    (run_eq : run (isDigitOf base) (digits ++ rest) = digits) :
    read ('0' :: mark :: (digits ++ rest)) =
      based base digits ('0' :: mark :: (digits ++ rest)) := by
  have some : digits.isEmpty = false := by
    obtain ⟨_, _, rfl, -⟩ := grouped.begins
    rfl
  unfold announced? at known
  unfold read
  dsimp only
  split at known
  case isTrue hex =>
    cases known
    have same : run isHexDigit (digits ++ rest) = digits := run_eq
    simp [hex, same, some]
  case isFalse other =>
  split at known
  case isTrue octal =>
    cases known
    have same : run isOctalDigit (digits ++ rest) = digits := run_eq
    simp [other, octal, same, some]
  case isFalse another =>
  split at known
  case isTrue binary =>
    cases known
    have same : run isBinaryDigit (digits ++ rest) = digits := run_eq
    simp [other, another, binary, same, some]
  case isFalse => cases known

theorem read_of_not_announced {mark : Char} (none : announced? mark = none) :
    read ('0' :: mark :: rest) = zeroLed ('0' :: mark :: rest) := by
  unfold announced? at none
  unfold read
  grind

/-- Zeros are read as a decimal. -/
theorem read_zeros (grouped : Grouped (· == '0') digits) (whole : IsWhole 10 digits rest) :
    read (digits ++ rest) = decimal digits.length (digits ++ rest) := by
  have fits := grouped.fits_or_underscore
  obtain ⟨zero, others, rfl, isZero⟩ := grouped.begins
  obtain rfl := beq_iff_eq.mp isZero
  obtain ⟨-, zeros⟩ := List.forall_mem_cons.mp fits
  have plain : ∀ char ∈ others, (isDigit char || char == '_') = true := by
    intro char member
    rcases Bool.or_eq_true_iff.mp (zeros char member) with same | same
    · exact beq_iff_eq.mp same ▸ rfl
    · exact Bool.or_eq_true_iff.mpr (.inr same)
  have run_eq : run isDigit (others ++ rest) = others := run_append_of_ends plain whole.ends
  have zeroLed_eq : zeroLed ('0' :: (others ++ rest)) =
      decimal (others.length + 1) ('0' :: (others ++ rest)) := by
    unfold zeroLed
    dsimp only
    rw [List.drop_succ_cons, List.drop_zero, run_eq, Nat.add_comm, List.drop_succ_cons,
      List.drop_left, List.all_eq_true.mpr zeros, Bool.or_true, if_pos rfl]
  rw [List.cons_append, List.length_cons]
  cases begins : others ++ rest with
  | nil =>
    obtain ⟨rfl, -⟩ := List.append_eq_nil_iff.mp begins
    rfl
  | cons mark tail =>
    have none : announced? mark = none := by
      cases others with
      | nil =>
        have ends := whole mark (congrArg List.head? begins)
        simpa [continues] using (Bool.or_eq_false_iff.mp ends).2
      | cons first others =>
        obtain ⟨rfl, -⟩ := List.cons.inj begins
        rcases Bool.or_eq_true_iff.mp (zeros first List.mem_cons_self) with same | same
        · exact beq_iff_eq.mp same ▸ rfl
        · exact beq_iff_eq.mp same ▸ rfl
    rw [read_of_not_announced none, ← begins, zeroLed_eq]

/-- An integer literal is read up to its end. -/
theorem read_integer (isInteger : IsInteger base digits literal)
    (whole : IsWhole base literal rest) :
    read (literal ++ rest) = readingOf base digits literal := by
  cases isInteger with
  | decimal grouped begins =>
    have run_eq : run isDigit (digits ++ rest) = digits :=
      run_append_of_ends grouped.fits_or_underscore whole.ends
    have other : (digits ++ rest).head? ≠ some '0' := by
      obtain ⟨_, _, rfl, -⟩ := grouped.begins
      exact begins
    rw [read_of_not_zero other, run_eq, decimal_append_isWhole whole, value_eq_denoted,
      readingOf_ten]
  | zero grouped =>
    rw [read_zeros grouped whole, decimal_append_isWhole whole, value_eq_denoted, readingOf_ten]
  | @based _ mark _ known grouped =>
    rw [List.cons_append, List.cons_append, read_announced known grouped
      (run_append_of_ends grouped.fits_or_underscore whole.ends),
      based_append_isWhole known grouped whole]

/-- An integer literal begins with a digit. -/
theorem IsInteger.begins (isInteger : IsInteger base digits literal) :
    ∃ digit others, literal = digit :: others ∧ isDigit digit = true := by
  cases isInteger with
  | decimal grouped _ => exact grouped.begins
  | zero grouped =>
    obtain ⟨digit, others, same, isZero⟩ := grouped.begins
    exact ⟨digit, others, same, beq_iff_eq.mp isZero ▸ rfl⟩
  | based => exact ⟨'0', _, rfl, rfl⟩

end Read

/-- A test that the ten digits pass is passed by every digit. -/
theorem test_of_isDigit {test : Char → Bool} (each : "0123456789".toList.all test = true)
    {digit : Char} (fits : isDigit digit = true) : test digit = true := by
  refine List.all_eq_true.mp each digit ?_
  have codes : ∀ code < '9'.toNat + 1, '0'.toNat ≤ code →
      "0123456789".toList.contains (Char.ofNat code) = true := by decide +kernel
  obtain ⟨low, high⟩ := Bool.and_eq_true_iff.mp fits
  have lower : '0'.toNat ≤ digit.toNat := of_decide_eq_true low
  have upper : digit.toNat ≤ '9'.toNat := of_decide_eq_true high
  rw [← Char.ofNat_toNat digit]
  exact List.contains_iff_mem.mp (codes digit.toNat (Nat.lt_succ_of_le upper) lower)

end Numeral

/-! ## Scanning them -/

namespace Lexer

open Scanner
open Numeral (IsInteger IsWhole IsTooLarge denoted)

variable {base : Nat} {digits literal rest : List Char}

theorem wordAt_of_isDigit {scanner : Scanner} {char : Char} {fuel : Nat}
    {gives : Lexeme → Scanner → Prop} {fails : Fault → Prop} (digit : Numeral.isDigit char = true)
    (word : Ends (number scanner.position) scanner gives fails) :
    Ends (wordAt char fuel) scanner gives fails := by
  have each : "0123456789".toList.all (fun digit => !isQuoteMark digit && !isNameStart digit) := by
    decide +kernel
  have plain := Numeral.test_of_isDigit each digit
  rw [Bool.and_eq_true, Bool.not_eq_true', Bool.not_eq_true'] at plain
  refine .get (.ite (fun quote => ?_) fun _ => .ite (fun name => ?_) fun _ =>
    .ite (fun _ => word) fun other => absurd digit other)
  · rw [plain.1] at quote
    cases quote
  · rw [plain.2] at name
    cases name

/-- An integer literal at the beginning of a text is the first word, and nothing after it is
read. It is refused if the number is too large for its base. -/
theorem next_integer {file : String} {fuel : Nat} (isInteger : IsInteger base digits literal)
    (whole : IsWhole base literal rest) :
    Ends (next (fuel + 1)) (ofText file (literal ++ rest))
      (fun lexeme after => ¬IsTooLarge base (denoted base digits) ∧
        lexeme = ⟨.integer (denoted base digits), String.ofList literal, .at file 1 1⟩ ∧
        after.rest = rest)
      (fun fault => IsTooLarge base (denoted base digits) ∧
        fault = ⟨.at file 1 1, .integerLiteral⟩) := by
  have reading := Numeral.read_integer isInteger whole
  obtain ⟨digit, others, rfl, fits⟩ := isInteger.begins
  have each : "0123456789".toList.all beginsWord = true := by decide +kernel
  have begins := Numeral.test_of_isDigit each fits
  refine next_of_beginsWord begins fun scanner text remains position => ?_
  refine wordAt_of_isDigit fits (.get ?_)
  have line : scanner.rest = (digit :: others) ++ rest := remains
  rw [line, reading, Numeral.readingOf]
  by_cases large : IsTooLarge base (denoted base digits)
  · rw [if_pos large]
    refine .bind (.take (Nat.zero_le _) (.complain ⟨large, ?_⟩))
    exact congrArg (Fault.mk · _) position
  · rw [if_neg large]
    have enough : (digit :: others).length ≤ scanner.rest.length := by
      rw [line, List.length_append]
      omega
    refine .bind (.take enough (.pure ⟨large, ?_, ?_⟩))
    · rw [line, List.take_left, position]
    · rw [skip, line]
      exact List.drop_left

end Lexer

namespace Stream

open Scanner
open Numeral (IsInteger IsWhole IsTooLarge denoted)

/-- A text that begins with an integer literal gives a word for exactly the literal with the
number that it denotes, however long it is, unless it is an octal or binary one of more than
sixty-three bits. That one is refused where it begins. -/
theorem ofScanner_integer (file : String) {base : Nat} {digits literal rest : List Char}
    (isInteger : IsInteger base digits literal) (whole : IsWhole base literal rest) :
    if IsTooLarge base (denoted base digits) then
      ∃ after, ofScanner (ofText file (literal ++ rest)) =
        .failed ⟨.at file 1 1, .integerLiteral⟩ after
    else
      ∃ after more, ofScanner (ofText file (literal ++ rest)) =
        .word ⟨.integer (denoted base digits), String.ofList literal, .at file 1 1⟩ after more ∧
        after.rest = rest := by
  unfold ofScanner
  extract_lets bound
  have first : Lexer.Ends (Lexer.next bound) (ofText file (literal ++ rest)) _ _ :=
    Lexer.next_integer isInteger whole
  unfold Lexer.Ends at first
  unfold read
  revert first
  cases Lexer.next bound (ofText file (literal ++ rest)) with
  | error fault after =>
    rintro ⟨large, rfl⟩
    rw [if_pos large]
    exact ⟨after, rfl⟩
  | ok lexeme after =>
    rintro ⟨small, rfl, remains⟩
    rw [if_neg small]
    exact ⟨after, _, rfl, remains⟩

end Stream
end Unsugar
