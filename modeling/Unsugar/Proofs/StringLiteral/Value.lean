import Mathlib.Data.List.TakeDrop
import Unsugar.Proofs.Text.Utf8
import Unsugar.StringLiteral

/-! Values of string literals. The literal of a text that is no bytes literal denotes a
text: an escape takes whole characters and denotes characters, except that an unknown
escape may take the first byte of a character, whose other bytes then follow. -/

namespace Unsugar.StringLiteral

open Text (IsText)

/-! ## Escapes -/

theorem toNat_lt_of_hexValue? {byte : UInt8} {value : Nat} (found : hexValue? byte = some value) :
    byte.toNat < 0x80 := by
  unfold hexValue? at found
  dsimp only at found
  split at found
  · omega
  split at found
  · omega
  split at found
  · omega
  · cases found

theorem toNat_lt_of_hexNumber? {bytes : List UInt8} {number : Nat}
    (found : hexNumber? bytes = some number) : ∀ byte ∈ bytes, byte.toNat < 0x80 := by
  unfold hexNumber? at found
  revert found
  generalize 0 = start
  induction bytes generalizing start with
  | nil => exact fun _ => nofun
  | cons byte bytes induction =>
    intro found
    rw [List.foldlM_cons] at found
    obtain ⟨next, step, rest⟩ := Option.bind_eq_some_iff.mp found
    obtain ⟨value, digit, -⟩ := Option.map_eq_some_iff.mp step
    exact List.forall_mem_cons.mpr ⟨toNat_lt_of_hexValue? digit, induction next rest⟩

theorem toNat_lt_of_isOctal {byte : UInt8} (octal : isOctal byte = true) : byte.toNat < 0x80 := by
  simp only [isOctal, Bool.and_eq_true, decide_eq_true_eq] at octal
  omega

theorem toNat_lt_of_letterEscape? {letter value : UInt8}
    (found : letterEscape? letter = some value) : letter.toNat < 0x80 ∧ value.toNat < 0x80 := by
  have all : ∀ code < 256, (letterEscape? (UInt8.ofNat code)).all (fun value =>
      code < 0x80 && value.toNat < 0x80) = true := by
    decide +kernel
  have this := all letter.toNat letter.toNat_lt
  rw [UInt8.ofNat_toNat, found] at this
  simpa using this

theorem isText_encodeCode (code : Nat) : IsText (encodeCode code) :=
  .encode _

theorem isText_encodeByte (code : Nat) : IsText (encodeByte false code) := by
  unfold encodeByte
  split
  case isTrue either =>
    have narrow := either.resolve_left Bool.false_ne_true
    have value : code.toUInt8.toNat = code := Text.byteOfNat_toNat (by omega)
    apply IsText.ascii
    rw [value]
    exact narrow
  case isFalse => exact isText_encodeCode code

/-- What an escape sequence takes and denotes: ASCII characters that denote a text, or a
byte that is kept with its backslash. -/
inductive Escaped (rest : List UInt8) : List UInt8 → Nat → Prop where
  | text {taken after value : List UInt8} (split : rest = taken ++ after)
      (small : ∀ byte ∈ taken, byte.toNat < 0x80) (text : IsText value) :
      Escaped rest value taken.length
  | kept {letter : UInt8} {after : List UInt8} (split : rest = letter :: after) :
      Escaped rest [ascii '\\', letter] 1

theorem Escaped.ascii {letter : UInt8} {after value : List UInt8} (small : letter.toNat < 0x80)
    (text : IsText value) : Escaped (letter :: after) value 1 := by
  have alone : ∀ byte ∈ [letter], byte.toNat < 0x80 := by simpa using small
  exact .text rfl alone text

/-- A letter and hexadecimal digits. -/
theorem Escaped.hex {width number : Nat} {letter : UInt8} {after value : List UInt8}
    (small : letter.toNat < 0x80) (enough : ¬fewer (width + 1) (letter :: after) = true)
    (digits : hexNumber? (after.take width) = some number) (text : IsText value) :
    Escaped (letter :: after) value (width + 1) := by
  have length : (letter :: after.take width).length = width + 1 := by
    simp only [fewer, List.length_take, List.length_cons, decide_eq_true_eq] at enough ⊢
    omega
  rw [← length]
  have split : letter :: after = (letter :: after.take width) ++ after.drop width := by
    rw [List.cons_append, List.take_append_drop]
  exact .text split (List.forall_mem_cons.mpr ⟨small, toNat_lt_of_hexNumber? digits⟩) text

theorem codePointEscape_escaped {width : Nat} {letter : UInt8} {after value : List UInt8}
    {taken : Nat} (small : letter.toNat < 0x80)
    (found : codePointEscape width (letter :: after) = .ok (value, taken)) :
    Escaped (letter :: after) value taken := by
  unfold codePointEscape at found
  dsimp only at found
  split at found
  case isTrue => cases found
  case isFalse enough =>
  split at found
  · cases found
  case h_2 code digits =>
  split at found
  · cases found
  · cases found
    exact .hex small enough digits (isText_encodeCode code)

theorem escape_escaped {rest value : List UInt8} {width : Nat}
    (found : escape false rest = .ok (value, width)) : Escaped rest value width := by
  unfold escape at found
  dsimp only at found
  cases rest with
  | nil => cases found
  | cons letter after =>
  dsimp only at found
  by_cases feed : letter = ascii '\n'
  · rw [if_pos feed] at found
    cases found
    exact .ascii (feed ▸ by decide) .nil
  rw [if_neg feed] at found
  by_cases return_ : letter = ascii '\r'
  · rw [if_pos return_] at found
    cases found
    have small : letter.toNat < 0x80 := return_ ▸ by decide
    split
    case isTrue pair =>
      obtain ⟨tail, rfl⟩ := List.head?_eq_some_iff.mp pair
      have marks : ∀ byte ∈ [letter, ascii '\n'], byte.toNat < 0x80 := by
        simpa using ⟨small, by decide⟩
      exact .text rfl marks .nil
    case isFalse => exact .ascii small .nil
  rw [if_neg return_] at found
  cases known : letterEscape? letter with
  | some value =>
    rw [known] at found
    cases found
    obtain ⟨small, text⟩ := toNat_lt_of_letterEscape? known
    exact .ascii small (.ascii text)
  | none =>
  rw [known] at found
  dsimp only at found
  by_cases octal : isOctal letter = true
  · rw [if_pos octal] at found
    split at found
    case isTrue => cases found
    case isFalse =>
      cases found
      have digits : ∀ byte ∈ (after.take 2).takeWhile isOctal, byte.toNat < 0x80 :=
        fun byte member => toNat_lt_of_isOctal (List.all_eq_true.mp List.all_takeWhile byte member)
      obtain ⟨tail, split⟩ := (List.takeWhile_prefix isOctal).trans (List.take_prefix 2 after)
      refine .text (congrArg (letter :: ·) split.symm) ?_ (isText_encodeByte _)
      exact List.forall_mem_cons.mpr ⟨toNat_lt_of_isOctal octal, digits⟩
  rw [if_neg octal] at found
  by_cases hex : letter = ascii 'x'
  · rw [if_pos hex] at found
    split at found
    case isTrue => cases found
    case isFalse enough =>
    split at found
    · cases found
    case h_2 code digits =>
      cases found
      have more : ¬fewer 3 (letter :: after) = true := by
        simp only [fewer, List.length_take, List.length_cons, decide_eq_true_eq] at enough ⊢
        omega
      exact .hex (hex ▸ by decide) more digits (isText_encodeByte code)
  rw [if_neg hex] at found
  by_cases short : letter = ascii 'u'
  · rw [if_pos short, if_neg Bool.false_ne_true] at found
    exact codePointEscape_escaped (short ▸ by decide) found
  rw [if_neg short] at found
  by_cases long : letter = ascii 'U'
  · rw [if_pos long, if_neg Bool.false_ne_true] at found
    exact codePointEscape_escaped (long ▸ by decide) found
  rw [if_neg long] at found
  by_cases named : letter = ascii 'N'
  · rw [if_pos named, if_neg Bool.false_ne_true] at found
    cases found
  rw [if_neg named] at found
  cases found
  exact .kept rfl

/-! ## Bodies -/

theorem ok_of_bind {α β ε : Type} {first : Except ε α} {next : α → Except ε β} {value : β}
    (given : (first >>= next) = .ok value) :
    ∃ middle, first = .ok middle ∧ next middle = .ok value := by
  cases first with
  | error failure => cases given
  | ok middle => exact ⟨middle, rfl, given⟩

/-- An ASCII byte is no part of a character that begins before it. -/
theorem isText_of_ascii {byte : UInt8} {rest high : List UInt8} {text : List Char}
    (small : byte.toNat < 0x80) (split : byte :: rest = high ++ Text.encode text)
    (wide : ∀ byte ∈ high, 0x80 ≤ byte.toNat) : high = [] ∧ IsText (byte :: rest) := by
  cases high with
  | nil => exact ⟨rfl, text, split⟩
  | cons first high =>
    obtain ⟨rfl, -⟩ := List.cons.inj split
    exact absurd small (Nat.not_lt.mpr (wide byte List.mem_cons_self))

/-- What a body denotes is a text, but for the rest of a character that begins before it. -/
theorem unescapeFrom_text {plain : Bool} {skipped : Nat} {body value : List UInt8}
    (given : unescapeFrom plain false skipped body = .ok value) {high : List UInt8}
    {text : List Char} (split : body.drop skipped = high ++ Text.encode text)
    (wide : ∀ byte ∈ high, 0x80 ≤ byte.toNat) :
    ∃ text, value = high ++ Text.encode text := by
  fun_induction unescapeFrom plain false skipped body generalizing value high text with
  | case1 skipped =>
    cases given
    rw [List.drop_nil] at split
    obtain ⟨rfl, -⟩ := List.append_eq_nil_iff.mp split.symm
    exact ⟨[], rfl⟩
  | case2 skipped byte rest induction => exact induction given split wide
  | case3 rest skipped =>
    rename_i induction
    obtain ⟨rfl, whole⟩ := isText_of_ascii (by decide) split wide
    have others := whole.tail (by decide)
    obtain ⟨tail, read, same⟩ := ok_of_bind given
    cases same
    have remains : IsText (rest.drop skipped) := by
      unfold skipped
      split
      case isFalse => exact others
      case isTrue pair =>
        cases rest with
        | nil => cases pair
        | cons next rest =>
          obtain rfl := Option.some.inj pair
          exact others.tail (by decide)
    obtain ⟨others, spelt⟩ := remains
    have split : rest.drop skipped = [] ++ Text.encode others := spelt
    obtain ⟨last, rfl⟩ := induction read split nofun
    have feed : IsText [ascii '\n'] := .ascii (by decide)
    exact feed.append (.encode last)
  | case4 byte rest notReturn slash induction =>
    obtain rfl := slash.1
    obtain ⟨rfl, whole⟩ := isText_of_ascii (by decide) split wide
    have others := whole.tail (by decide)
    obtain ⟨⟨piece, width⟩, escapes, given⟩ := ok_of_bind given
    obtain ⟨tail, read, same⟩ := ok_of_bind given
    cases same
    cases escape_escaped escapes with
    | @text taken after value divided small piece =>
      subst divided
      obtain ⟨rest, others⟩ := others.of_append_left small
      have remains : (taken ++ after).drop taken.length = [] ++ Text.encode rest :=
        List.drop_left.trans others
      obtain ⟨last, rfl⟩ := induction _ read remains nofun
      exact piece.append (.encode last)
    | @kept letter after divided =>
      subst divided
      obtain ⟨high, rest, rfl, wide, -, build⟩ := others.begins
      obtain ⟨last, rfl⟩ := induction 1 read rfl wide
      have slash : IsText [ascii '\\'] := .ascii (by decide)
      exact slash.append (build last)
  | case5 byte rest notReturn notSlash induction =>
    obtain ⟨tail, read, same⟩ := ok_of_bind given
    cases same
    cases high with
    | nil =>
      have whole : IsText (byte :: rest) := ⟨text, split⟩
      obtain ⟨high, others, rfl, wide, -, build⟩ := whole.begins
      obtain ⟨last, rfl⟩ := induction read rfl wide
      exact build last
    | cons first high =>
      obtain ⟨rfl, others⟩ := List.cons.inj split
      obtain ⟨last, rfl⟩ := induction read others (List.forall_mem_cons.mp wide).2
      exact ⟨last, rfl⟩

theorem isText_of_unescape {plain : Bool} {body value : List UInt8} (text : IsText body)
    (given : unescape plain false body = .ok value) : IsText value := by
  obtain ⟨chars, rfl⟩ := text
  have split : (Text.encode chars).drop 0 = [] ++ Text.encode chars := rfl
  exact unescapeFrom_text given split nofun

/-! ## Literals -/

theorem toNat_lt_of_isQuote {byte : UInt8} (quote : isQuote byte = true) : byte.toNat < 0x80 := by
  simp only [isQuote, Bool.or_eq_true, decide_eq_true_eq] at quote
  rcases quote with rfl | rfl <;> decide

/-- The marks of a literal are ASCII characters, and a quote comes after them. -/
theorem readMarks_text {marks after : Marks} {literal quoted : List UInt8} (text : IsText literal)
    (given : readMarks marks literal = .ok (after, quoted)) :
    IsText quoted ∧ ∀ byte ∈ quoted.head?, isQuote byte = true := by
  fun_induction readMarks marks literal with
  | case1 marks =>
    cases given
    exact ⟨text, nofun⟩
  | case2 marks byte rest quote =>
    cases given
    refine ⟨text, ?_⟩
    rintro _ ⟨⟩
    exact quote
  | case3 marks byte rest _ mark induction =>
    exact induction (text.tail (by rcases mark with rfl | rfl <;> decide)) given
  | case4 marks byte rest _ _ mark induction =>
    exact induction (text.tail (by rcases mark with rfl | rfl <;> decide)) given
  | case5 marks byte rest _ _ _ mark induction =>
    exact induction (text.tail (by rcases mark with rfl | rfl <;> decide)) given
  | case6 => cases given

/-- The quotes at both ends of a body are ASCII characters. -/
theorem isText_body {quoted : List UInt8} {width : Nat} (text : IsText quoted)
    (opening : ∀ byte ∈ quoted.take width, byte.toNat < 0x80)
    (closing : ∀ byte ∈ quoted.drop (quoted.length - width), byte.toNat < 0x80)
    (room : 2 * width ≤ quoted.length) :
    IsText ((quoted.drop width).take (quoted.length - 2 * width)) := by
  have after : IsText (quoted.drop width) := by
    rw [← List.take_append_drop width quoted] at text
    exact text.of_append_left opening
  rw [← List.take_append_drop (quoted.length - 2 * width) (quoted.drop width), List.drop_drop,
    show width + (quoted.length - 2 * width) = quoted.length - width by omega] at after
  exact after.of_append_right closing

/-- Between quotes that are ASCII characters stands a text. -/
theorem isText_between_quotes {quoted : List UInt8} (text : IsText quoted)
    (small : ∀ byte ∈ quoted.head?, byte.toNat < 0x80) (ends : quoted.head? = quoted.getLast?)
    (long : 2 ≤ quoted.length) : IsText (betweenQuotes quoted) := by
  rw [betweenQuotes]
  cases triple : isTriple quoted with
  | true =>
    simp only [isTriple, Bool.and_eq_true, decide_eq_true_eq, beq_iff_eq,
      List.all_eq_true] at triple
    obtain ⟨⟨room, opening⟩, closing⟩ := triple
    have front : ∀ byte ∈ quoted.take 3, byte.toNat < 0x80 :=
      fun byte member => small byte (opening byte member).symm
    exact isText_body text front (closing ▸ front) room
  | false =>
    have some : quoted ≠ [] := List.ne_nil_of_length_pos (Nat.lt_of_lt_of_le Nat.two_pos long)
    have opening : ∀ byte ∈ quoted.take 1, byte.toNat < 0x80 := by
      intro byte member
      rw [List.take_one] at member
      exact small byte (Option.mem_toList.mp member)
    have closing : ∀ byte ∈ quoted.drop (quoted.length - 1), byte.toNat < 0x80 := by
      intro byte member
      rw [List.drop_length_sub_one some] at member
      apply small
      rw [ends, List.getLast?_eq_some_getLast some, List.mem_singleton.mp member]
      rfl
    exact isText_body text opening closing long

theorem of_readQuoted {literal quoted : List UInt8} {marks : Marks}
    (given : readQuoted literal = .ok (marks, quoted)) :
    readMarks {} literal = .ok (marks, quoted) ∧ 2 ≤ quoted.length ∧
      quoted.head? = quoted.getLast? := by
  obtain ⟨⟨found, rest⟩, read, given⟩ := ok_of_bind given
  dsimp only at given
  split at given
  case isTrue => cases given
  case isFalse long =>
  split at given
  case isTrue => cases given
  case isFalse ends =>
  cases given
  exact ⟨read, Nat.le_of_not_lt long, Decidable.not_not.mp ends⟩

/-- A literal of a text denotes a text, unless it is a bytes literal. -/
theorem isText_of_unquote {raw : List Char} {reading : Reading}
    (given : unquote (Text.encode raw) = .ok reading) (plain : reading.inBytes = false) :
    IsText reading.value := by
  unfold unquote at given
  obtain ⟨⟨marks, quoted⟩, part, given⟩ := ok_of_bind given
  obtain ⟨read, long, ends⟩ := of_readQuoted part
  obtain ⟨text, begins⟩ := readMarks_text (.encode raw) read
  obtain ⟨value, decoded, same⟩ := ok_of_bind given
  cases same
  dsimp only at plain decoded
  rw [plain] at decoded
  refine isText_of_unescape (isText_between_quotes text ?_ ends long) decoded
  exact fun byte first => toNat_lt_of_isQuote (begins byte first)

end Unsugar.StringLiteral
