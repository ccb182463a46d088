import Unsugar.Proofs.Text.Utf8
import Unsugar.Proofs.Token.Break
import Unsugar.StringLiteral

/-! Reading back what is written. Each piece of a written body denotes the bytes it was
written for, whatever comes after it, and so the whole literal denotes its value. -/

namespace Unsugar

namespace StringLiteral

theorem encode_cons_ascii {char : Char} (small : char.toNat < 0x80) (rest : List Char) :
    Text.encode (char :: rest) = ascii char :: Text.encode rest := by
  rw [Text.encode_cons, Text.encodeChar_ascii small]
  rfl

/-! ## Hexadecimal digits -/

theorem hexValue?_hexDigit : ∀ value < 16,
    (Text.hexDigit value).toNat < 0x80 ∧ hexValue? (ascii (Text.hexDigit value)) = some value := by
  decide

theorem encode_hexDigits (width value : Nat) :
    (Text.encode (Text.hexDigits width value)).length = width ∧
      (value < Nat.pow 16 width →
        hexNumber? (Text.encode (Text.hexDigits width value)) = some value) := by
  induction width generalizing value with
  | zero => exact ⟨rfl, fun small => congrArg some (Nat.lt_one_iff.mp small).symm⟩
  | succ width induction =>
    obtain ⟨small, digit⟩ := hexValue?_hexDigit (value % 16) (Nat.mod_lt _ (by decide))
    obtain ⟨length, number⟩ := induction (value / 16)
    rw [Text.hexDigits, Text.encode_append, encode_cons_ascii small]
    refine ⟨?_, fun bound => ?_⟩
    · rw [List.length_append, length]
      rfl
    · have step : Nat.pow 16 (width + 1) = 16 * Nat.pow 16 width := Nat.mul_comm _ 16
      have fits : value / 16 < Nat.pow 16 width := Nat.div_lt_of_lt_mul (step ▸ bound)
      have before := number fits
      unfold hexNumber? at before ⊢
      rw [List.foldlM_append, before]
      simp [digit]
      omega

/-! ## Decoding step by step -/

/-- The body of a literal that has escapes denotes some bytes. -/
def Decodes (inBytes : Bool) (body value : List UInt8) : Prop :=
  unescape false inBytes body = .ok value

theorem unescapeFrom_append (plain inBytes : Bool) (taken rest : List UInt8) :
    unescapeFrom plain inBytes taken.length (taken ++ rest) = unescape plain inBytes rest := by
  induction taken with
  | nil => rfl
  | cons byte taken induction => exact induction

namespace Decodes

variable {inBytes : Bool} {rest tail : List UInt8}

theorem nil : Decodes inBytes [] [] := rfl

theorem plain {byte : UInt8} (notReturn : byte ≠ ascii '\r') (notSlash : byte ≠ ascii '\\')
    (given : Decodes inBytes rest tail) : Decodes inBytes (byte :: rest) (byte :: tail) := by
  unfold Decodes unescape at given ⊢
  rw [unescapeFrom, if_neg notReturn, if_neg (fun both => notSlash both.1), given]
  rfl

theorem plains {bytes : List UInt8} (high : ∀ byte ∈ bytes, 0x80 ≤ byte.toNat)
    (given : Decodes inBytes rest tail) : Decodes inBytes (bytes ++ rest) (bytes ++ tail) := by
  induction bytes with
  | nil => exact given
  | cons byte bytes induction =>
    obtain ⟨first, others⟩ := List.forall_mem_cons.mp high
    refine plain ?_ ?_ (induction others)
    · rintro rfl
      exact absurd first (by decide)
    · rintro rfl
      exact absurd first (by decide)

theorem escape (taken : List UInt8) {value : List UInt8}
    (escapes : StringLiteral.escape inBytes (taken ++ rest) = .ok (value, taken.length))
    (given : Decodes inBytes rest tail) :
    Decodes inBytes (ascii '\\' :: (taken ++ rest)) (value ++ tail) := by
  unfold Decodes unescape
  rw [unescapeFrom, if_neg (by decide), if_pos ⟨rfl, rfl⟩, escapes]
  change (unescapeFrom false inBytes taken.length (taken ++ rest) >>= fun tail =>
    Pure.pure (value ++ tail)) = _
  rw [unescapeFrom_append, given]
  rfl

end Decodes

/-! ## Written bodies -/

/-- A letter that is written for a byte is read as that byte. -/
theorem letterEscape?_of_escapeLetter? {byte : UInt8} {letter : Char}
    (found : escapeLetter? byte = some letter) :
    letter.toNat < 0x80 ∧ letterEscape? (ascii letter) = some byte := by
  have all : ∀ code < 256, (escapeLetter? (UInt8.ofNat code)).all (fun letter =>
      letter.toNat < 0x80 && letterEscape? (ascii letter) == some (UInt8.ofNat code)) = true := by
    decide +kernel
  have this := all byte.toNat byte.toNat_lt
  rw [UInt8.ofNat_toNat, found] at this
  simpa using this

/-- A byte that has no letter is no quote, no backslash and no end of a line. -/
theorem ne_of_escapeLetter? {byte : UInt8} (none : escapeLetter? byte = none) :
    byte ≠ ascii '"' ∧ byte ≠ ascii '\\' ∧ byte ≠ ascii '\n' ∧ byte ≠ ascii '\r' := by
  refine ⟨?_, ?_, ?_, ?_⟩
  all_goals
    rintro rfl
    cases none

theorem escape_letter {letter value : UInt8} (known : letterEscape? letter = some value)
    (inBytes : Bool) (rest : List UInt8) :
    escape inBytes (letter :: rest) = .ok ([value], 1) := by
  have notFeed : letter ≠ ascii '\n' := by
    rintro rfl
    cases known
  have notReturn : letter ≠ ascii '\r' := by
    rintro rfl
    cases known
  unfold escape
  dsimp only
  rw [if_neg notFeed, if_neg notReturn, known]
  rfl

/-- The bytes of a code are written with digits of their own. -/
theorem escape_hex {code : Nat} (small : code < 256) (inBytes : Bool) (rest : List UInt8) :
    escape inBytes (ascii 'x' :: Text.encode (Text.hexDigits 2 code) ++ rest) =
      .ok (encodeByte inBytes code, 3) := by
  obtain ⟨length, number⟩ := encode_hexDigits 2 code
  have taken : (Text.encode (Text.hexDigits 2 code) ++ rest).take 2 =
      Text.encode (Text.hexDigits 2 code) := List.take_left' length
  have enough : fewer 2 (Text.encode (Text.hexDigits 2 code) ++ rest) = false := by
    simp [fewer, taken, length]
  unfold escape
  simp only [List.cons_append, enough, taken, number small]
  rfl

theorem escape_codePoint {width : Nat} {letter : Char} {code : Nat} (bound : code ≤ 0x10FFFF)
    (fits : code < Nat.pow 16 width) (rest : List UInt8) :
    codePointEscape width (ascii letter :: Text.encode (Text.hexDigits width code) ++ rest) =
      .ok (encodeCode code, width + 1) := by
  obtain ⟨length, number⟩ := encode_hexDigits width code
  have taken : (Text.encode (Text.hexDigits width code) ++ rest).take width =
      Text.encode (Text.hexDigits width code) := List.take_left' length
  have enough : fewer (width + 1)
      (ascii letter :: Text.encode (Text.hexDigits width code) ++ rest) = false := by
    simp [fewer, taken, length]
  unfold codePointEscape
  dsimp only
  rw [enough, List.cons_append, List.drop_succ_cons, List.drop_zero, taken, number fits]
  simp [Nat.not_lt.mpr bound]
  rfl

/-- A byte of a literal, or an ASCII character of a text, is read as it was written. -/
theorem quoteByte_decodes {inBytes : Bool} (triple : Bool) {byte : UInt8} {rest tail : List UInt8}
    (single : inBytes = true ∨ byte.toNat < 0x80) (given : Decodes inBytes rest tail) :
    Decodes inBytes (Text.encode (quoteByte triple byte) ++ rest) (byte :: tail) := by
  unfold quoteByte
  split
  case isTrue feed =>
    rw [feed.2]
    exact given.plain (by decide) (by decide)
  case isFalse =>
  split
  case h_1 letter found =>
    obtain ⟨small, known⟩ := letterEscape?_of_escapeLetter? found
    have spelt : Text.encode ['\\', letter] = [ascii '\\', ascii letter] := by
      rw [encode_cons_ascii (by decide), encode_cons_ascii small]
      rfl
    rw [spelt]
    exact given.escape [ascii letter] (escape_letter known inBytes rest)
  case h_2 none =>
  split
  case isTrue =>
    have one : encodeByte inBytes byte.toNat = [byte] := by
      rw [encodeByte, if_pos single]
      exact congrArg (fun byte => [byte]) UInt8.ofNat_toNat
    have escapes := escape_hex byte.toNat_lt inBytes rest
    rw [one] at escapes
    have width : (ascii 'x' :: Text.encode (Text.hexDigits 2 byte.toNat)).length = 3 :=
      congrArg (· + 1) (encode_hexDigits 2 byte.toNat).1
    exact given.escape _ (width ▸ escapes)
  case isFalse visible =>
    obtain ⟨-, notSlash, -, notReturn⟩ := ne_of_escapeLetter? none
    have small : byte.toNat < 0x7F := by omega
    have value : (Char.ofNat byte.toNat).toNat = byte.toNat :=
      Text.charOfNat_toNat (.inl (by omega))
    have spelt : Text.encode [Char.ofNat byte.toNat] = [byte] := by
      rw [encode_cons_ascii (by omega), ascii, value]
      exact congrArg (fun byte => [byte]) UInt8.ofNat_toNat
    rw [spelt]
    exact given.plain notReturn notSlash

/-- A character of a text is read as it was written. -/
theorem quotePiece_decodes (printable : Char → Bool) (triple : Bool) (char : Char)
    {rest tail : List UInt8} (given : Decodes false rest tail) :
    Decodes false (Text.encode (quotePiece printable triple (.char char)) ++ rest)
      (String.utf8EncodeChar char ++ tail) := by
  have bound := Nat.le_of_lt_succ (Text.toNat_lt char)
  have code : encodeCode char.toNat = String.utf8EncodeChar char := by
    have valid : char.toNat.isValidChar := char.valid
    rw [encodeCode, if_pos valid, Char.ofNat_toNat]
    exact List.append_nil _
  have codePoint : ∀ (letter : Char) (digits : Nat), letter.toNat < 0x80 →
      char.toNat < Nat.pow 16 digits →
      (∀ rest, escape false (ascii letter :: rest) =
        codePointEscape digits (ascii letter :: rest)) →
      Decodes false (Text.encode (['\\', letter] ++ Text.hexDigits digits char.toNat) ++ rest)
        (String.utf8EncodeChar char ++ tail) := by
    intro letter digits small fits escapes
    have width : (ascii letter :: Text.encode (Text.hexDigits digits char.toNat)).length =
        digits + 1 := congrArg (· + 1) (encode_hexDigits digits char.toNat).1
    have whole : codePointEscape digits
        (ascii letter :: Text.encode (Text.hexDigits digits char.toNat) ++ rest) =
        .ok (encodeCode char.toNat, digits + 1) := escape_codePoint bound fits rest
    rw [List.cons_append, ← escapes, code, ← width] at whole
    rw [List.cons_append, List.cons_append, List.nil_append, encode_cons_ascii (by decide),
      encode_cons_ascii small]
    exact given.escape _ whole
  unfold quotePiece
  dsimp only
  split
  case isTrue small =>
    have byte : char.toNat.toUInt8.toNat = char.toNat := Text.byteOfNat_toNat (by omega)
    rw [Text.encodeChar_ascii small]
    exact quoteByte_decodes triple (.inr (Nat.lt_of_le_of_lt (Nat.le_of_eq byte) small)) given
  case isFalse wide =>
  split
  case isTrue =>
    rw [Text.encode_cons, Text.encode_nil, List.append_nil]
    exact given.plains (Text.high_of_mem_encodeChar (Nat.le_of_not_lt wide))
  case isFalse =>
  split
  case isTrue fits => exact codePoint 'u' 4 (by decide) fits fun _ => rfl
  case isFalse =>
    exact codePoint 'U' 8 (by decide) (Nat.lt_of_le_of_lt bound (by decide)) fun _ => rfl

/-! ## Whole literals -/

/-- A value that a literal of a kind can have: any bytes, or the bytes of a text. -/
def IsValue (inBytes : Bool) (value : List UInt8) : Prop :=
  inBytes = true ∨ Text.IsText value

theorem quoteBody_decodes (printable : Char → Bool) {inBytes : Bool} (triple : Bool)
    {value : List UInt8} (valid : IsValue inBytes value) :
    Decodes inBytes (Text.encode (quoteBody printable inBytes triple value)) value := by
  cases inBytes with
  | true =>
    change Decodes true (Text.encode (value.flatMap (quoteByte triple))) value
    induction value with
    | nil => exact .nil
    | cons byte value induction =>
      rw [List.flatMap_cons, Text.encode_append]
      exact quoteByte_decodes triple (.inl rfl) (induction (.inl rfl))
  | false =>
    obtain ⟨text, rfl⟩ : ∃ text, value = Text.encode text := by
      rcases valid with impossible | text
      · cases impossible
      · exact text
    change Decodes false (Text.encode ((Text.pieces (Text.encode text)).flatMap
      (quotePiece printable triple))) (Text.encode text)
    rw [Text.pieces_encode]
    induction text with
    | nil => exact .nil
    | cons char text induction =>
      rw [List.map_cons, List.flatMap_cons, Text.encode_append, Text.encode_cons]
      exact quotePiece_decodes printable triple char (induction (.inr ⟨text, rfl⟩))

/-- A text that no double quote ends: characters of a line, and backslashes that stand
before a character of the line. -/
inductive Enclosed : List Char → Prop where
  | nil : Enclosed []
  | plain {char : Char} {rest : List Char} (notQuote : char ≠ '"') (notSlash : char ≠ '\\')
      (inLine : isBreak char = false) (enclosed : Enclosed rest) : Enclosed (char :: rest)
  | escaped {char : Char} {rest : List Char} (inLine : isBreak char = false)
      (enclosed : Enclosed rest) : Enclosed ('\\' :: char :: rest)

namespace Enclosed

theorem append {first second : List Char} (before : Enclosed first) (after : Enclosed second) :
    Enclosed (first ++ second) := by
  induction before with
  | nil => exact after
  | plain notQuote notSlash inLine _ induction => exact .plain notQuote notSlash inLine induction
  | escaped inLine _ induction => exact .escaped inLine induction

theorem flatMap {α : Type} {pieces : List α} {write : α → List Char}
    (each : ∀ piece ∈ pieces, Enclosed (write piece)) : Enclosed (pieces.flatMap write) := by
  induction pieces with
  | nil => exact .nil
  | cons piece pieces induction =>
    obtain ⟨first, others⟩ := List.forall_mem_cons.mp each
    exact first.append (induction others)

theorem head?_ne {text : List Char} (enclosed : Enclosed text) : text.head? ≠ some '"' := by
  cases enclosed with
  | nil => exact nofun
  | plain notQuote => exact fun same => notQuote (Option.some.inj same)
  | escaped => exact nofun

/-- The closing quote is not taken for one of three. -/
theorem take_two_ne {text rest : List Char} (enclosed : Enclosed text)
    (free : rest.head? ≠ some '"') : (text ++ '"' :: rest).take 2 ≠ ['"', '"'] := by
  intro same
  cases text with
  | nil =>
    cases rest with
    | nil => cases same
    | cons char rest =>
      obtain rfl : char = '"' := (List.cons.inj (List.cons.inj same).2).1
      exact free rfl
  | cons char text =>
    obtain rfl : char = '"' := (List.cons.inj same).1
    exact enclosed.head?_ne rfl

/-- Digits need no care. -/
theorem hexDigits (width value : Nat) : Enclosed (Text.hexDigits width value) := by
  have digit : ∀ value < 16, Text.hexDigit value ≠ '"' ∧ Text.hexDigit value ≠ '\\' ∧
      isBreak (Text.hexDigit value) = false := by decide
  induction width generalizing value with
  | zero => exact .nil
  | succ width induction =>
    obtain ⟨notQuote, notSlash, inLine⟩ := digit (value % 16) (Nat.mod_lt _ (by decide))
    exact (induction (value / 16)).append (.plain notQuote notSlash inLine .nil)

end Enclosed

theorem quoteByte_enclosed (byte : UInt8) : Enclosed (quoteByte false byte) := by
  unfold quoteByte
  split
  case isTrue feed => cases feed.1
  case isFalse =>
  split
  case h_1 letter found =>
    refine .escaped ?_ .nil
    cases breaks : isBreak letter with
    | false => rfl
    | true =>
      have known := (letterEscape?_of_escapeLetter? found).2
      rcases (isBreak_iff letter).mp breaks with rfl | rfl <;> cases known
  case h_2 none =>
  split
  case isTrue => exact .escaped rfl (.hexDigits 2 byte.toNat)
  case isFalse visible =>
    have value : (Char.ofNat byte.toNat).toNat = byte.toNat :=
      Text.charOfNat_toNat (.inl (by omega))
    have other : ∀ char : Char, byte ≠ ascii char → char.toNat < 256 →
        Char.ofNat byte.toNat ≠ char := by
      rintro _ differ small rfl
      apply differ
      rw [ascii, value]
      exact UInt8.ofNat_toNat.symm
    obtain ⟨notQuote, notSlash, notFeed, notReturn⟩ := ne_of_escapeLetter? none
    refine .plain (other _ notQuote (by decide)) (other _ notSlash (by decide)) ?_ .nil
    simp [isBreak, other _ notFeed (by decide), other _ notReturn (by decide)]

theorem quotePiece_enclosed (printable : Char → Bool) (piece : Text.Piece) :
    Enclosed (quotePiece printable false piece) := by
  cases piece with
  | stray byte => exact .escaped rfl (.hexDigits 2 byte.toNat)
  | char char =>
    unfold quotePiece
    dsimp only
    split
    case isTrue => exact quoteByte_enclosed _
    case isFalse wide =>
    have other : ∀ low : Char, low.toNat < 0x80 → char ≠ low := by
      rintro _ small rfl
      exact wide small
    split
    case isTrue =>
      refine .plain (other _ (by decide)) (other _ (by decide)) ?_ .nil
      simp [isBreak, other '\n' (by decide), other '\r' (by decide)]
    case isFalse =>
    split
    · exact .escaped rfl (.hexDigits 4 char.toNat)
    · exact .escaped rfl (.hexDigits 8 char.toNat)

theorem quoteBody_enclosed (printable : Char → Bool) (inBytes : Bool) (value : List UInt8) :
    Enclosed (quoteBody printable inBytes false value) := by
  unfold quoteBody
  split
  · exact .flatMap fun byte _ => quoteByte_enclosed byte
  · exact .flatMap fun piece _ => quotePiece_enclosed printable piece

/-- A text that does not begin with an ASCII character does not begin with its byte. -/
theorem head?_encode_ne {text : List Char} {char : Char} (small : char.toNat < 0x80)
    (other : text.head? ≠ some char) : (Text.encode text).head? ≠ some (ascii char) := by
  have value : (ascii char).toNat = char.toNat := Text.byteOfNat_toNat (by omega)
  cases text with
  | nil => exact nofun
  | cons first text =>
    by_cases narrow : first.toNat < 0x80
    · rw [encode_cons_ascii narrow]
      intro same
      apply other
      have code : (ascii first).toNat = first.toNat := Text.byteOfNat_toNat (by omega)
      have equal : first.toNat = char.toNat := by
        rw [← code, ← value, Option.some.inj same]
      exact congrArg some (Char.toNat_inj.mp equal)
    · obtain ⟨byte, others, spelt, -⟩ := Text.wellFormed?_encodeChar first []
      have high := Text.high_of_mem_encodeChar (Nat.le_of_not_lt narrow) byte
        (spelt ▸ List.mem_cons_self)
      rw [Text.encode_cons, spelt]
      intro same
      rw [← value, ← Option.some.inj same] at small
      omega

theorem readMarks_quotes (inBytes : Bool) (rest : List UInt8) :
    readMarks {} (Text.encode (if inBytes then ['b'] else []) ++ ascii '"' :: rest) =
      .ok ({ inBytes }, ascii '"' :: rest) := by
  cases inBytes <;> rfl

/-- A body that does not begin with a quote is between as many quotes as were written. -/
theorem isTriple_quotes {triple : Bool} {body : List UInt8}
    (begins : triple = false → body.head? ≠ some (ascii '"')) :
    isTriple (Text.encode (quotes triple) ++ body ++ Text.encode (quotes triple)) = triple := by
  cases triple with
  | true =>
    have opening : Text.encode (quotes true) = List.replicate 3 (ascii '"') := rfl
    rw [opening]
    have far : (List.replicate 3 (ascii '"') ++ body ++ List.replicate 3 (ascii '"')).length - 3 =
        (List.replicate 3 (ascii '"') ++ body).length := by simp
    unfold isTriple
    dsimp only
    rw [far, List.drop_left]
    simp
  | false =>
    have opening : Text.encode (quotes false) = [ascii '"'] := rfl
    rw [opening]
    cases body with
    | nil => rfl
    | cons byte body =>
      have other : byte ≠ ascii '"' := fun same => begins rfl (congrArg some same)
      simp [isTriple, other]

/-- Between the quotes of a literal stands its body. -/
theorem body_between {mark : List UInt8} {width : Nat} (length : mark.length = width)
    (body : List UInt8) :
    ((mark ++ body ++ mark).drop width).take ((mark ++ body ++ mark).length - 2 * width) =
      body := by
  subst length
  rw [List.append_assoc, List.drop_left, List.take_left']
  simp only [List.length_append]
  omega

/-- What is written for a value is a literal for what its body denotes. -/
theorem unquote_quoteWith_of_decodes {printable : Char → Bool} {inBytes triple : Bool}
    {value denoted : List UInt8}
    (decodes : Decodes inBytes (Text.encode (quoteBody printable inBytes triple value)) denoted) :
    unquote (Text.encode (quoteWith printable inBytes triple value)) =
      .ok { value := denoted, triple, inBytes } := by
  have begins : triple = false →
      (Text.encode (quoteBody printable inBytes triple value)).head? ≠ some (ascii '"') := by
    rintro rfl
    exact head?_encode_ne (by decide) (quoteBody_enclosed printable inBytes value).head?_ne
  revert decodes begins
  unfold quoteWith
  rw [Text.encode_append, Text.encode_append, Text.encode_append]
  generalize Text.encode (quoteBody printable inBytes triple value) = body
  intro decodes begins
  have isTriple := isTriple_quotes begins
  have marks : readMarks {} (Text.encode (if inBytes then ['b'] else []) ++
      (Text.encode (quotes triple) ++ body ++ Text.encode (quotes triple))) =
      .ok ({ inBytes }, Text.encode (quotes triple) ++ body ++ Text.encode (quotes triple)) := by
    cases triple
    · exact readMarks_quotes inBytes _
    · exact readMarks_quotes inBytes _
  have width : (Text.encode (quotes triple)).length = if triple then 3 else 1 := by
    cases triple <;> rfl
  have inner := body_between width body
  have long : ¬(Text.encode (quotes triple) ++ body ++ Text.encode (quotes triple)).length < 2 := by
    rw [List.length_append, List.length_append, width]
    split <;> omega
  have ends : (Text.encode (quotes triple) ++ body ++ Text.encode (quotes triple)).head? =
      (Text.encode (quotes triple) ++ body ++ Text.encode (quotes triple)).getLast? := by
    rw [List.getLast?_append]
    cases triple <;> rfl
  rw [List.append_assoc, List.append_assoc, ← List.append_assoc (Text.encode (quotes triple)),
    unquote, readQuoted, marks]
  dsimp only [bind, Except.bind]
  rw [if_neg long, if_neg (not_not_intro ends)]
  dsimp only [pure, Except.pure]
  rw [betweenQuotes, isTriple, inner, show unescape false inBytes body = .ok denoted from decodes]

/-- What is written for a value is a literal for it. -/
theorem unquote_quoteWith (printable : Char → Bool) {inBytes : Bool} (triple : Bool)
    {value : List UInt8} (valid : IsValue inBytes value) :
    unquote (Text.encode (quoteWith printable inBytes triple value)) =
      .ok { value, triple, inBytes } :=
  unquote_quoteWith_of_decodes (quoteBody_decodes printable triple valid)

end StringLiteral
end Unsugar
