import Unsugar.Proofs.Grammar.FormattedString
import Unsugar.Proofs.StringLiteral.Quoting
import Unsugar.Tree.Printer

/-! Formatted strings printed from their parts, and read again. The texts between the
fields come back whatever they hold. A field comes back if what is printed for its
expression ends where the reader looks for its end and can be read, and if the braces of its
format pair up. What is printed for an expression may have the quote that ends the
formatted string: whether the scanner finds the end of the body is another matter. -/

namespace Unsugar.Grammar

open StringLiteral (ascii quotePiece quoteByte)

/-! ## Texts -/

/-- What stands for a character in a text of a formatted string: the same as in a string
literal, but that the other quote is escaped. -/
def shown (char : Char) : List Char :=
  if char = '\'' then ['\\', '\'']
  else if char = '"' then ['"']
  else quotePiece Text.isPrintable false (.char char)

/-- A text with its braces doubled. -/
def doubled (text : List Char) : List Char :=
  text.flatMap fun char => if char = '\x7b' ∨ char = '\x7d' then [char, char] else [char]

/-- A character that printing and reading a text leave alone. -/
def IsOrdinary (char : Char) : Prop :=
  char ∉ ['\\', '"', '\'', '\x7b', '\x7d']

theorem isOrdinary_hexDigits (width value : Nat) :
    ∀ char ∈ Text.hexDigits width value, IsOrdinary char := by
  have digit : ∀ value < 16, Text.hexDigit value ∉ ['\\', '"', '\'', '\x7b', '\x7d'] := by decide
  induction width generalizing value with
  | zero => exact fun _ => nofun
  | succ width induction =>
    rw [Text.hexDigits]
    refine List.forall_mem_append.mpr ⟨induction _, List.forall_mem_singleton.mpr ?_⟩
    exact digit _ (Nat.mod_lt _ (by decide))

/-- How a character is spelt in a string literal. -/
inductive IsSpelling (char : Char) : List Char → Prop where
  | plain (notSlash : char ≠ '\\') (notQuote : char ≠ '"') : IsSpelling char [char]
  | quote (same : char = '"') : IsSpelling char ['\\', '"']
  | escape {letter : Char} {digits : List Char} (notQuote : char ≠ '"') (notSingle : char ≠ '\'')
      (fit : letter ∉ ['"', '\'', '\x7b', '\x7d', 'N'])
      (plain : ∀ digit ∈ digits, IsOrdinary digit) : IsSpelling char ('\\' :: letter :: digits)

/-- The letters of escapes, and the one quote that is escaped. -/
theorem escapeLetter?_fit {byte : UInt8} {letter : Char}
    (found : StringLiteral.escapeLetter? byte = some letter) :
    byte = ascii '"' ∧ letter = '"' ∨ byte ≠ ascii '"' ∧ byte ≠ ascii '\'' ∧
      letter ∉ ['"', '\'', '\x7b', '\x7d', 'N'] := by
  have all : ∀ code < 256, (StringLiteral.escapeLetter? (UInt8.ofNat code)).all (fun letter =>
      UInt8.ofNat code = ascii '"' ∧ letter = '"' ∨ UInt8.ofNat code ≠ ascii '"' ∧
        UInt8.ofNat code ≠ ascii '\'' ∧ letter ∉ ['"', '\'', '\x7b', '\x7d', 'N']) = true := by
    decide +kernel
  have this := all byte.toNat byte.toNat_lt
  rw [UInt8.ofNat_toNat, found] at this
  exact of_decide_eq_true this

theorem isSpelling_quoteByte {char : Char} (small : char.toNat < 0x80) :
    IsSpelling char (quoteByte false char.toNat.toUInt8) := by
  have value : char.toNat.toUInt8.toNat = char.toNat := Text.byteOfNat_toNat (by omega)
  have same : ∀ other : Char, char = other → char.toNat.toUInt8 = ascii other := by
    rintro _ rfl
    rfl
  have back : ∀ other : Char, other.toNat < 0x80 → char.toNat.toUInt8 = ascii other →
      char = other := by
    intro other bound bytes
    have codes : char.toNat = other.toNat := by
      rw [← value, bytes, ascii, Text.byteOfNat_toNat (by omega)]
    rw [← Char.ofNat_toNat char, codes, Char.ofNat_toNat]
  unfold quoteByte
  split
  case isTrue feed => cases feed.1
  case isFalse =>
  split
  case h_1 letter found =>
    rcases escapeLetter?_fit found with ⟨bytes, rfl⟩ | ⟨notQuote, notSingle, fit⟩
    · exact .quote (back '"' (by decide) bytes)
    · exact .escape (mt (same '"') notQuote) (mt (same '\'') notSingle) fit
        (List.forall_mem_nil _)
  case h_2 none =>
  obtain ⟨notQuote, notSlash, -⟩ := StringLiteral.ne_of_escapeLetter? none
  split
  case isTrue hidden =>
    rw [value] at hidden
    refine .escape (mt (same '"') notQuote) ?_ (by decide) (isOrdinary_hexDigits 2 _)
    rintro rfl
    revert hidden
    decide
  case isFalse =>
    rw [value, Char.ofNat_toNat]
    exact .plain (mt (same '\\') notSlash) (mt (same '"') notQuote)

theorem isSpelling_quotePiece (char : Char) :
    IsSpelling char (quotePiece Text.isPrintable false (.char char)) := by
  unfold quotePiece
  dsimp only
  split
  case isTrue small => exact isSpelling_quoteByte small
  case isFalse wide =>
  have other : ∀ low : Char, low.toNat < 0x80 → char ≠ low := by
    rintro low bound rfl
    exact wide bound
  have notQuote := other '"' (by decide)
  split
  case isTrue => exact .plain (other '\\' (by decide)) notQuote
  case isFalse =>
  have notSingle := other '\'' (by decide)
  split
  case isTrue => exact .escape notQuote notSingle (by decide) (isOrdinary_hexDigits 4 _)
  case isFalse => exact .escape notQuote notSingle (by decide) (isOrdinary_hexDigits 8 _)

/-! ### Printing -/

theorem fieldSafe_of_isOrdinary {char : Char} (ordinary : IsOrdinary char) (rest : List Char) :
    Printer.fieldSafe (char :: rest) = char :: Printer.fieldSafe rest := by
  simp only [IsOrdinary, List.mem_cons, List.not_mem_nil, not_or] at ordinary
  obtain ⟨notSlash, -, notSingle, notOpen, notClose, -⟩ := ordinary
  rw [Printer.fieldSafe]
  · exact fun _ same => absurd same notSlash
  · exact fun _ _ same => absurd same notSlash
  · exact notSingle
  · exact notOpen
  · exact notClose

theorem fieldSafe_ordinary_append {text : List Char} (ordinary : ∀ char ∈ text, IsOrdinary char)
    (rest : List Char) :
    Printer.fieldSafe (text ++ rest) = text ++ Printer.fieldSafe rest := by
  induction text with
  | nil => rfl
  | cons char text induction =>
    obtain ⟨first, others⟩ := List.forall_mem_cons.mp ordinary
    rw [List.cons_append, fieldSafe_of_isOrdinary first, induction others, List.cons_append]

theorem fieldSafe_slash {rest : List Char} (free : rest.head? ≠ some '"') :
    Printer.fieldSafe ('\\' :: rest) = '\\' :: Printer.fieldSafe rest := by
  cases rest with
  | nil => rfl
  | cons char rest =>
    rw [Printer.fieldSafe]
    rintro rfl
    exact free rfl

theorem doubled_ordinary {text : List Char} (ordinary : ∀ char ∈ text, IsOrdinary char) :
    doubled text = text := by
  induction text with
  | nil => rfl
  | cons char text induction =>
    obtain ⟨first, others⟩ := List.forall_mem_cons.mp ordinary
    simp only [IsOrdinary, List.mem_cons, List.not_mem_nil, not_or] at first
    have noBrace : ¬(char = '\x7b' ∨ char = '\x7d') := by
      rintro (rfl | rfl) <;> simp at first
    have rest := induction others
    unfold doubled at rest ⊢
    rw [List.flatMap_cons, if_neg noBrace, rest]
    rfl

theorem doubled_append (front rest : List Char) :
    doubled (front ++ rest) = doubled front ++ doubled rest :=
  List.flatMap_append

theorem head?_append_ne {text rest : List Char} (ordinary : ∀ char ∈ text, IsOrdinary char)
    (free : rest.head? ≠ some '"') : (text ++ rest).head? ≠ some '"' := by
  cases text with
  | nil => exact free
  | cons char text =>
    rintro ⟨⟩
    exact ordinary '"' List.mem_cons_self (by decide)

/-- The letter of an escape is a backslash, or ordinary. -/
theorem isOrdinary_of_fit {letter : Char} (fit : letter ∉ ['"', '\'', '\x7b', '\x7d', 'N'])
    (notSlash : letter ≠ '\\') : IsOrdinary letter := by
  simp only [IsOrdinary, List.mem_cons, List.not_mem_nil, not_or] at fit ⊢
  exact ⟨notSlash, fit.1, fit.2.1, fit.2.2.1, fit.2.2.2.1, not_false⟩

theorem fieldSafe_escape {letter : Char} {digits rest : List Char}
    (fit : letter ∉ ['"', '\'', '\x7b', '\x7d', 'N']) (plain : ∀ digit ∈ digits, IsOrdinary digit)
    (free : rest.head? ≠ some '"') :
    Printer.fieldSafe ('\\' :: letter :: digits ++ rest) =
      '\\' :: letter :: digits ++ Printer.fieldSafe rest := by
  have notQuote : letter ≠ '"' := by
    rintro rfl
    simp at fit
  have first : (letter :: (digits ++ rest)).head? ≠ some '"' := by simpa using notQuote
  have behind : Printer.fieldSafe (letter :: (digits ++ rest)) =
      letter :: Printer.fieldSafe (digits ++ rest) := by
    by_cases slash : letter = '\\'
    · rw [slash]
      exact fieldSafe_slash (head?_append_ne plain free)
    · exact fieldSafe_of_isOrdinary (isOrdinary_of_fit fit slash) _
  rw [List.cons_append, List.cons_append, fieldSafe_slash first, behind,
    fieldSafe_ordinary_append plain]
  rfl

theorem doubled_escape {letter : Char} {digits : List Char}
    (fit : letter ∉ ['"', '\'', '\x7b', '\x7d', 'N'])
    (plain : ∀ digit ∈ digits, IsOrdinary digit) :
    doubled ('\\' :: letter :: digits) = '\\' :: letter :: digits := by
  have noBrace : ¬(letter = '\x7b' ∨ letter = '\x7d') := by
    rintro (rfl | rfl) <;> simp at fit
  have rest := doubled_ordinary plain
  unfold doubled at rest ⊢
  rw [List.flatMap_cons, List.flatMap_cons, if_neg noBrace, rest]
  rfl

/-- A character that is spelt by itself is a quote, a brace, or ordinary. -/
theorem eq_of_not_isOrdinary {char : Char} (notSlash : char ≠ '\\') (notQuote : char ≠ '"')
    (special : ¬IsOrdinary char) : char = '\'' ∨ char = '\x7b' ∨ char = '\x7d' := by
  have member := Decidable.not_not.mp special
  simp only [List.mem_cons, List.not_mem_nil, or_false] at member
  exact (member.resolve_left notSlash).resolve_left notQuote

theorem fieldSafe_plain {char : Char} (notSlash : char ≠ '\\') (notQuote : char ≠ '"')
    (rest : List Char) :
    Printer.fieldSafe (char :: rest) =
      doubled (if char = '\'' then ['\\', '\''] else [char]) ++ Printer.fieldSafe rest := by
  by_cases ordinary : IsOrdinary char
  · have notSingle : char ≠ '\'' := by
      rintro rfl
      exact ordinary (by decide)
    have same : doubled [char] = [char] := doubled_ordinary (List.forall_mem_singleton.mpr ordinary)
    rw [fieldSafe_of_isOrdinary ordinary, if_neg notSingle, same]
    rfl
  · rcases eq_of_not_isOrdinary notSlash notQuote ordinary with rfl | rfl | rfl <;> rfl

/-- Braces are doubled and the quotes exchanged, character by character. -/
theorem fieldSafe_quotePiece (char : Char) {rest : List Char} (free : rest.head? ≠ some '"') :
    Printer.fieldSafe (quotePiece Text.isPrintable false (.char char) ++ rest) =
      doubled (shown char) ++ Printer.fieldSafe rest := by
  have spelling := isSpelling_quotePiece char
  unfold shown
  revert spelling
  generalize quotePiece Text.isPrintable false (.char char) = text
  rintro (⟨notSlash, notQuote⟩ | rfl | ⟨notQuote, notSingle, fit, plain⟩)
  · rw [if_neg notQuote]
    exact fieldSafe_plain notSlash notQuote rest
  · rfl
  · rw [if_neg notSingle, if_neg notQuote, doubled_escape fit plain]
    exact fieldSafe_escape fit plain free

theorem head?_quotePieces_ne (text : List Char) :
    (text.flatMap fun char => quotePiece Text.isPrintable false (.char char)).head? ≠ some '"' := by
  cases text with
  | nil => exact nofun
  | cons char text =>
    rw [List.flatMap_cons]
    have spelling := isSpelling_quotePiece char
    revert spelling
    generalize quotePiece Text.isPrintable false (.char char) = spelt
    rintro (⟨-, notQuote⟩ | - | -)
    · simpa using notQuote
    · simp
    · simp

/-- A text is printed character by character. -/
theorem textPart_eq (text : String) :
    Printer.textPart text = doubled (text.toList.flatMap shown) := by
  unfold Printer.textPart StringLiteral.quoteBody Text.toBytes
  rw [if_neg Bool.false_ne_true, Text.pieces_encode, List.flatMap_map]
  induction text.toList with
  | nil => rfl
  | cons char text induction =>
    rw [List.flatMap_cons, fieldSafe_quotePiece char (head?_quotePieces_ne text), induction,
      List.flatMap_cons, doubled_append]

/-! ### Reading -/

theorem textRun_cons {char : Char} (notSlash : char ≠ '\\') (notOpen : char ≠ '\x7b')
    (notClose : char ≠ '\x7d') {rest text after : List Char}
    (read : textRun false rest = .ok (text, after)) :
    textRun false (char :: rest) = .ok (char :: text, after) := by
  rw [textRun, read]
  · rfl
  · exact fun _ same => absurd same notOpen
  · exact fun _ same => absurd same notClose
  · exact notClose
  · exact notOpen
  · exact fun _ _ same => absurd same notSlash

theorem textRun_of_isOrdinary {char : Char} (ordinary : IsOrdinary char)
    {rest text after : List Char} (read : textRun false rest = .ok (text, after)) :
    textRun false (char :: rest) = .ok (char :: text, after) := by
  simp only [IsOrdinary, List.mem_cons, List.not_mem_nil, not_or] at ordinary
  obtain ⟨notSlash, -, -, notOpen, notClose, -⟩ := ordinary
  exact textRun_cons notSlash notOpen notClose read

theorem textRun_ordinary_append {text : List Char} (ordinary : ∀ char ∈ text, IsOrdinary char)
    {rest read after : List Char} (given : textRun false rest = .ok (read, after)) :
    textRun false (text ++ rest) = .ok (text ++ read, after) := by
  induction text with
  | nil => exact given
  | cons char text induction =>
    obtain ⟨first, others⟩ := List.forall_mem_cons.mp ordinary
    exact textRun_of_isOrdinary first (induction others)

theorem textRun_escape {letter : Char} (unnamed : letter ≠ 'N') {rest text after : List Char}
    (read : textRun false rest = .ok (text, after)) :
    textRun false ('\\' :: letter :: rest) = .ok ('\\' :: letter :: text, after) := by
  rw [textRun, read, if_neg Bool.false_ne_true, beq_false_of_ne unnamed, Bool.false_and,
    if_neg Bool.false_ne_true]
  rfl

/-- A brace is read back from two. -/
theorem textRun_plain {char : Char} (notSlash : char ≠ '\\') (notQuote : char ≠ '"')
    {rest text after : List Char} (read : textRun false rest = .ok (text, after)) :
    textRun false (doubled (if char = '\'' then ['\\', '\''] else [char]) ++ rest) =
      .ok ((if char = '\'' then ['\\', '\''] else [char]) ++ text, after) := by
  by_cases ordinary : IsOrdinary char
  · have notSingle : char ≠ '\'' := by
      rintro rfl
      exact ordinary (by decide)
    have same : doubled [char] = [char] := doubled_ordinary (List.forall_mem_singleton.mpr ordinary)
    rw [if_neg notSingle, same]
    exact textRun_of_isOrdinary ordinary read
  · rcases eq_of_not_isOrdinary notSlash notQuote ordinary with rfl | rfl | rfl
    · exact textRun_escape (by decide) read
    · change textRun false ('\x7b' :: '\x7b' :: rest) = _
      rw [textRun, read]
      rfl
    · change textRun false ('\x7d' :: '\x7d' :: rest) = _
      rw [textRun, read]
      rfl

/-- What stands for a character is read back. -/
theorem textRun_shown (char : Char) {rest text after : List Char}
    (read : textRun false rest = .ok (text, after)) :
    textRun false (doubled (shown char) ++ rest) = .ok (shown char ++ text, after) := by
  have spelling := isSpelling_quotePiece char
  unfold shown
  revert spelling
  generalize quotePiece Text.isPrintable false (.char char) = spelt
  rintro (⟨notSlash, notQuote⟩ | rfl | ⟨notQuote, notSingle, fit, plain⟩)
  · rw [if_neg notQuote]
    exact textRun_plain notSlash notQuote read
  · exact textRun_cons (by decide) (by decide) (by decide) read
  · rw [if_neg notSingle, if_neg notQuote, doubled_escape fit plain]
    refine textRun_escape ?_ (textRun_ordinary_append plain read)
    rintro rfl
    simp at fit

/-- A printed text is read up to where nothing of it is left. -/
theorem textRun_text (text : List Char) {rest : List Char}
    (ends : textRun false rest = .ok ([], rest)) :
    textRun false (doubled (text.flatMap shown) ++ rest) = .ok (text.flatMap shown, rest) := by
  induction text with
  | nil => exact ends
  | cons char text induction =>
    rw [List.flatMap_cons, doubled_append, List.append_assoc]
    exact textRun_shown char induction

theorem shown_decodes (char : Char) {rest tail : List UInt8}
    (given : StringLiteral.Decodes false rest tail) :
    StringLiteral.Decodes false (Text.encode (shown char) ++ rest)
      (String.utf8EncodeChar char ++ tail) := by
  unfold shown
  split
  case isTrue single =>
    subst single
    exact given.escape [ascii '\''] (StringLiteral.escape_letter rfl false rest)
  case isFalse =>
  split
  case isTrue quote =>
    subst quote
    exact given.plain (by decide) (by decide)
  case isFalse => exact StringLiteral.quotePiece_decodes _ _ char given

/-- What stands for a text denotes it. -/
theorem text_decodes (text : List Char) :
    StringLiteral.Decodes false (Text.encode (text.flatMap shown)) (Text.encode text) := by
  induction text with
  | nil => exact .nil
  | cons char text induction =>
    rw [List.flatMap_cons, Text.encode_append, Text.encode_cons]
    exact shown_decodes char induction

theorem shown_ne_nil (char : Char) : shown char ≠ [] := by
  have spelling := isSpelling_quotePiece char
  unfold shown
  revert spelling
  generalize quotePiece Text.isPrintable false (.char char) = spelt
  rintro (- | rfl | ⟨notQuote, notSingle, -, -⟩)
  · split <;> simp
  · simp
  · simp [notQuote, notSingle]

/-- A printed text is read as one part. -/
theorem textPart_shown (position : Position) {text : List Char} (present : text ≠ []) :
    textPart position false (text.flatMap shown) =
      .ok [.literal position "" (.text (String.ofList text))] := by
  have decodes : StringLiteral.unescape false false (Text.encode (text.flatMap shown)) =
      .ok (Text.encode text) := text_decodes text
  have filled : (text.flatMap shown).isEmpty = false := by
    cases text with
    | nil => exact absurd rfl present
    | cons char text => simp [shown_ne_nil]
  have value : Text.ofBytes (Text.encode text) = String.ofList text := by
    rw [Text.ofBytes, Text.decode_encode]
  rw [textPart, filled, if_neg Bool.false_ne_true, decodes]
  dsimp only
  rw [value]
  rfl

/-! ## Fields -/

/-- What may come behind the expression of a field. -/
def IsStop : List Char → Prop
  | '!' :: rest => rest.head? ≠ some '='
  | '\x7d' :: _ => True
  | ':' :: _ => True
  | _ => False

/-- Any stop starts with a character, and it is no equals sign. -/
theorem head?_stop {stop : List Char} (stops : IsStop stop) (front : List Char) :
    ((front ++ ['\x7d']).head? == some '=') = ((front ++ stop).head? == some '=') := by
  cases front with
  | cons => rfl
  | nil =>
    unfold IsStop at stops
    split at stops
    · rfl
    · rfl
    · rfl
    · cases stops

theorem partOfOperator_stop {stop : List Char} (stops : IsStop stop) (previous : Option Char)
    (front : List Char) :
    partOfOperator previous (front ++ ['\x7d']).head? =
      partOfOperator previous (front ++ stop).head? := by
  unfold partOfOperator
  rw [head?_stop stops]

/-- An expression ends at a stop. -/
theorem fieldText_of_isStop {stop : List Char} (stops : IsStop stop) (previous : Option Char) :
    fieldText 0 none previous stop = some ([], stop) := by
  unfold IsStop at stops
  split at stops
  case h_1 rest =>
    have free : (rest.head? != some '=') = true := bne_iff_ne.mpr stops
    rw [fieldText, free]
    rfl
  case h_2 => rfl
  case h_3 => rfl
  case h_4 => cases stops

/-- A character is put in front of what is found behind it. -/
theorem map_cons_of_map_cons (char : Char) {text ended stop : List Char}
    {found other : Option (List Char × List Char)}
    (behind : found = some (text, ended) → other = some (text, stop))
    (given : found.map (fun (text, after) => (char :: text, after)) =
      some (char :: text, ended)) :
    other.map (fun (text, after) => (char :: text, after)) = some (char :: text, stop) := by
  obtain ⟨⟨_, _⟩, rfl, same⟩ := Option.map_eq_some_iff.mp given
  cases same
  rw [behind rfl]
  rfl

theorem ite_of_ite {α : Type} {condition : Prop} [Decidable condition]
    {first second third fourth result other : α} (whenTrue : first = result → third = other)
    (whenFalse : second = result → fourth = other)
    (given : (if condition then first else second) = result) :
    (if condition then third else fourth) = other := by
  split at given
  case isTrue holds => rw [if_pos holds, whenTrue given]
  case isFalse fails => rw [if_neg fails, whenFalse given]

/-- An expression that ends at a brace ends at any other stop. -/
theorem fieldText_stop {stop : List Char} (stops : IsStop stop) :
    ∀ {text : List Char} {depth : Int} {quote previous : Option Char},
      fieldText depth quote previous (text ++ ['\x7d']) = some (text, ['\x7d']) →
      fieldText depth quote previous (text ++ stop) = some (text, stop)
  | [], depth, some mark, previous, given => by
    simp [fieldText] at given
  | [], depth, none, previous, given => by
    by_cases outside : depth = 0
    · rw [outside]
      exact fieldText_of_isStop stops previous
    · simp [fieldText, outside] at given
  | char :: text, depth, some mark, previous, given => by
    have keep := fun quote => map_cons_of_map_cons char
      (@fieldText_stop stop stops text depth quote (some char))
    by_cases slash : char = '\\'
    · -- The character behind a backslash is kept with it.
      subst slash
      cases text with
      | nil => simp [fieldText] at given
      | cons escaped text =>
        have behind : fieldText depth (some mark) (some escaped) (text ++ ['\x7d']) =
            some (text, ['\x7d']) := by simpa [fieldText] using given
        simpa [fieldText] using fieldText_stop stops behind
    · rw [List.cons_append] at given ⊢
      unfold fieldText at given ⊢
      dsimp only at given ⊢
      rw [beq_false_of_ne slash, if_neg Bool.false_ne_true] at given ⊢
      exact ite_of_ite (keep _) (keep _) given
  | char :: text, depth, none, previous, given => by
    have keep := fun depth quote => map_cons_of_map_cons char
      (@fieldText_stop stop stops text depth quote (some char))
    have stopped : ∀ {after : List Char} {result : Option (List Char × List Char)},
        some ([], after) = some (char :: text, ['\x7d']) → result = some (char :: text, stop) :=
      nofun
    rw [List.cons_append, fieldText] at given ⊢
    rw [bne, head?_stop stops, partOfOperator_stop stops] at given
    refine ite_of_ite (keep _ _) (ite_of_ite (keep _ _) (ite_of_ite (keep _ _) ?_)) given
    refine ite_of_ite (ite_of_ite stopped (keep _ _)) (ite_of_ite stopped ?_)
    exact ite_of_ite stopped (ite_of_ite stopped (keep _ _))
termination_by text => text.length

/-- A format whose braces pair up ends at the brace of its field. -/
theorem specText_append (rest : List Char) : ∀ {text : List Char} {depth : Nat},
    specText depth (text ++ ['\x7d']) = some (text, ['\x7d']) →
    specText depth (text ++ '\x7d' :: rest) = some (text, '\x7d' :: rest)
  | [], depth, given => by
    by_cases outside : depth = 0
    · rw [outside]
      rfl
    · simp [specText, outside] at given
  | char :: text, depth, given => by
    have stopped : ∀ {after : List Char} {result : Option (List Char × List Char)},
        some ([], after) = some (char :: text, ['\x7d']) →
        result = some (char :: text, '\x7d' :: rest) := nofun
    rw [List.cons_append, specText] at given ⊢
    exact ite_of_ite stopped (map_cons_of_map_cons char (specText_append rest)) given

/-- The expression of a field as it is printed. -/
def fieldWords (value : Expr) : List Char :=
  let text := value.print false .lowest
  if text.head? = some '\x7b' then ' ' :: text else text

/-- What is printed for an expression ends where a field looks for its end, and is read. -/
structure IsReadable (readValue : FieldReader) (value read : Expr) : Prop where
  ends : fieldText 0 none none (fieldWords value ++ ['\x7d']) = some (fieldWords value, ['\x7d'])
  visible : (Text.trim (fieldWords value)).isEmpty = false
  reads : readValue (fieldWords value) = .ok read

/-- What is printed for a format has braces that pair up, and is read. -/
inductive IsFormat (position : Position) (isSpec : List Expr → List Expr → Prop) :
    Option Expr → Option Expr → Prop where
  | none : IsFormat position isSpec none none
  | some {own : Position} {raw : String} {parts read : List Expr}
      (pairs : specText 0 (Expr.printParts parts ++ ['\x7d']) =
        some (Expr.printParts parts, ['\x7d']))
      (inside : isSpec parts read) :
      IsFormat position isSpec (some (.fstring own raw parts)) (some (.fstring position "" read))

/-- The conversion of a field as it is printed. -/
def conversionText (conversion : Option Conversion) : List Char :=
  (conversion.map fun conversion => ['!', conversion.letter]).getD []

theorem conversion?_letter (conversion : Conversion) :
    conversion? (some conversion.letter) = some conversion := by
  cases conversion <;> rfl

variable {position : Position} {readValue : FieldReader} {readSpec : SpecReader}
  {isSpec : List Expr → List Expr → Prop} {nests : Bool}

/-- The conversion, the format or the brace behind an expression ends it. -/
theorem isStop_behind (conversion : Option Conversion) {spec specRead : Option Expr}
    (format : IsFormat position isSpec spec specRead) (rest : List Char) :
    IsStop (conversionText conversion ++ (Expr.printSpec spec ++ '\x7d' :: rest)) := by
  cases conversion with
  | some conversion =>
    have letter : conversion.letter ≠ '=' := by cases conversion <;> decide
    exact fun same => letter (Option.some.inj same)
  | none => cases format with
    | none => exact trivial
    | some => exact trivial

theorem field_printed
    (specs : ∀ parts read, isSpec parts read →
      readSpec (Expr.printParts parts) = .ok read ∧ mergeTexts read = read)
    {value read : Expr} (readable : IsReadable readValue value read)
    (conversion : Option Conversion) {spec specRead : Option Expr}
    (format : IsFormat position isSpec spec specRead) (rest : List Char) :
    field position readValue readSpec (fieldWords value ++
        (conversionText conversion ++ (Expr.printSpec spec ++ '\x7d' :: rest))) =
      .ok ([.field position read conversion specRead], rest) := by
  have found := fieldText_stop (isStop_behind conversion format rest) readable.ends
  unfold field
  rw [found]
  dsimp only
  rw [readable.visible, readable.reads, if_neg Bool.false_ne_true]
  cases format with
  | none => cases conversion with
    | none => rfl
    | some conversion => cases conversion <;> rfl
  | @some own raw parts specParts pairs inside =>
    obtain ⟨given, merged⟩ := specs parts specParts inside
    have split : specText 0 (Expr.printParts parts ++ '\x7d' :: rest) =
        some (Expr.printParts parts, '\x7d' :: rest) := specText_append rest pairs
    cases conversion with
    | none =>
      simp [conversionText, Expr.printSpec, bind, Except.bind, pure, Except.pure, split, given,
        merged]
    | some conversion =>
      simp [conversionText, Expr.printSpec, bind, Except.bind, pure, Except.pure, split, given,
        merged, conversion?_letter]

/-! ## Whole bodies -/

/-- A text as a part; an empty one is none. -/
def textParts (position : Position) (text : List Char) : List Expr :=
  if text.isEmpty then [] else [.literal position "" (.text (String.ofList text))]

/-- The part that holds a text, if there is any. -/
inductive IsTextPart : List Char → List Expr → Prop where
  | none : IsTextPart [] []
  | some (own : Position) (raw : String) {text : List Char} (present : text ≠ []) :
      IsTextPart text [.literal own raw (.text (String.ofList text))]

/-- Fields, each behind a text, and a text at the end; and what is read for them when they
have been printed. The texts and the conversions are the same. -/
inductive Rereads (position : Position) (readValue : FieldReader) (nests : Bool)
    (isSpec : List Expr → List Expr → Prop) : List Expr → List Expr → Prop where
  | last {text : List Char} {front : List Expr} (holds : IsTextPart text front) :
      Rereads position readValue nests isSpec front (textParts position text)
  | field {text : List Char} {front : List Expr} (holds : IsTextPart text front)
      (own : Position) {value read : Expr} (conversion : Option Conversion)
      {spec specRead : Option Expr} {rest restRead : List Expr} (nested : nests = true)
      (readable : IsReadable readValue value read)
      (format : IsFormat position isSpec spec specRead)
      (behind : Rereads position readValue nests isSpec rest restRead) :
      Rereads position readValue nests isSpec (front ++ .field own value conversion spec :: rest)
        (textParts position text ++ .field position read conversion specRead :: restRead)

/-- The same for the parts of a body in which fields nest at most `levels` deep. -/
def BodyRereads (position : Position) (readValue : FieldReader) :
    (levels : Nat) → List Expr → List Expr → Prop
  | 0 => Rereads position readValue false fun _ _ => False
  | levels + 1 => Rereads position readValue true (BodyRereads position readValue levels)

theorem isEmpty_ofList_cons (char : Char) (text : List Char) :
    (String.ofList (char :: text)).isEmpty = false := by
  rw [String.isEmpty_eq_false_iff]
  simp

/-- Texts are merged only with texts. -/
theorem Rereads.mergeTexts {list read : List Expr}
    (given : Rereads position readValue nests isSpec list read) :
    Grammar.mergeTexts read = read := by
  induction given with
  | @last text =>
    cases text with
    | nil => rfl
    | cons char text =>
      change Grammar.mergeTexts [.literal position "" (.text (String.ofList (char :: text)))] = _
      rw [Grammar.mergeTexts, Grammar.mergeTexts, isEmpty_ofList_cons]
      rfl
  | @field text _ _ _ _ read conversion _ specRead _ restRead _ _ _ _ induction =>
    have alone : Grammar.mergeTexts (.field position read conversion specRead :: restRead) =
        .field position read conversion specRead :: restRead := congrArg _ induction
    cases text with
    | nil => exact alone
    | cons char text =>
      change Grammar.mergeTexts (.literal position "" (.text (String.ofList (char :: text))) ::
        .field position read conversion specRead :: restRead) = _
      rw [Grammar.mergeTexts, alone, isEmpty_ofList_cons]
      rfl

theorem mergeTexts_of_bodyRereads {levels : Nat} {list read : List Expr}
    (given : BodyRereads position readValue levels list read) : mergeTexts read = read := by
  cases levels with
  | zero => exact Rereads.mergeTexts given
  | succ levels => exact Rereads.mergeTexts given

theorem printParts_append (front rest : List Expr) :
    Expr.printParts (front ++ rest) = Expr.printParts front ++ Expr.printParts rest := by
  induction front with
  | nil => rfl
  | cons part front induction =>
    rw [List.cons_append, Expr.printParts, Expr.printParts, induction, List.append_assoc]

theorem printParts_isTextPart {text : List Char} {front : List Expr}
    (holds : IsTextPart text front) : Expr.printParts front = doubled (text.flatMap shown) := by
  cases holds with
  | none => rfl
  | some =>
    rw [Expr.printParts, Expr.printParts, Expr.printPart, textPart_eq, String.toList_ofList,
      List.append_nil]

theorem printParts_field (own : Position) (value : Expr) (conversion : Option Conversion)
    (spec : Option Expr) (rest : List Expr) :
    Expr.printParts (.field own value conversion spec :: rest) =
      '\x7b' :: (fieldWords value ++ (conversionText conversion ++
        (Expr.printSpec spec ++ '\x7d' :: Expr.printParts rest))) := by
  rw [Expr.printParts, Expr.printPart, fieldWords, conversionText]
  simp

theorem textPart_textParts (text : List Char) :
    textPart position false (text.flatMap shown) = .ok (textParts position text) := by
  cases text with
  | nil => rfl
  | cons char text => exact textPart_shown position (List.cons_ne_nil _ _)

/-- The brace of a field is not taken for one of two. -/
theorem textRun_fieldWords {value : Expr} (visible : (Text.trim (fieldWords value)).isEmpty = false)
    (rest : List Char) :
    textRun false ('\x7b' :: (fieldWords value ++ rest)) =
      .ok ([], '\x7b' :: (fieldWords value ++ rest)) := by
  have single : (fieldWords value).head? ≠ some '\x7b' := by
    unfold fieldWords
    dsimp only
    split
    case isTrue => exact nofun
    case isFalse other => exact other
  cases words : fieldWords value with
  | nil =>
    rw [words] at visible
    cases visible
  | cons char text =>
    rw [words] at single
    rw [List.cons_append, textRun]
    · rfl
    · rintro _ ⟨⟩
      exact single rfl

theorem Rereads.parts
    (specs : ∀ parts read, isSpec parts read →
      readSpec (Expr.printParts parts) = .ok read ∧ Grammar.mergeTexts read = read)
    {list read : List Expr} (given : Rereads position readValue nests isSpec list read) :
    ∀ {fuel : Nat}, (Expr.printParts list).length < fuel →
      Grammar.parts position false nests readValue readSpec fuel (Expr.printParts list) =
        .ok read := by
  induction given with
  | @last text front holds =>
    intro fuel room
    obtain ⟨fuel, rfl⟩ := Nat.exists_eq_succ_of_ne_zero (Nat.ne_zero_of_lt room)
    have run := @textRun_text text [] rfl
    rw [List.append_nil] at run
    rw [printParts_isTextPart holds, Grammar.parts, run]
    exact textPart_textParts text
  | @field text front holds own value read conversion spec specRead rest restRead nested readable
      format behind induction =>
    intro fuel room
    obtain ⟨fuel, rfl⟩ := Nat.exists_eq_succ_of_ne_zero (Nat.ne_zero_of_lt room)
    have run := textRun_text text (textRun_fieldWords readable.visible
      (conversionText conversion ++ (Expr.printSpec spec ++ '\x7d' :: Expr.printParts rest)))
    have here := field_printed specs readable conversion format (Expr.printParts rest)
    rw [printParts_append, printParts_isTextPart holds, printParts_field] at room ⊢
    have less : (Expr.printParts rest).length < fuel := by
      simp only [List.length_append, List.length_cons] at room
      omega
    subst nested
    rw [Grammar.parts, run]
    simp only [bind, Except.bind]
    rw [List.isEmpty_cons, if_neg Bool.false_ne_true, Bool.not_true, if_neg Bool.false_ne_true,
      textPart_textParts, List.drop_succ_cons, List.drop_zero, here]
    dsimp only
    rw [induction less]
    exact congrArg Except.ok (List.append_assoc _ _ _)

/-- What is printed for the parts of a body is read. -/
theorem body_printed : ∀ {levels : Nat} {list read : List Expr},
    BodyRereads position readValue levels list read →
    body position false readValue levels (Expr.printParts list) = .ok read
  | 0, _, _, given => Rereads.parts (fun _ _ => False.elim) given (Nat.lt_succ_self _)
  | _ + 1, _, _, given =>
    Rereads.parts (fun _ _ inside => ⟨body_printed inside, mergeTexts_of_bodyRereads inside⟩)
      given (Nat.lt_succ_self _)

/-- A formatted string that is printed from its parts is read as such parts: with the same
texts, and for each field the expression that is read for what is printed, the same
conversion, and a format of such parts. -/
theorem formattedString_printed {list read : List Expr}
    (given : BodyRereads position readValue 2 list read) :
    formattedString position false readValue (Expr.printParts list) = .ok read := by
  rw [formattedString, body_printed given]
  exact congrArg Except.ok (mergeTexts_of_bodyRereads given)

example : formattedString .unknown false (fun _ => .ok (.ofName "x"))
    (Expr.printParts [.literal .unknown "" (.text "it's \x7b"),
      .field .unknown (.ofName "x") (some .repr) none]) =
    .ok [.literal .unknown "" (.text "it's \x7b"),
      .field .unknown (.ofName "x") (some .repr) none] := by
  rfl

end Unsugar.Grammar
