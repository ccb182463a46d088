import Unsugar.Text.Utf8

/-! Texts as bytes. A text is read back from its own bytes, whatever bytes follow them,
and no byte string has more characters than bytes. -/

namespace Unsugar.Text

/-! ## One character -/

theorem byteOfNat_toNat {code : Nat} (small : code < 256) : (UInt8.ofNat code).toNat = code := by
  rw [UInt8.toNat_ofNat']
  exact Nat.mod_eq_of_lt small

theorem charOfNat_toNat {code : Nat} (valid : code.isValidChar) :
    (Char.ofNat code).toNat = code := by
  rw [Char.ofNat, dif_pos valid]
  rfl

theorem toNat_lt (char : Char) : char.toNat < 0x110000 := by
  rcases char.valid with low | ⟨_, high⟩
  · exact Nat.lt_trans low (by decide)
  · exact high

theorem scalar?_toNat (char : Char) {least code : Nat} (same : code = char.toNat)
    (enough : least ≤ code) : scalar? least code = some char := by
  subst same
  have valid : char.toNat.isValidChar := char.valid
  rw [scalar?, if_pos ⟨enough, valid⟩, Char.ofNat_toNat]

theorem le_of_scalar? {least code : Nat} {char : Char} (found : scalar? least code = some char) :
    least ≤ char.toNat := by
  unfold scalar? at found
  split at found
  case isTrue both =>
    cases found
    rw [charOfNat_toNat both.2]
    exact both.1
  case isFalse => cases found

theorem continuation?_ofNat (low : Nat) :
    continuation? (UInt8.ofNat (low % 64 + 128)) = some (low % 64) := by
  unfold continuation?
  rw [byteOfNat_toNat (by omega), if_pos (by omega)]
  simp

/-- The bytes of a character are a well-formed sequence for it, and take their width. -/
theorem wellFormed?_encodeChar (char : Char) (rest : List UInt8) :
    ∃ first others, String.utf8EncodeChar char = first :: others ∧
      wellFormed? first (others ++ rest) = some (char, others.length + 1) := by
  have bound := toNat_lt char
  have value : char.val.toNat = char.toNat := rfl
  unfold String.utf8EncodeChar
  dsimp only
  rw [value]
  split
  case isTrue =>
    refine ⟨_, _, rfl, ?_⟩
    unfold wellFormed?
    rw [byteOfNat_toNat (by omega)]
    dsimp only
    rw [if_pos (by omega), Char.ofNat_toNat]
    rfl
  case isFalse =>
  split
  case isTrue =>
    refine ⟨_, _, rfl, ?_⟩
    unfold wellFormed?
    rw [byteOfNat_toNat (by omega)]
    dsimp only [List.cons_append, List.nil_append]
    rw [if_neg (by omega), if_pos (by omega), continuation?_ofNat]
    dsimp only [Option.bind_eq_bind, Option.bind_some]
    rw [scalar?_toNat char (by omega) (by omega)]
    rfl
  case isFalse =>
  split
  case isTrue =>
    refine ⟨_, _, rfl, ?_⟩
    unfold wellFormed?
    rw [byteOfNat_toNat (by omega)]
    dsimp only [List.cons_append, List.nil_append]
    rw [if_neg (by omega), if_neg (by omega), if_pos (by omega), continuation?_ofNat,
      continuation?_ofNat]
    dsimp only [Option.bind_eq_bind, Option.bind_some]
    rw [scalar?_toNat char (by omega) (by omega)]
    rfl
  case isFalse =>
    refine ⟨_, _, rfl, ?_⟩
    unfold wellFormed?
    rw [byteOfNat_toNat (by omega)]
    dsimp only [List.cons_append, List.nil_append]
    rw [if_neg (by omega), if_neg (by omega), if_neg (by omega), if_pos (by omega),
      continuation?_ofNat, continuation?_ofNat, continuation?_ofNat]
    dsimp only [Option.bind_eq_bind, Option.bind_some]
    rw [scalar?_toNat char (by omega) (by omega)]
    rfl

/-! ## What a sequence is made of -/

def isContinuation (byte : UInt8) : Bool :=
  (continuation? byte).isSome

/-- Only the continuation bytes at the front decide on a sequence. -/
theorem wellFormed?_takeWhile (first : UInt8) (rest : List UInt8) :
    wellFormed? first (rest.takeWhile isContinuation) = wellFormed? first rest := by
  rcases rest with _ | ⟨second, _ | ⟨third, _ | ⟨fourth, rest⟩⟩⟩
  · rfl
  · cases low : continuation? second <;> simp [wellFormed?, isContinuation, low]
  · cases middle : continuation? second <;> cases low : continuation? third <;>
      simp [wellFormed?, isContinuation, middle, low]
  · cases high : continuation? second <;> cases middle : continuation? third <;>
      cases low : continuation? fourth <;> simp [wellFormed?, isContinuation, high, middle, low]

/-- A character of a sequence. One below 128 is a byte of its own. -/
theorem width_of_wellFormed? {first : UInt8} {rest : List UInt8} {char : Char} {width : Nat}
    (found : wellFormed? first rest = some (char, width)) :
    (width = 1 ∧ first.toNat = char.toNat ∨ 0x80 ≤ char.toNat) ∧
      width - 1 ≤ (rest.takeWhile isContinuation).length := by
  unfold wellFormed? at found
  dsimp only at found
  split at found
  case isTrue ascii =>
    cases found
    have valid : first.toNat.isValidChar := .inl (by omega)
    rw [charOfNat_toNat valid]
    exact ⟨.inl ⟨rfl, rfl⟩, Nat.zero_le _⟩
  case isFalse =>
  have bound : ∀ {least code : Nat} {char : Char}, 0x80 ≤ least → scalar? least code = some char →
      0x80 ≤ char.toNat := fun above found => Nat.le_trans above (le_of_scalar? found)
  split at found
  case isTrue =>
    split at found
    · simp only [Option.bind_eq_bind, Option.bind_eq_some_iff, Option.pure_def, Option.some.injEq,
        Prod.mk.injEq] at found
      obtain ⟨low, isLow, found, isChar, rfl, rfl⟩ := found
      refine ⟨.inr (bound (by decide) isChar), ?_⟩
      simp [isContinuation, isLow]
    · cases found
  case isFalse =>
  split at found
  case isTrue =>
    split at found
    · simp only [Option.bind_eq_bind, Option.bind_eq_some_iff, Option.pure_def, Option.some.injEq,
        Prod.mk.injEq] at found
      obtain ⟨middle, isMiddle, low, isLow, found, isChar, rfl, rfl⟩ := found
      refine ⟨.inr (bound (by decide) isChar), ?_⟩
      simp [isContinuation, isMiddle, isLow]
    · cases found
  case isFalse =>
  split at found
  case isTrue =>
    split at found
    · simp only [Option.bind_eq_bind, Option.bind_eq_some_iff, Option.pure_def, Option.some.injEq,
        Prod.mk.injEq] at found
      obtain ⟨high, isHigh, middle, isMiddle, low, isLow, found, isChar, rfl, rfl⟩ := found
      refine ⟨.inr (bound (by decide) isChar), ?_⟩
      simp [isContinuation, isHigh, isMiddle, isLow]
    · cases found
  case isFalse => cases found

theorem wellFormed?_ascii {first : UInt8} (small : first.toNat < 0x80) (rest : List UInt8) :
    wellFormed? first rest = some (Char.ofNat first.toNat, 1) := by
  unfold wellFormed?
  dsimp only
  rw [if_pos small]

theorem encodeChar_ascii {char : Char} (small : char.toNat < 0x80) :
    String.utf8EncodeChar char = [char.toNat.toUInt8] := by
  have narrow : char.val.toNat ≤ 0x7F := Nat.le_of_lt_succ small
  unfold String.utf8EncodeChar
  dsimp only
  rw [if_pos narrow]
  rfl

theorem high_of_mem_encodeChar {char : Char} (wide : 0x80 ≤ char.toNat) :
    ∀ byte ∈ String.utf8EncodeChar char, 0x80 ≤ byte.toNat := by
  have bound := toNat_lt char
  have value : char.val.toNat = char.toNat := rfl
  intro byte member
  unfold String.utf8EncodeChar at member
  dsimp only at member
  rw [value, if_neg (by omega)] at member
  split at member
  case isTrue =>
    simp only [List.mem_cons, List.not_mem_nil, or_false] at member
    rcases member with rfl | rfl <;> rw [byteOfNat_toNat (by omega)] <;> omega
  case isFalse =>
  split at member
  case isTrue =>
    simp only [List.mem_cons, List.not_mem_nil, or_false] at member
    rcases member with rfl | rfl | rfl <;> rw [byteOfNat_toNat (by omega)] <;> omega
  case isFalse =>
    simp only [List.mem_cons, List.not_mem_nil, or_false] at member
    rcases member with rfl | rfl | rfl | rfl <;> rw [byteOfNat_toNat (by omega)] <;> omega

/-! ## Texts -/

@[simp] theorem encode_nil : encode [] = [] := rfl

theorem encode_cons (char : Char) (rest : List Char) :
    encode (char :: rest) = String.utf8EncodeChar char ++ encode rest := rfl

theorem encode_append (first second : List Char) :
    encode (first ++ second) = encode first ++ encode second :=
  List.flatMap_append

theorem piecesFrom_append {taken : List UInt8} (rest : List UInt8) :
    piecesFrom taken.length (taken ++ rest) = piecesFrom 0 rest := by
  induction taken with
  | nil => rfl
  | cons byte taken induction => exact induction

theorem pieces_encodeChar_append (char : Char) (rest : List UInt8) :
    pieces (String.utf8EncodeChar char ++ rest) = .char char :: pieces rest := by
  obtain ⟨first, others, spelt, reads⟩ := wellFormed?_encodeChar char rest
  rw [spelt, List.cons_append, pieces, piecesFrom, reads]
  dsimp only
  rw [Nat.add_sub_cancel, piecesFrom_append]
  rfl

theorem pieces_encode_append (chars : List Char) (rest : List UInt8) :
    pieces (encode chars ++ rest) = chars.map .char ++ pieces rest := by
  induction chars with
  | nil => rfl
  | cons char chars induction =>
    have first := pieces_encodeChar_append char (encode chars ++ rest)
    rw [induction] at first
    rw [encode, List.flatMap_cons, List.append_assoc]
    exact first

theorem pieces_encode (chars : List Char) : pieces (encode chars) = chars.map .char := by
  have whole := pieces_encode_append chars []
  rw [List.append_nil] at whole
  rw [whole]
  exact List.append_nil _

/-- A text is read from its bytes, and then what follows them. -/
theorem decode_encode_append (chars : List Char) (rest : List UInt8) :
    decode (encode chars ++ rest) = chars ++ decode rest := by
  have same : chars.map (Piece.shown ∘ Piece.char) = chars := List.map_id chars
  rw [decode, pieces_encode_append, List.map_append, List.map_map, same]
  rfl

@[simp] theorem decode_encode (chars : List Char) : decode (encode chars) = chars := by
  have whole := decode_encode_append chars []
  rw [List.append_nil] at whole
  rw [whole]
  exact List.append_nil chars

@[simp] theorem ofBytes_toBytes (text : String) : ofBytes (toBytes text) = text := by
  rw [ofBytes, toBytes, decode_encode, String.ofList_toList]

/-- The bytes of a text come back from what they are shown as. -/
theorem toBytes_ofBytes_encode (chars : List Char) :
    toBytes (ofBytes (encode chars)) = encode chars := by
  rw [ofBytes, decode_encode, toBytes, String.toList_ofList]

/-- An ASCII character is decoded from its own byte only. -/
theorem head?_decode_ne {bytes : List UInt8} {char : Char} (small : char.toNat < 0x80)
    (other : bytes.head? ≠ some char.toNat.toUInt8) : (decode bytes).head? ≠ some char := by
  cases bytes with
  | nil => exact nofun
  | cons first rest =>
    unfold decode pieces piecesFrom
    intro same
    split at same
    case h_1 decoded width found =>
      obtain rfl : decoded = char := Option.some.inj same
      rcases (width_of_wellFormed? found).1 with ⟨-, value⟩ | wide
      · apply other
        rw [← value]
        exact congrArg some UInt8.ofNat_toNat.symm
      · exact absurd small (Nat.not_lt.mpr wide)
    case h_2 =>
      obtain rfl : replacement = char := Option.some.inj same
      exact absurd small (by decide)

/-! ## Byte strings of texts -/

/-- The bytes of some text. -/
def IsText (bytes : List UInt8) : Prop :=
  ∃ text, bytes = encode text

namespace IsText

theorem nil : IsText [] := ⟨[], rfl⟩

theorem encode (text : List Char) : IsText (Text.encode text) := ⟨text, rfl⟩

theorem append {first second : List UInt8} (before : IsText first) (after : IsText second) :
    IsText (first ++ second) := by
  obtain ⟨first, rfl⟩ := before
  obtain ⟨second, rfl⟩ := after
  exact ⟨first ++ second, (encode_append first second).symm⟩

theorem ascii {byte : UInt8} (small : byte.toNat < 0x80) : IsText [byte] := by
  have code : (Char.ofNat byte.toNat).toNat = byte.toNat := charOfNat_toNat (.inl (by omega))
  refine ⟨[Char.ofNat byte.toNat], ?_⟩
  rw [encode_cons, encode_nil, List.append_nil, encodeChar_ascii (by omega), code]
  exact congrArg (fun byte => [byte]) UInt8.ofNat_toNat.symm

/-- The first byte of a text begins a character, whose other bytes are no characters. -/
theorem begins {byte : UInt8} {rest : List UInt8} (text : IsText (byte :: rest)) :
    ∃ high others, rest = high ++ Text.encode others ∧ (∀ byte ∈ high, 0x80 ≤ byte.toNat) ∧
      (byte.toNat < 0x80 → high = []) ∧
      ∀ others, IsText (byte :: (high ++ Text.encode others)) := by
  obtain ⟨chars, spelt⟩ := text
  cases chars with
  | nil => cases spelt
  | cons char others =>
    by_cases small : char.toNat < 0x80
    · rw [encode_cons, encodeChar_ascii small] at spelt
      obtain ⟨rfl, rfl⟩ := List.cons.inj spelt
      refine ⟨[], others, rfl, nofun, fun _ => rfl, fun others => ⟨char :: others, ?_⟩⟩
      rw [encode_cons, encodeChar_ascii small]
      rfl
    · have wide := high_of_mem_encodeChar (Nat.le_of_not_lt small)
      obtain ⟨first, high, bytes, -⟩ := wellFormed?_encodeChar char []
      rw [encode_cons, bytes] at spelt
      obtain ⟨rfl, rfl⟩ := List.cons.inj spelt
      rw [bytes] at wide
      obtain ⟨large, high_wide⟩ := List.forall_mem_cons.mp wide
      refine ⟨high, others, rfl, high_wide, fun narrow => ?_, fun others => ⟨char :: others, ?_⟩⟩
      · omega
      · rw [encode_cons, bytes]
        rfl

theorem tail {byte : UInt8} {rest : List UInt8} (text : IsText (byte :: rest))
    (small : byte.toNat < 0x80) : IsText rest := by
  obtain ⟨high, others, rfl, -, none, -⟩ := text.begins
  rw [none small]
  exact encode others

theorem of_append_left {taken rest : List UInt8} (text : IsText (taken ++ rest))
    (small : ∀ byte ∈ taken, byte.toNat < 0x80) : IsText rest := by
  induction taken with
  | nil => exact text
  | cons byte taken induction =>
    obtain ⟨first, others⟩ := List.forall_mem_cons.mp small
    exact induction (text.tail first) others

theorem init {rest : List UInt8} {byte : UInt8} (text : IsText (rest ++ [byte]))
    (small : byte.toNat < 0x80) : IsText rest := by
  obtain ⟨chars, spelt⟩ := text
  rcases List.eq_nil_or_concat chars with rfl | ⟨before, char, rfl⟩
  · simp at spelt
  · rw [List.concat_eq_append, encode_append, encode_cons, encode_nil, List.append_nil] at spelt
    by_cases narrow : char.toNat < 0x80
    · rw [encodeChar_ascii narrow] at spelt
      exact ⟨before, (List.append_inj' spelt rfl).1⟩
    · have wide := high_of_mem_encodeChar (Nat.le_of_not_lt narrow)
      obtain ⟨first, others, bytes, -⟩ := wellFormed?_encodeChar char []
      rcases List.eq_nil_or_concat (String.utf8EncodeChar char) with empty | ⟨front, last, bytes⟩
      · rw [empty] at bytes
        cases bytes
      · rw [List.concat_eq_append] at bytes
        rw [bytes, ← List.append_assoc] at spelt
        obtain rfl : byte = last := List.cons.inj (List.append_inj' spelt rfl).2 |>.1
        have large := wide byte (by simp [bytes])
        omega

theorem of_append_right {rest taken : List UInt8} (text : IsText (rest ++ taken))
    (small : ∀ byte ∈ taken, byte.toNat < 0x80) : IsText rest := by
  induction taken generalizing rest with
  | nil =>
    rw [List.append_nil] at text
    exact text
  | cons byte taken induction =>
    obtain ⟨first, others⟩ := List.forall_mem_cons.mp small
    rw [List.append_cons] at text
    exact (induction text others).init first

end IsText

/-! ## Sizes -/

theorem length_piecesFrom_le (skipped : Nat) (bytes : List UInt8) :
    (piecesFrom skipped bytes).length ≤ bytes.length := by
  fun_induction piecesFrom skipped bytes with
  | case1 => exact Nat.le_refl _
  | case2 skipped byte rest induction => exact Nat.le_succ_of_le induction
  | case3 first rest char width _ induction => exact Nat.succ_le_succ induction
  | case4 first rest _ induction => exact Nat.succ_le_succ induction

theorem length_decode_le (bytes : List UInt8) : (decode bytes).length ≤ bytes.length := by
  rw [decode, List.length_map]
  exact length_piecesFrom_le 0 bytes

end Unsugar.Text
