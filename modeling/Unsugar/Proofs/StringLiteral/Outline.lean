import Unsugar.Proofs.StringLiteral.Value

/-! Outlines of sources. In an outline each run of bytes that can be no part of a code
point escape is one gap, so it does not tell how such bytes are spelt. Decoding a source
keeps its outline, and the body of a literal stands in its spelling between two gaps. -/

namespace Unsugar.StringLiteral

/-! ## Gaps -/

/-- Whether a byte can be no part of a code point escape: it is no backslash, no letter of
such an escape and no hexadecimal digit. -/
def isGap (byte : UInt8) : Bool :=
  byte != ascii '\\' && byte != ascii 'u' && byte != ascii 'U' && (hexValue? byte).isNone

/-- The bytes of a text that can be part of an escape, with one gap for each run of
others; `inGap` says that a run goes on. -/
def outline : (inGap : Bool) → List UInt8 → List (Option UInt8)
  | _, [] => []
  | inGap, byte :: rest =>
    if isGap byte then
      if inGap then outline true rest else none :: outline true rest
    else some byte :: outline false rest

theorem outline_cons_of_isGap {byte : UInt8} (gap : isGap byte = true) (inGap : Bool)
    (rest : List UInt8) :
    outline inGap (byte :: rest) =
      if inGap then outline true rest else none :: outline true rest := by
  rw [outline, if_pos gap]

theorem outline_cons_of_not_isGap {byte : UInt8} (part : isGap byte = false) (inGap : Bool)
    (rest : List UInt8) : outline inGap (byte :: rest) = some byte :: outline false rest := by
  rw [outline, part, if_neg Bool.false_ne_true]

theorem ne_slash_of_isGap {byte : UInt8} (gap : isGap byte = true) : byte ≠ ascii '\\' := by
  rintro rfl
  cases gap

/-- A byte without a bit of ASCII is no part of an escape. -/
theorem isGap_of_high {byte : UInt8} (high : 0x80 ≤ byte.toNat) : isGap byte = true := by
  have all : ∀ code < 256, 0x80 ≤ code → isGap (UInt8.ofNat code) = true := by decide +kernel
  have this := all byte.toNat byte.toNat_lt high
  rwa [UInt8.ofNat_toNat] at this

theorem isSome_hexValue?_of_hexNumber? {digits : List UInt8} {code : Nat}
    (number : hexNumber? digits = some code) : ∀ byte ∈ digits, (hexValue? byte).isSome = true := by
  unfold hexNumber? at number
  revert number
  generalize 0 = start
  induction digits generalizing start with
  | nil => exact fun _ => nofun
  | cons byte digits induction =>
    intro number
    rw [List.foldlM_cons] at number
    obtain ⟨next, step, rest⟩ := Option.bind_eq_some_iff.mp number
    obtain ⟨value, digit, -⟩ := Option.map_eq_some_iff.mp step
    exact List.forall_mem_cons.mpr ⟨Option.isSome_of_eq_some digit, induction next rest⟩

theorem isGap_of_hexNumber? {digits : List UInt8} {code : Nat}
    (number : hexNumber? digits = some code) : ∀ byte ∈ digits, isGap byte = false := by
  intro byte member
  rw [isGap, Option.isNone_eq_false_iff.mpr (isSome_hexValue?_of_hexNumber? number byte member),
    Bool.and_false]

theorem outline_append_of_not_isGap {bytes rest : List UInt8}
    (parts : ∀ byte ∈ bytes, isGap byte = false) (some : bytes ≠ []) (inGap : Bool) :
    outline inGap (bytes ++ rest) = bytes.map Option.some ++ outline false rest := by
  induction bytes generalizing inGap with
  | nil => exact absurd rfl some
  | cons byte bytes induction =>
    obtain ⟨first, others⟩ := List.forall_mem_cons.mp parts
    rw [List.cons_append, outline_cons_of_not_isGap first]
    cases bytes with
    | nil => rfl
    | cons next bytes =>
      rw [induction others (List.cons_ne_nil next bytes) false]
      rfl

/-- A gap that goes on is no longer than one that begins. -/
theorem length_outline_le (inGap : Bool) (text : List UInt8) :
    (outline true text).length ≤ (outline inGap text).length := by
  cases text with
  | nil => exact Nat.le_refl _
  | cons byte rest =>
    cases part : isGap byte with
    | true =>
      rw [outline_cons_of_isGap part, outline_cons_of_isGap part, if_pos rfl]
      split
      · exact Nat.le_refl _
      · exact Nat.le_succ _
    | false =>
      exact Nat.le_of_eq (by rw [outline_cons_of_not_isGap part, outline_cons_of_not_isGap part])

theorem length_outline_lt_cons (byte : UInt8) (rest : List UInt8) :
    (outline true rest).length < (outline false (byte :: rest)).length := by
  cases part : isGap byte with
  | true =>
    rw [outline_cons_of_isGap part, if_neg Bool.false_ne_true]
    exact Nat.lt_succ_self _
  | false =>
    rw [outline_cons_of_not_isGap part]
    exact Nat.lt_succ_of_le (length_outline_le false rest)

theorem length_outline_le_append (front rest : List UInt8) :
    (outline true rest).length ≤ (outline true (front ++ rest)).length := by
  induction front with
  | nil => exact Nat.le_refl _
  | cons byte front induction =>
    refine Nat.le_trans induction ?_
    rw [List.cons_append]
    cases part : isGap byte with
    | true => exact Nat.le_of_eq (by rw [outline_cons_of_isGap part, if_pos rfl])
    | false =>
      rw [outline_cons_of_not_isGap part]
      exact Nat.le_succ_of_le (length_outline_le false _)

theorem length_outline_le_length (inGap : Bool) (text : List UInt8) :
    (outline inGap text).length ≤ text.length := by
  fun_induction outline inGap text with
  | case1 => exact Nat.le_refl _
  | case2 byte rest _ induction => exact Nat.le_succ_of_le induction
  | case3 inGap byte rest _ _ induction => exact Nat.succ_le_succ induction
  | case4 inGap byte rest _ induction => exact Nat.succ_le_succ induction

/-- A text that begins outside a gap begins as its outline does. -/
theorem exists_of_outline_false {text : List UInt8} {first : Option UInt8}
    {more : List (Option UInt8)} (same : outline false text = first :: more) :
    ∃ byte rest, text = byte :: rest ∧ (first = some byte ∧ isGap byte = false ∧
      outline false rest = more ∨ first = none ∧ isGap byte = true ∧ outline true rest = more) := by
  cases text with
  | nil => cases same
  | cons byte rest =>
    refine ⟨byte, rest, rfl, ?_⟩
    cases part : isGap byte with
    | true =>
      rw [outline_cons_of_isGap part, if_neg Bool.false_ne_true] at same
      cases same
      exact .inr ⟨rfl, rfl, rfl⟩
    | false =>
      rw [outline_cons_of_not_isGap part] at same
      cases same
      exact .inl ⟨rfl, rfl, rfl⟩

/-- Two texts with one outline begin with the same byte, or both with a gap. -/
theorem cons_of_outline_false {first second : UInt8} {rest more : List UInt8}
    (same : outline false (first :: rest) = outline false (second :: more)) :
    first = second ∧ outline false rest = outline false more ∨
      isGap first = true ∧ isGap second = true := by
  cases part : isGap second with
  | true =>
    rw [outline_cons_of_isGap part, if_neg Bool.false_ne_true] at same
    obtain ⟨_, _, ⟨⟩, ⟨⟨⟩, -⟩ | ⟨-, gap, -⟩⟩ := exists_of_outline_false same
    exact .inr ⟨gap, rfl⟩
  | false =>
    rw [outline_cons_of_not_isGap part] at same
    obtain ⟨_, _, ⟨⟩, ⟨⟨⟩, -, follows⟩ | ⟨⟨⟩, -⟩⟩ := exists_of_outline_false same
    exact .inl ⟨rfl, follows⟩

/-- A text whose outline begins with bytes begins with those bytes. -/
theorem prefix_of_outline_false {bytes text : List UInt8} {more : List (Option UInt8)}
    (same : outline false text = bytes.map some ++ more) : bytes <+: text := by
  induction bytes generalizing text with
  | nil => exact List.nil_prefix
  | cons byte bytes induction =>
    obtain ⟨_, rest, rfl, ⟨⟨⟩, -, follows⟩ | ⟨⟨⟩, -⟩⟩ := exists_of_outline_false same
    exact List.cons_prefix_cons.mpr ⟨rfl, induction follows⟩

/-- A text in whose outline a byte comes first begins with that byte, after the rest of a
gap. -/
theorem exists_of_outline_cons {inGap : Bool} {text : List UInt8} {byte : UInt8}
    {more : List (Option UInt8)} (same : outline inGap text = some byte :: more) :
    ∃ gap rest, text = gap ++ byte :: rest ∧ (∀ other ∈ gap, isGap other = true) ∧
      outline false rest = more := by
  induction text generalizing inGap with
  | nil => cases same
  | cons first text induction =>
    cases part : isGap first with
    | true =>
      rw [outline_cons_of_isGap part] at same
      cases inGap with
      | true =>
        obtain ⟨gap, rest, rfl, gaps, follows⟩ := induction same
        exact ⟨first :: gap, rest, rfl, List.forall_mem_cons.mpr ⟨part, gaps⟩, follows⟩
      | false => cases same
    | false =>
      rw [outline_cons_of_not_isGap part] at same
      cases same
      exact ⟨[], text, rfl, nofun, rfl⟩

theorem outline_append_of_isGap {gap : List UInt8} (gaps : ∀ byte ∈ gap, isGap byte = true)
    (some : gap ≠ []) (inGap : Bool) (rest : List UInt8) :
    outline inGap (gap ++ rest) =
      if inGap then outline true rest else none :: outline true rest := by
  have goesOn : ∀ {gap : List UInt8}, (∀ byte ∈ gap, isGap byte = true) →
      outline true (gap ++ rest) = outline true rest := by
    intro gap gaps
    induction gap with
    | nil => rfl
    | cons byte gap induction =>
      obtain ⟨first, others⟩ := List.forall_mem_cons.mp gaps
      rw [List.cons_append, outline_cons_of_isGap first, if_pos rfl, induction others]
  cases gap with
  | nil => exact absurd rfl some
  | cons byte gap =>
    obtain ⟨first, others⟩ := List.forall_mem_cons.mp gaps
    rw [List.cons_append, outline_cons_of_isGap first, goesOn others]

/-! ## Texts that are alike -/

/-- Bytes that may stand for each other: the outline does not tell which of them begin a
text. -/
def Alike (first second : List UInt8) : Prop :=
  ∀ inGap rest, outline inGap (first ++ rest) = outline inGap (second ++ rest)

namespace Alike

variable {first second third fourth : List UInt8}

theorem refl (text : List UInt8) : Alike text text := fun _ _ => rfl

theorem trans (one : Alike first second) (two : Alike second third) : Alike first third :=
  fun inGap rest => (one inGap rest).trans (two inGap rest)

theorem cons (byte : UInt8) (alike : Alike first second) :
    Alike (byte :: first) (byte :: second) := by
  intro inGap rest
  rw [List.cons_append, List.cons_append, outline, outline, alike true rest, alike false rest]

theorem append (one : Alike first second) (two : Alike third fourth) :
    Alike (first ++ third) (second ++ fourth) := by
  have behind : Alike (second ++ third) (second ++ fourth) := by
    clear one
    induction second with
    | nil => exact two
    | cons byte second induction => exact induction.cons byte
  have before : Alike (first ++ third) (second ++ third) := by
    intro inGap rest
    rw [List.append_assoc, List.append_assoc]
    exact one inGap (third ++ rest)
  exact before.trans behind

end Alike

/-- A gap may be spelt as any other. -/
theorem Alike.gap {first second : List UInt8} (firstGap : ∀ byte ∈ first, isGap byte = true)
    (secondGap : ∀ byte ∈ second, isGap byte = true) (firstSome : first ≠ [])
    (secondSome : second ≠ []) : Alike first second := by
  intro inGap rest
  rw [outline_append_of_isGap firstGap firstSome, outline_append_of_isGap secondGap secondSome]

theorem high_of_isContinuation {byte : UInt8} (continues : Text.isContinuation byte = true) :
    0x80 ≤ byte.toNat := by
  unfold Text.isContinuation Text.continuation? at continues
  split at continues
  case isTrue range => exact range.1
  case isFalse => cases continues

theorem isGap_of_mem_encodeChar {char : Char} (wide : 0x80 ≤ char.toNat) :
    ∀ byte ∈ String.utf8EncodeChar char, isGap byte = true :=
  fun byte member => isGap_of_high (Text.high_of_mem_encodeChar wide byte member)

theorem encodeChar_ne_nil (char : Char) : String.utf8EncodeChar char ≠ [] := by
  obtain ⟨first, others, spelt, -⟩ := Text.wellFormed?_encodeChar char []
  rw [spelt]
  exact List.cons_ne_nil first others

/-- A character of a source is spelt with its bytes. -/
theorem alike_wellFormed {first : UInt8} {rest : List UInt8} {char : Char} {width : Nat}
    (found : Text.wellFormed? first rest = some (char, width)) :
    Alike (first :: rest.take (width - 1)) (String.utf8EncodeChar char) := by
  obtain ⟨ascii, bound⟩ := Text.width_of_wellFormed? found
  by_cases small : char.toNat < 0x80
  · obtain ⟨rfl, same⟩ := ascii.resolve_right (Nat.not_le_of_lt small)
    have spelt : char.toNat.toUInt8 = first := by
      rw [← same]
      exact UInt8.ofNat_toNat
    rw [Text.encodeChar_ascii small, spelt]
    exact .refl [first]
  · have wide : 0x80 ≤ char.toNat := Nat.le_of_not_lt small
    have firstHigh : 0x80 ≤ first.toNat := by
      refine Nat.le_of_not_lt fun firstSmall => small ?_
      rw [Text.wellFormed?_ascii firstSmall] at found
      cases found
      rw [Text.charOfNat_toNat (.inl (by omega))]
      exact firstSmall
    have others : ∀ byte ∈ rest.take (width - 1), isGap byte = true := by
      intro byte member
      obtain ⟨tail, split⟩ := List.takeWhile_prefix (l := rest) Text.isContinuation
      rw [← split, List.take_append_of_le_length bound] at member
      refine isGap_of_high (high_of_isContinuation ?_)
      exact List.all_eq_true.mp List.all_takeWhile byte (List.mem_of_mem_take member)
    have gaps : ∀ byte ∈ first :: rest.take (width - 1), isGap byte = true :=
      List.forall_mem_cons.mpr ⟨isGap_of_high firstHigh, others⟩
    exact .gap gaps (isGap_of_mem_encodeChar wide) (List.cons_ne_nil _ _) (encodeChar_ne_nil char)

/-- Decoding a source changes the spelling of gaps only: a stray byte is no part of an
escape, and neither is the character that it is shown as. -/
theorem alike_piecesFrom {skipped : Nat} {source : List UInt8}
    (within : skipped ≤ (source.takeWhile Text.isContinuation).length) :
    Alike (source.drop skipped)
      (Text.encode ((Text.piecesFrom skipped source).map Text.Piece.shown)) := by
  fun_induction Text.piecesFrom skipped source with
  | case1 => simpa using Alike.refl []
  | case2 skipped byte rest induction =>
    refine induction ?_
    cases continues : Text.isContinuation byte with
    | true =>
      rw [List.takeWhile_cons_of_pos continues, List.length_cons] at within
      exact Nat.le_of_succ_le_succ within
    | false => simp [continues] at within
  | case3 first rest char width found induction =>
    have whole := (alike_wellFormed found).append (induction (Text.width_of_wellFormed? found).2)
    rwa [List.cons_append, List.take_append_drop] at whole
  | case4 first rest found induction =>
    have high : 0x80 ≤ first.toNat := by
      refine Nat.le_of_not_lt fun small => ?_
      rw [Text.wellFormed?_ascii small] at found
      cases found
    have stray : ∀ byte ∈ [first], isGap byte = true := by simpa using isGap_of_high high
    have shown : Alike [first] (String.utf8EncodeChar Text.replacement) :=
      .gap stray (isGap_of_mem_encodeChar (by decide)) (List.cons_ne_nil _ _) (encodeChar_ne_nil _)
    exact shown.append (induction (Nat.zero_le _))

theorem alike_decode (source : List UInt8) : Alike source (Text.encode (Text.decode source)) :=
  alike_piecesFrom (Nat.zero_le _)

/-! ## Where bodies stand -/

/-- A text holds a body, up to the spelling of gaps, behind a gap and before its end. -/
def Holds (text body : List UInt8) : Prop :=
  ∃ front byte rest, Alike text (front ++ byte :: (body ++ rest)) ∧ isGap byte = true ∧ rest ≠ []

namespace Holds

variable {text body : List UInt8}

theorem of_alike {other : List UInt8} (alike : Alike other text) (holds : Holds text body) :
    Holds other body := by
  obtain ⟨front, byte, rest, same, gap, some⟩ := holds
  exact ⟨front, byte, rest, alike.trans same, gap, some⟩

/-- A text holds what a part of it holds. -/
theorem within (holds : Holds text body) (front rest : List UInt8) :
    Holds (front ++ (text ++ rest)) body := by
  obtain ⟨before, byte, after, same, gap, some⟩ := holds
  refine ⟨front ++ before, byte, after ++ rest, ?_, gap, ?_⟩
  · have whole := (Alike.refl front).append (same.append (.refl rest))
    simpa only [List.append_assoc, List.cons_append] using whole
  · exact fun empty => some (List.append_eq_nil_iff.mp empty).1

end Holds

/-- The marks of a literal, and the body that is decoded with them. -/
def markedBody (literal : List UInt8) : Except Error (Marks × List UInt8) := do
  let (marks, quoted) ← readQuoted literal
  return (marks, betweenQuotes quoted)

theorem suffix_of_readMarks {marks after : Marks} {literal quoted : List UInt8}
    (given : readMarks marks literal = .ok (after, quoted)) :
    quoted <:+ literal ∧ ∀ byte ∈ quoted.head?, isQuote byte = true := by
  fun_induction readMarks marks literal with
  | case1 marks =>
    cases given
    refine ⟨List.suffix_refl _, ?_⟩
    rintro _ ⟨⟩
  | case2 marks byte rest quote =>
    cases given
    refine ⟨List.suffix_refl _, ?_⟩
    rintro _ ⟨⟩
    exact quote
  | case3 marks byte rest | case4 marks byte rest | case5 marks byte rest =>
    rename_i induction
    obtain ⟨suffix, begins⟩ := induction given
    exact ⟨suffix.trans (List.suffix_cons byte rest), begins⟩
  | case6 => cases given

/-- A body stands behind the last of its opening quotes, and before the closing ones. -/
theorem exists_quotes {quoted : List UInt8} {count : Nat}
    (opening : ∀ byte ∈ quoted.take (count + 1), isQuote byte = true)
    (room : 2 * (count + 1) ≤ quoted.length) :
    ∃ front quote rest, quoted =
      front ++ quote :: ((quoted.drop (count + 1)).take (quoted.length - 2 * (count + 1)) ++ rest) ∧
      isQuote quote = true ∧ rest ≠ [] := by
  have inside : count < quoted.length := by omega
  refine ⟨quoted.take count, quoted[count],
    (quoted.drop (count + 1)).drop (quoted.length - 2 * (count + 1)), ?_, ?_, ?_⟩
  · rw [List.take_append_drop, List.getElem_cons_drop, List.take_append_drop]
  · apply opening
    rw [List.take_succ_eq_append_getElem inside]
    exact List.mem_append_right _ (List.mem_singleton_self _)
  · apply List.ne_nil_of_length_pos
    rw [List.length_drop, List.length_drop]
    omega

theorem exists_quotes_of_markedBody {literal body : List UInt8} {marks : Marks}
    (given : markedBody literal = .ok (marks, body)) :
    ∃ front quote rest, literal = front ++ quote :: (body ++ rest) ∧ isQuote quote = true ∧
      rest ≠ [] := by
  obtain ⟨⟨found, quoted⟩, part, between⟩ := ok_of_bind given
  cases between
  obtain ⟨read, long, -⟩ := of_readQuoted part
  obtain ⟨⟨before, rfl⟩, begins⟩ := suffix_of_readMarks read
  rw [betweenQuotes]
  suffices between : ∃ front quote rest, quoted = front ++ quote :: (_ ++ rest) ∧
      isQuote quote = true ∧ rest ≠ [] by
    obtain ⟨front, quote, rest, split, mark, some⟩ := between
    refine ⟨before ++ front, quote, rest, ?_, mark, some⟩
    rw [List.append_assoc, ← split]
  cases triple : isTriple quoted with
  | true =>
    simp only [isTriple, Bool.and_eq_true, decide_eq_true_eq, beq_iff_eq,
      List.all_eq_true] at triple
    obtain ⟨⟨room, opening⟩, -⟩ := triple
    have quotes : ∀ byte ∈ quoted.take (2 + 1), isQuote byte = true :=
      fun byte member => begins byte (opening byte member).symm
    exact exists_quotes quotes room
  | false =>
    have quotes : ∀ byte ∈ quoted.take (0 + 1), isQuote byte = true := by
      intro byte member
      rw [List.take_one] at member
      exact begins byte (Option.mem_toList.mp member)
    exact exists_quotes quotes long

/-- A literal holds its body. -/
theorem holds_of_markedBody {literal body : List UInt8} {marks : Marks}
    (given : markedBody literal = .ok (marks, body)) : Holds literal body := by
  obtain ⟨front, quote, rest, rfl, mark, some⟩ := exists_quotes_of_markedBody given
  refine ⟨front, quote, rest, .refl _, ?_, some⟩
  simp only [isQuote, Bool.or_eq_true, decide_eq_true_eq] at mark
  rcases mark with rfl | rfl <;> rfl

end Unsugar.StringLiteral
