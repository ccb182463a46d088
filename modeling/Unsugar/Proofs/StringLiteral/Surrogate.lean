import Unsugar.Proofs.StringLiteral.Outline

/-! Escapes that stand for surrogates. Decoding a body comes to such an escape after it
has paired the backslashes of the body, and the search of a whole source pairs those of
the source. Both pair alike behind a gap, and the outline of a source settles what the
search finds in it, unless an escape is cut short by the end of the source; before that
end there is room for the end of the literal. -/

namespace Unsugar.StringLiteral

/-! ## The escapes of a body -/

/-- What stands behind the backslash of each escape to which decoding a body comes, after
its first `skipped` bytes. Decoding comes no further than to an escape that denotes
nothing. -/
def escapesFrom : (skipped : Nat) → List UInt8 → List (List UInt8)
  | _, [] => []
  | skipped + 1, _ :: rest => escapesFrom skipped rest
  | 0, byte :: rest =>
    if byte = ascii '\r' then
      escapesFrom (if rest.head? = some (ascii '\n') then 1 else 0) rest
    else if byte = ascii '\\' then
      rest :: match escape false rest with
        | .ok (_, width) => escapesFrom width rest
        | .error _ => []
    else escapesFrom 0 rest

/-- The escapes of a body whose backslashes are no ordinary characters. -/
def escapes (body : List UInt8) : List (List UInt8) :=
  escapesFrom 0 body

/-- A code point escape, from its letter on, whose digits are the code of a surrogate. -/
inductive IsSurrogateEscape : List UInt8 → Prop where
  | intro {letter : UInt8} {digits after : List UInt8} {code : Nat}
      (width : letter = ascii 'u' ∧ digits.length = 4 ∨ letter = ascii 'U' ∧ digits.length = 8)
      (number : hexNumber? digits = some code) (low : 0xD800 ≤ code) (high : code ≤ 0xDFFF) :
      IsSurrogateEscape (letter :: (digits ++ after))

theorem encodeCode_of_surrogate {code : Nat} (low : 0xD800 ≤ code) (high : code ≤ 0xDFFF) :
    encodeCode code = Text.encode [Text.replacement] := by
  have invalid : ¬code.isValidChar := by
    rintro (below | ⟨above, -⟩) <;> omega
  rw [encodeCode, if_neg invalid]

theorem codePointEscape_of_surrogate {width code : Nat} {letter : UInt8}
    {digits after : List UInt8} (length : digits.length = width)
    (number : hexNumber? digits = some code) (low : 0xD800 ≤ code) (high : code ≤ 0xDFFF) :
    codePointEscape width (letter :: (digits ++ after)) =
      .ok (Text.encode [Text.replacement], width + 1) := by
  have enough : fewer (width + 1) (letter :: (digits ++ after)) = false := by
    simp [fewer, length]
  have inRange : ¬code > 0x10FFFF := by omega
  unfold codePointEscape
  dsimp only
  rw [enough, if_neg Bool.false_ne_true, List.drop_succ_cons, List.drop_zero, ← length,
    List.take_left, number]
  dsimp only
  rw [if_neg inRange, encodeCode_of_surrogate low high]
  rfl

/-- Such an escape denotes the replacement character: its own character is lost. -/
theorem escape_of_isSurrogateEscape {rest : List UInt8} (surrogate : IsSurrogateEscape rest) :
    ∃ width, escape false rest = .ok (Text.encode [Text.replacement], width) := by
  obtain ⟨⟨rfl, length⟩ | ⟨rfl, length⟩, number, low, high⟩ := surrogate
  · exact ⟨_, codePointEscape_of_surrogate length number low high⟩
  · exact ⟨_, codePointEscape_of_surrogate length number low high⟩

theorem replacement_of_mem_escapesFrom {skipped : Nat} {body value rest : List UInt8}
    (member : rest ∈ escapesFrom skipped body) (surrogate : IsSurrogateEscape rest)
    (given : unescapeFrom false false skipped body = .ok value) :
    Text.encode [Text.replacement] <:+: value := by
  fun_induction unescapeFrom false false skipped body generalizing value with
  | case1 => cases member
  | case2 skipped byte rest induction => exact induction member given
  | case3 following =>
    rename_i induction
    obtain ⟨tail, read, same⟩ := ok_of_bind given
    cases same
    rw [escapesFrom, if_pos rfl] at member
    exact (induction member read).trans (List.suffix_cons _ _).isInfix
  | case4 byte following notReturn slash induction =>
    obtain ⟨⟨piece, width⟩, escapes, given⟩ := ok_of_bind given
    obtain ⟨tail, read, same⟩ := ok_of_bind given
    cases same
    rw [escapesFrom, if_neg notReturn, if_pos slash.1, escapes] at member
    rcases List.mem_cons.mp member with rfl | later
    · obtain ⟨taken, replaced⟩ := escape_of_isSurrogateEscape surrogate
      cases escapes.symm.trans replaced
      exact (List.prefix_append _ _).isInfix
    · exact (induction width later read).trans (List.suffix_append _ _).isInfix
  | case5 byte following notReturn notSlash induction =>
    obtain ⟨tail, read, same⟩ := ok_of_bind given
    cases same
    have other : byte ≠ ascii '\\' := fun slash => notSlash ⟨slash, rfl⟩
    rw [escapesFrom, if_neg notReturn, if_neg other] at member
    exact (induction member read).trans (List.suffix_cons _ _).isInfix

/-- The value of a body with an escape for a surrogate holds the replacement character. -/
theorem replacement_of_mem_escapes {body value rest : List UInt8} (member : rest ∈ escapes body)
    (surrogate : IsSurrogateEscape rest) (given : unescape false false body = .ok value) :
    Text.encode [Text.replacement] <:+: value :=
  replacement_of_mem_escapesFrom member surrogate given

/-! ## What a search finds -/

theorem hasSurrogateEscape_cons {byte : UInt8} (other : byte ≠ ascii '\\') (rest : List UInt8) :
    hasSurrogateEscape (byte :: rest) = hasSurrogateEscape rest := by
  cases rest with
  | nil => rfl
  | cons second rest => rw [hasSurrogateEscape, if_pos other]

theorem hasSurrogateEscape_append {gap : List UInt8} (gaps : ∀ byte ∈ gap, isGap byte = true)
    (rest : List UInt8) : hasSurrogateEscape (gap ++ rest) = hasSurrogateEscape rest := by
  induction gap with
  | nil => rfl
  | cons byte gap induction =>
    obtain ⟨first, others⟩ := List.forall_mem_cons.mp gaps
    rw [List.cons_append, hasSurrogateEscape_cons (ne_slash_of_isGap first), induction others]

/-- The search goes on behind a backslash, unless the source cuts an escape short. -/
theorem hasSurrogateEscape_slash {letter : UInt8} {rest : List UInt8}
    (other : letter ≠ ascii '\\') (short : letter = ascii 'u' → 4 ≤ rest.length)
    (long : letter = ascii 'U' → 8 ≤ rest.length)
    (found : hasSurrogateEscape (letter :: rest) = true) :
    hasSurrogateEscape (ascii '\\' :: letter :: rest) = true := by
  rw [hasSurrogateEscape, if_neg (not_not_intro rfl), if_neg other]
  split
  case isFalse => exact found
  case isTrue code =>
    have enough : fewer (if letter = ascii 'u' then 4 else 8) rest = false := by
      rcases code with rfl | rfl
      · simp [fewer, short rfl]
      · rw [if_neg (by decide)]
        simp [fewer, long rfl]
    dsimp only
    rw [enough, if_neg Bool.false_ne_true, found]
    split
    · rw [Bool.or_true]
    · rfl

theorem hasSurrogateEscape_surrogate {letter : UInt8} {digits : List UInt8} {code : Nat}
    (width : letter = ascii 'u' ∧ digits.length = 4 ∨ letter = ascii 'U' ∧ digits.length = 8)
    (number : hexNumber? digits = some code) (low : 0xD800 ≤ code) (high : code ≤ 0xDFFF)
    (rest : List UInt8) :
    hasSurrogateEscape (ascii '\\' :: letter :: (digits ++ rest)) = true := by
  have range : (decide (0xD800 ≤ code) && decide (code ≤ 0xDFFF)) = true := by
    simp [low, high]
  have other : letter ≠ ascii '\\' := by
    rcases width with ⟨rfl, -⟩ | ⟨rfl, -⟩ <;> decide
  have length : (if letter = ascii 'u' then 4 else 8) = digits.length := by
    rcases width with ⟨rfl, length⟩ | ⟨rfl, length⟩
    · exact length.symm
    · rw [if_neg (by decide), length]
  have enough : fewer digits.length (digits ++ rest) = false := by
    simp [fewer]
  rw [hasSurrogateEscape, if_neg (not_not_intro rfl), if_neg other,
    if_pos (width.imp And.left And.left), length]
  dsimp only
  rw [enough, if_neg Bool.false_ne_true, List.take_left, number]
  dsimp only
  rw [range, Bool.true_or]

/-- A text that shows a surrogate: every source with its outline is found to hold one. -/
structure Shows (text : List UInt8) : Prop where
  -- A search stops at an escape that the source cuts short. No escape before this text is
  -- cut short if the text has room for a short escape and one byte more.
  room : 7 ≤ (outline true text).length
  found : ∀ inGap source, outline inGap source = outline inGap text →
    hasSurrogateEscape source = true

namespace Shows

variable {byte letter : UInt8} {text rest : List UInt8}

theorem cons (other : byte ≠ ascii '\\') (shows : Shows rest) : Shows (byte :: rest) where
  room := Nat.le_trans shows.room (length_outline_le_append [byte] rest)
  found inGap source same := by
    cases part : isGap byte with
    | true =>
      rw [outline_cons_of_isGap part] at same
      cases inGap with
      | true => exact shows.found true source same
      | false =>
        obtain ⟨first, source, rfl, ⟨⟨⟩, -⟩ | ⟨-, gap, follows⟩⟩ := exists_of_outline_false same
        rw [hasSurrogateEscape_cons (ne_slash_of_isGap gap)]
        exact shows.found true source follows
    | false =>
      rw [outline_cons_of_not_isGap part] at same
      obtain ⟨gap, source, rfl, gaps, follows⟩ := exists_of_outline_cons same
      rw [hasSurrogateEscape_append gaps, hasSurrogateEscape_cons other]
      exact shows.found false source follows

theorem append {bytes : List UInt8} (others : ∀ byte ∈ bytes, byte ≠ ascii '\\')
    (shows : Shows rest) : Shows (bytes ++ rest) := by
  induction bytes with
  | nil => exact shows
  | cons byte bytes induction =>
    obtain ⟨first, others⟩ := List.forall_mem_cons.mp others
    exact cons first (induction others)

/-- Two backslashes are passed together. -/
theorem pair (shows : Shows rest) : Shows (ascii '\\' :: ascii '\\' :: rest) where
  room := Nat.le_trans shows.room (length_outline_le_append [_, _] rest)
  found inGap source same := by
    rw [outline_cons_of_not_isGap rfl, outline_cons_of_not_isGap rfl] at same
    obtain ⟨gap, source, rfl, gaps, follows⟩ := exists_of_outline_cons same
    obtain ⟨second, source, rfl, ⟨⟨⟩, -, follows⟩ | ⟨⟨⟩, -⟩⟩ := exists_of_outline_false follows
    rw [hasSurrogateEscape_append gaps, hasSurrogateEscape, if_neg (not_not_intro rfl), if_pos rfl]
    exact shows.found false source follows

/-- A backslash before another byte hides nothing behind that byte. -/
theorem slash (other : letter ≠ ascii '\\')
    (long : letter = ascii 'U' → 8 ≤ (outline false rest).length)
    (shows : Shows (letter :: rest)) : Shows (ascii '\\' :: letter :: rest) where
  room := Nat.le_trans shows.room (length_outline_le_append [_] _)
  found inGap source same := by
    rw [outline_cons_of_not_isGap rfl] at same
    obtain ⟨gap, source, rfl, gaps, follows⟩ := exists_of_outline_cons same
    rw [hasSurrogateEscape_append gaps]
    have found := shows.found false source follows
    have room : 7 ≤ source.length := by
      refine Nat.le_trans ?_ (length_outline_le_length false source)
      rw [follows]
      exact Nat.le_trans shows.room (length_outline_le false _)
    cases source with
    | nil => exact absurd room (by decide)
    | cons first source =>
      -- The source may have another byte behind the backslash only if both are gaps.
      have ends : ∀ {byte}, first = byte → isGap byte = false →
          byte = letter ∧ outline false source = outline false rest := by
        rintro _ rfl part
        rcases cons_of_outline_false follows with both | ⟨gap, -⟩
        · exact both
        · cases part.symm.trans gap
      refine hasSurrogateEscape_slash ?_ (fun _ => ?_) (fun isLong => ?_) found
      · exact fun isSlash => other (ends isSlash rfl).1.symm
      · rw [List.length_cons] at room
        omega
      · obtain ⟨isLong, follows⟩ := ends isLong rfl
        refine Nat.le_trans (long isLong.symm) ?_
        rw [← follows]
        exact length_outline_le_length false source

/-- An escape for a surrogate is found, unless it is the end of the source. -/
theorem surrogate (surrogate : IsSurrogateEscape text) (some : rest ≠ []) :
    Shows (ascii '\\' :: (text ++ rest)) := by
  obtain @⟨letter, digits, after, code, width, number, low, high⟩ := surrogate
  have parts := isGap_of_hexNumber? number
  have letterPart : isGap letter = false := by
    rcases width with ⟨rfl, -⟩ | ⟨rfl, -⟩ <;> rfl
  have four : 4 ≤ digits.length := by omega
  have digitsSome : digits ≠ [] := List.ne_nil_of_length_pos (by omega)
  have same : ∀ inGap, outline inGap (ascii '\\' :: (letter :: (digits ++ after) ++ rest)) =
      Option.some (ascii '\\') :: Option.some letter ::
        (digits.map Option.some ++ outline false (after ++ rest)) := by
    intro inGap
    rw [outline_cons_of_not_isGap rfl, List.cons_append, outline_cons_of_not_isGap letterPart,
      List.append_assoc, outline_append_of_not_isGap parts digitsSome]
  refine ⟨?_, fun inGap source given => ?_⟩
  · have more : 0 < (outline false (after ++ rest)).length := by
      cases others : after ++ rest with
      | nil => exact absurd (List.append_eq_nil_iff.mp others).2 some
      | cons byte others =>
        rw [outline]
        split <;> exact Nat.succ_pos _
    rw [same]
    simp only [List.length_cons, List.length_append, List.length_map]
    omega
  · rw [same] at given
    obtain ⟨gap, source, rfl, gaps, follows⟩ := exists_of_outline_cons given
    obtain ⟨second, source, rfl, ⟨⟨⟩, -, follows⟩ | ⟨⟨⟩, -⟩⟩ := exists_of_outline_false follows
    obtain ⟨source, rfl⟩ := prefix_of_outline_false follows
    rw [hasSurrogateEscape_append gaps]
    exact hasSurrogateEscape_surrogate width number low high source

end Shows

/-! ## Bodies -/

theorem ne_slash_of_hexNumber? {digits : List UInt8} {code : Nat}
    (number : hexNumber? digits = some code) : ∀ byte ∈ digits, byte ≠ ascii '\\' := by
  intro byte member
  rintro rfl
  cases isSome_hexValue?_of_hexNumber? number _ member

/-- What an escape takes behind its letter: no backslash, and where eight digits are due,
eight digits. -/
structure Taken (letter : UInt8) (after : List UInt8) (count : Nat) : Prop where
  noSlash : ∀ byte ∈ after.take count, byte ≠ ascii '\\'
  long : letter = ascii 'U' → 8 ≤ after.length ∧ ∃ code, hexNumber? (after.take 8) = some code

theorem Taken.none {letter : UInt8} (after : List UInt8) (other : letter ≠ ascii 'U') :
    Taken letter after 0 where
  noSlash := nofun
  long isLong := absurd isLong other

theorem Taken.of_codePointEscape {width taken : Nat} {letter : UInt8} {after value : List UInt8}
    (found : codePointEscape width (letter :: after) = .ok (value, taken))
    (long : letter = ascii 'U' → width = 8) : taken = width + 1 ∧ Taken letter after width := by
  unfold codePointEscape at found
  dsimp only at found
  split at found
  case isTrue => cases found
  case isFalse enough =>
  split at found
  · cases found
  case h_2 code digits =>
  split at found
  · cases found
  · cases found
    rw [List.drop_succ_cons, List.drop_zero] at digits
    refine ⟨rfl, ne_slash_of_hexNumber? digits, fun isLong => ?_⟩
    obtain rfl := long isLong
    refine ⟨?_, code, digits⟩
    simp only [fewer, List.length_take, List.length_cons, decide_eq_true_eq] at enough
    omega

theorem taken_of_escape {letter : UInt8} {after value : List UInt8} {width : Nat}
    (found : escape false (letter :: after) = .ok (value, width)) :
    ∃ count, width = count + 1 ∧ Taken letter after count := by
  unfold escape at found
  dsimp only at found
  by_cases feed : letter = ascii '\n'
  · rw [if_pos feed] at found
    cases found
    exact ⟨0, rfl, .none after (feed ▸ by decide)⟩
  rw [if_neg feed] at found
  by_cases return_ : letter = ascii '\r'
  · rw [if_pos return_] at found
    cases found
    have other : letter ≠ ascii 'U' := return_ ▸ by decide
    split
    case isTrue pair =>
      obtain ⟨tail, rfl⟩ := List.head?_eq_some_iff.mp pair
      refine ⟨1, rfl, ?_, fun isLong => absurd isLong other⟩
      intro byte member
      obtain rfl := List.mem_singleton.mp member
      decide
    case isFalse => exact ⟨0, rfl, .none after other⟩
  rw [if_neg return_] at found
  cases known : letterEscape? letter with
  | some value =>
    rw [known] at found
    cases found
    refine ⟨0, rfl, .none after ?_⟩
    rintro rfl
    cases known
  | none =>
  rw [known] at found
  dsimp only at found
  by_cases octal : isOctal letter = true
  · rw [if_pos octal] at found
    split at found
    case isTrue => cases found
    case isFalse =>
      cases found
      refine ⟨_, rfl, fun byte member => ?_, ?_⟩
      · have digits := (List.takeWhile_prefix isOctal).trans (List.take_prefix 2 after)
        rw [← List.prefix_iff_eq_take.mp digits] at member
        rintro rfl
        cases List.all_eq_true.mp List.all_takeWhile _ member
      · rintro rfl
        cases octal
  rw [if_neg octal] at found
  by_cases hex : letter = ascii 'x'
  · rw [if_pos hex] at found
    split at found
    case isTrue => cases found
    case isFalse =>
    split at found
    · cases found
    case h_2 code digits =>
      cases found
      refine ⟨2, rfl, ne_slash_of_hexNumber? digits, fun isLong => ?_⟩
      exact absurd (hex.symm.trans isLong) (by decide)
  rw [if_neg hex] at found
  by_cases short : letter = ascii 'u'
  · rw [if_pos short, if_neg Bool.false_ne_true] at found
    refine ⟨4, Taken.of_codePointEscape found fun isLong => ?_⟩
    exact absurd (short.symm.trans isLong) (by decide)
  rw [if_neg short] at found
  by_cases long : letter = ascii 'U'
  · rw [if_pos long, if_neg Bool.false_ne_true] at found
    exact ⟨8, Taken.of_codePointEscape found fun _ => rfl⟩
  rw [if_neg long] at found
  by_cases named : letter = ascii 'N'
  · rw [if_pos named, if_neg Bool.false_ne_true] at found
    cases found
  rw [if_neg named] at found
  cases found
  exact ⟨0, rfl, .none after long⟩

/-- What shows behind an escape shows from its backslash on. -/
theorem Shows.escape {letter : UInt8} {after value rest : List UInt8} {width : Nat}
    (found : escape false (letter :: after) = .ok (value, width))
    (shows : Shows ((letter :: after).drop width ++ rest)) :
    Shows (ascii '\\' :: letter :: (after ++ rest)) := by
  obtain ⟨count, rfl, taken⟩ := taken_of_escape found
  rw [List.drop_succ_cons] at shows
  have split : after ++ rest = after.take count ++ (after.drop count ++ rest) := by
    rw [← List.append_assoc, List.take_append_drop]
  rw [split]
  have behind := shows.append taken.noSlash
  -- The only backslash that an escape can take is the one that it escapes.
  by_cases double : letter = ascii '\\'
  · subst double
    exact behind.pair
  · refine .slash double (fun isLong => ?_) (behind.cons double)
    obtain ⟨enough, code, digits⟩ := taken.long isLong
    have some : after.take 8 ≠ [] := List.ne_nil_of_length_pos (by rw [List.length_take]; omega)
    rw [← split, ← List.take_append_drop 8 after, List.append_assoc,
      outline_append_of_not_isGap (isGap_of_hexNumber? digits) some]
    simp only [List.length_append, List.length_map, List.length_take]
    omega

/-- Decoding a body comes to an escape for a surrogate: the body and what follows it show
one, from any place that decoding comes by. -/
theorem shows_of_mem_escapesFrom {skipped : Nat} {body escaped rest : List UInt8}
    (member : escaped ∈ escapesFrom skipped body) (surrogate : IsSurrogateEscape escaped)
    (some : rest ≠ []) : Shows (body.drop skipped ++ rest) := by
  fun_induction escapesFrom skipped body with
  | case1 => cases member
  | case2 skipped byte body induction => exact induction member
  | case3 body induction =>
    have behind := induction member
    refine .cons (by decide) ?_
    split at behind
    case isTrue feed =>
      obtain ⟨tail, rfl⟩ := List.head?_eq_some_iff.mp feed
      exact behind.cons (by decide)
    case isFalse => exact behind
  | case4 body notReturn induction =>
    rcases List.mem_cons.mp member with rfl | later
    · exact .surrogate surrogate some
    · cases body with
      | nil => cases later
      | cons letter after =>
        cases found : escape false (letter :: after) with
        | error failure =>
          rw [found] at later
          cases later
        | ok piece =>
          rw [found] at later
          exact .escape found (induction _ later)
  | case5 byte body notReturn notSlash induction => exact (induction member).cons notSlash

/-! ## Sources -/

theorem Shows.length_outline {byte : UInt8} {rest : List UInt8} (shows : Shows rest)
    (front : List UInt8) : 8 ≤ (outline false (front ++ byte :: rest)).length := by
  cases front with
  | nil => exact Nat.lt_of_le_of_lt shows.room (length_outline_lt_cons byte rest)
  | cons first front =>
    have behind := length_outline_le_append (front ++ [byte]) rest
    rw [List.append_assoc] at behind
    exact Nat.lt_of_le_of_lt (Nat.le_trans shows.room behind) (length_outline_lt_cons first _)

/-- What shows behind a gap shows from any place before the gap on, since backslashes
before the gap are paired before it. -/
theorem Shows.before {byte : UInt8} {rest : List UInt8} (gap : isGap byte = true)
    (shows : Shows rest) : ∀ front : List UInt8, Shows (front ++ byte :: rest)
  | [] => shows.cons (ne_slash_of_isGap gap)
  | [first] => by
    have behind := shows.cons (ne_slash_of_isGap gap)
    by_cases isSlash : first = ascii '\\'
    · subst isSlash
      refine .slash (ne_slash_of_isGap gap) (fun isLong => ?_) behind
      subst isLong
      cases gap
    · exact behind.cons isSlash
  | first :: second :: front => by
    have behind := Shows.before gap shows (second :: front)
    by_cases isSlash : first = ascii '\\'
    · subst isSlash
      by_cases double : second = ascii '\\'
      · subst double
        exact (Shows.before gap shows front).pair
      · exact behind.slash double fun _ => shows.length_outline front
    · exact behind.cons isSlash

/-- A source that holds a body with an escape for a surrogate is found to hold one. -/
theorem Holds.hasSurrogateEscape {text body escaped : List UInt8} (holds : Holds text body)
    (member : escaped ∈ escapes body) (surrogate : IsSurrogateEscape escaped) :
    hasSurrogateEscape text = true := by
  obtain ⟨front, byte, rest, same, gap, some⟩ := holds
  have shows : Shows (body ++ rest) := shows_of_mem_escapesFrom member surrogate some
  refine (shows.before gap front).found false text ?_
  simpa only [List.append_nil] using same false []

end Unsugar.StringLiteral
