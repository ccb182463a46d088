import Unsugar.Proofs.StringLiteral.Quoting
import Unsugar.Proofs.StringLiteral.Value
import Unsugar.Proofs.Token.Call

/-! Literals that are scanned again. A string or bytes word has the value that its
spelling denotes, and a literal written for a value is scanned up to its closing quote,
which comes before anything that would change the value. -/

namespace Unsugar

open StringLiteral (Enclosed)

namespace Token

/-- Whether a literal is a bytes literal, and its value. -/
def literal? : Token → Option (Bool × List UInt8)
  | .string text => some (false, Text.toBytes text)
  | .bytes value => some (true, value)
  | _ => none

/-- The word for a value. -/
def ofValue (inBytes : Bool) (value : List UInt8) : Token :=
  if inBytes then .bytes value else .string (Text.ofBytes value)

theorem ofValue_of_literal? {token : Token} {inBytes : Bool} {value : List UInt8}
    (literal : token.literal? = some (inBytes, value)) : ofValue inBytes value = token := by
  cases token <;> cases literal
  case string text => exact congrArg Token.string (Text.ofBytes_toBytes text)
  case bytes => rfl

theorem literal?_of_isNumber {token : Token} (number : token.isNumber = true) :
    token.literal? = none := by
  cases token <;> first | rfl | cases number

end Token

/-- The spelling of a string or bytes word denotes its value. -/
def Lexeme.IsDecoded (lexeme : Lexeme) : Prop :=
  ∀ inBytes value, lexeme.token.literal? = some (inBytes, value) →
    ∃ triple, StringLiteral.unquote (Text.toBytes lexeme.raw) = .ok { value, triple, inBytes }

theorem Lexeme.isDecoded_of_literal? {lexeme : Lexeme} (none : lexeme.token.literal? = none) :
    lexeme.IsDecoded := by
  intro inBytes value literal
  rw [none] at literal
  cases literal

namespace Lexer

open Scanner

/-! ## Words have the values they are spelt with -/

section Decoded

variable {α β : Type} {scanner : Scanner}

/-- Whatever comes before, if it comes to an end. -/
theorem Ends.any {reading : Lexer α} {next : α → Lexer β} {gives : β → Scanner → Prop}
    (rest : ∀ value after, Ends (next value) after gives fun _ => True) :
    Ends (reading >>= next) scanner gives fun _ => True := by
  have given : Ends reading scanner (fun _ _ => True) fun _ => True := by
    unfold Ends
    split <;> exact trivial
  exact given.after fun value after _ => rest value after

/-- The next character is at the front, whatever lines are read to see it. -/
theorem Ends.front {next : Char → Lexer β} {gives : β → Scanner → Prop}
    (rest : ∀ after : Scanner, Ends (next after.front) after gives fun _ => True) :
    Ends (Lexer.peek >>= next) scanner gives fun _ => True := by
  have given : Ends Lexer.peek scanner (fun char after => char = after.front) fun _ => True :=
    .any fun _ _ => .get (.pure rfl)
  refine given.after fun char after same => ?_
  rw [same]
  exact rest after

/-- A word without a value has none to be spelt. -/
theorem Ends.valueless {lexeme : Lexeme} {fails : Fault → Prop}
    (none : lexeme.token.literal? = none) :
    Ends (Pure.pure lexeme) scanner (fun lexeme _ => lexeme.IsDecoded) fails :=
  .pure (Lexeme.isDecoded_of_literal? none)

/-- A reading that gives only words with the values they are spelt with, if any. -/
def Decodes (reading : Lexer Lexeme) (scanner : Scanner) : Prop :=
  Ends reading scanner (fun lexeme _ => lexeme.IsDecoded) fun _ => True

theorem stringWord_decoded (start : Position) (marks quotes body : List Char) :
    Decodes (stringWord start marks quotes body) scanner := by
  refine .ite (fun _ => .valueless rfl) fun _ => ?_
  split
  case h_1 => exact trivial
  case h_2 reading read =>
    refine .pure fun inBytes value literal => ⟨reading.triple, ?_⟩
    have spelt : Text.toBytes (String.ofList (marks ++ quotes ++ body ++ quotes)) =
        Text.encode (marks ++ quotes ++ body ++ quotes) := by
      rw [Text.toBytes, String.toList_ofList]
    rw [spelt, read]
    dsimp only at literal
    cases kind : reading.inBytes with
    | true =>
      rw [kind] at literal
      cases literal
      rw [← kind]
    | false =>
      obtain ⟨text, same⟩ := StringLiteral.isText_of_unquote read kind
      rw [kind, same, if_neg Bool.false_ne_true, Token.literal?, Text.toBytes_ofBytes_encode,
        ← same] at literal
      cases literal
      rw [← kind]

theorem string_decoded (start : Position) (marks : List Char) (fuel : Nat) :
    Decodes (string start marks fuel) scanner := by
  refine .any fun quote _ => .get ?_
  have body : ∀ triple quotes after, Decodes (do
      let body ← stringBody start quote triple fuel
      stringWord start marks quotes body) after :=
    fun _ _ _ => .any fun _ _ => stringWord_decoded start marks _ _
  exact .ite (fun _ => .any fun _ after => body _ _ after) fun _ => body _ _ _

theorem number_decoded {start : Position} (begins : Numeral.BeginsNumber scanner.rest) :
    Decodes (number start) scanner := by
  refine .get ?_
  have fits := Numeral.read_fits begins
  revert fits
  cases Numeral.read scanner.rest with
  | ok reading =>
    rintro ⟨-, -, isNumber⟩
    exact .any fun _ _ => .valueless (Token.literal?_of_isNumber isNumber)
  | error failure => exact fun _ => .any fun _ _ => trivial

theorem word_decoded (start : Position) : Decodes (word start) scanner := by
  refine .any fun _ _ => .valueless ?_
  dsimp only
  split <;> rfl

theorem punctuation_decoded (start : Position) (char : Char) :
    Decodes (punctuation start char) scanner := by
  refine .get ?_
  split
  · exact trivial
  · exact .ite (fun _ => trivial) fun _ => .any fun _ _ => .change (.valueless rfl)

theorem wordAt_decoded (fuel : Nat) (more : scanner.front ≠ '\x00')
    (plain : isBreak scanner.front = false) : Decodes (wordAt scanner.front fuel) scanner := by
  obtain ⟨rest, begins⟩ := rest_of_front_of_not_isBreak rfl more plain
  refine .get (.ite (fun _ => string_decoded _ [] fuel) fun _ => .ite (fun _ => ?_) fun _ => ?_)
  · split
    · exact .any fun _ _ => string_decoded _ _ fuel
    · exact word_decoded _
  · refine .ite (fun digit => number_decoded (.inl ⟨_, _, begins, digit⟩)) fun _ => ?_
    exact .ite (fun point => number_decoded (beginsNumber_of_point begins point))
      fun _ => punctuation_decoded _ _

theorem emptyWord_decoded {token : Token} (raw : String) (none : token.literal? = none) :
    Decodes (emptyWord token raw) scanner :=
  .get (.valueless none)

theorem pendingWord_decoded : Decodes pendingWord scanner :=
  .get (.ite (fun _ => .set (emptyWord_decoded "" rfl)) fun _ => .set (emptyWord_decoded "" rfl))

/-- Each word that a scanner gives, in whatever state it is, has the value it is spelt
with. -/
theorem next_decoded (fuel : Nat) : ∀ scanner, Decodes (next fuel) scanner := by
  induction fuel with
  | zero => exact fun _ => trivial
  | succ fuel induction =>
    intro scanner
    refine .get (.any fun blank opened => .get ?_)
    refine .ite (fun _ => pendingWord_decoded) fun _ => .any fun _ _ => .front fun begun => ?_
    refine .ite (fun _ => ?_) fun feed => .ite (fun _ => ?_) fun null =>
      .ite (fun _ => ?_) fun _ => ?_
    · refine .change (.get (.ite (fun _ => ?_) fun _ => .ite (fun _ => ?_) fun _ => ?_))
      · exact .any fun _ after => induction after
      · exact .any fun _ after => induction after
      · exact .get (.any fun _ _ => .valueless rfl)
    · refine .get (.ite (fun _ => emptyWord_decoded "" rfl) fun _ => .ite (fun _ => ?_) fun _ => ?_)
      · exact .any fun _ after => induction after
      · exact .change (emptyWord_decoded "\n" rfl)
    · refine .any fun _ _ => .any fun _ _ => .ite (fun _ => trivial) fun _ => ?_
      exact .any fun _ after => induction after
    · exact wordAt_decoded fuel (by simpa using null) (isBreak_front (by simpa using feed))

end Decoded

/-! ## What is written is scanned up to its end -/

section Written

variable {scanner : Scanner} {rest : List Char} {fails : Fault → Prop}

theorem closesString_single {char : Char} :
    Ends (closesString '"' false char) scanner
      (fun closed after => closed = (char == '"') ∧ after = scanner) fails := by
  refine .ite (fun other => .pure ⟨?_, rfl⟩) fun same =>
    .ite (fun _ => .pure ⟨?_, rfl⟩) fun many => ?_
  · exact (Bool.not_eq_true' _).mp other |>.symm
  · simpa using same
  · cases many rfl

/-- In a string, a character of the line is read. -/
theorem readInside_ends {α : Type} {start : Position} {fuel : Nat} {char : Char}
    {next : Char → Lexer α} {gives : α → Scanner → Prop} (text : scanner.supply = none)
    (enough : scanner.size < fuel + 1) (begins : scanner.rest = char :: rest)
    (inLine : isBreak char = false)
    (continues : ∀ after : Scanner, after.supply = none → after.size < fuel → after.rest = rest →
      Ends (next char) after gives fails) :
    Ends (do
      if ← atEnd then complainAt start .openString
      let char ← read
      next char) scanner gives fails := by
  have smaller := size_skip_lt Nat.one_pos begins inLine
  refine .bind (.atEnd text (.ite (fun none => ?_) fun _ => ?_))
  · rw [begins] at none
    cases none
  · refine .bind (.readPlain text begins inLine (continues _ text (by omega) ?_))
    rw [skip, begins]
    rfl

/-- A body that no quote ends is read up to the quote after it. -/
theorem stringBody_enclosed (start : Position) {body : List Char} (enclosed : Enclosed body) :
    ∀ {fuel : Nat} {scanner : Scanner}, scanner.supply = none → scanner.size < fuel →
      scanner.rest = body ++ '"' :: rest →
      Ends (stringBody start '"' false fuel) scanner
        (fun found after => found = body ∧ after.rest = rest) fails := by
  induction enclosed with
  | nil =>
    intro fuel scanner text enough begins
    obtain ⟨fuel, rfl⟩ := Nat.exists_eq_add_one_of_ne_zero (Nat.ne_zero_of_lt enough)
    refine readInside_ends text enough begins rfl fun after _ _ remains => ?_
    exact .pure ⟨rfl, remains⟩
  | @plain char body notQuote notSlash inLine _ induction =>
    intro fuel scanner text enough begins
    obtain ⟨fuel, rfl⟩ := Nat.exists_eq_add_one_of_ne_zero (Nat.ne_zero_of_lt enough)
    refine readInside_ends text enough begins inLine fun after text enough remains => ?_
    refine closesString_single.after ?_
    rintro _ after ⟨rfl, rfl⟩
    refine .ite (fun quote => absurd (beq_iff_eq.mp quote) notQuote) fun _ => ?_
    refine .ite (fun feed => ?_) fun _ =>
      .ite (fun slash => absurd (beq_iff_eq.mp slash) notSlash) fun _ => ?_
    · rw [Bool.and_eq_true, beq_iff_eq] at feed
      rw [feed.1] at inLine
      cases inLine
    · refine (induction text enough remains).after ?_
      rintro _ last ⟨rfl, closed⟩
      exact .pure ⟨rfl, closed⟩
  | @escaped char body inLine _ induction =>
    intro fuel scanner text enough begins
    obtain ⟨fuel, rfl⟩ := Nat.exists_eq_add_one_of_ne_zero (Nat.ne_zero_of_lt enough)
    refine readInside_ends text enough begins rfl fun slash text enough remains => ?_
    refine closesString_single.after ?_
    rintro _ after ⟨rfl, rfl⟩
    have enough := Nat.lt_succ_of_lt enough
    refine readInside_ends text enough remains inLine fun after text enough remains => ?_
    refine (induction text enough remains).after ?_
    rintro _ last ⟨rfl, closed⟩
    exact .pure ⟨rfl, closed⟩

/-- The word of a value that is written without marks or with the mark of bytes. -/
theorem stringWord_quoteWith {start : Position} (printable : Char → Bool) {inBytes : Bool}
    {value : List UInt8} (valid : StringLiteral.IsValue inBytes value) :
    Ends (stringWord start (if inBytes then ['b'] else []) ['"']
        (StringLiteral.quoteBody printable inBytes false value)) scanner
      (fun lexeme after =>
        lexeme = ⟨.ofValue inBytes value,
          String.ofList (StringLiteral.quoteWith printable inBytes false value), start⟩ ∧
        after = scanner) fails := by
  have spelt : (if inBytes then ['b'] else []) ++ ['"'] ++
      StringLiteral.quoteBody printable inBytes false value ++ ['"'] =
      StringLiteral.quoteWith printable inBytes false value := rfl
  have marked : ((if inBytes then ['b'] else []).map Char.toLower).contains 'f' = false := by
    cases inBytes <;> rfl
  refine .ite (fun formatted => ?_) fun _ => ?_
  · rw [marked] at formatted
    cases formatted
  · rw [spelt, StringLiteral.unquote_quoteWith printable false valid]
    exact .pure ⟨rfl, rfl⟩

/-- A written literal is scanned whole, if no quote follows it. -/
theorem string_quoteWith {start : Position} (printable : Char → Bool) {inBytes : Bool}
    {value : List UInt8} {fuel : Nat} (valid : StringLiteral.IsValue inBytes value)
    (free : rest.head? ≠ some '"') (text : scanner.supply = none) (enough : scanner.size ≤ fuel)
    (begins : scanner.rest =
      '"' :: (StringLiteral.quoteBody printable inBytes false value ++ '"' :: rest)) :
    Ends (string start (if inBytes then ['b'] else []) fuel) scanner
      (fun lexeme after =>
        lexeme = ⟨.ofValue inBytes value,
          String.ofList (StringLiteral.quoteWith printable inBytes false value), start⟩ ∧
        after.rest = rest) fails := by
  have enclosed := StringLiteral.quoteBody_enclosed printable inBytes value
  have smaller := size_skip_lt Nat.one_pos begins rfl
  have within : (scanner.skip 1).supply = none := text
  have follows : (scanner.skip 1).rest =
      StringLiteral.quoteBody printable inBytes false value ++ '"' :: rest := by
    rw [skip, begins]
    rfl
  have single : ((scanner.skip 1).rest.take 2 == ['"', '"']) = false := by
    rw [follows]
    exact beq_false_of_ne (enclosed.take_two_ne free)
  refine .bind (.readPlain text begins rfl (.get (.ite (fun triple => ?_) fun _ => ?_)))
  · rw [single] at triple
    cases triple
  · rw [single]
    refine (stringBody_enclosed start enclosed within (by omega) follows).after ?_
    rintro _ after ⟨rfl, remains⟩
    apply (stringWord_quoteWith printable valid).imp
    rintro lexeme _ ⟨same, rfl⟩
    exact ⟨same, remains⟩

/-- Whether a character at the beginning of a text begins a word. -/
def beginsWord (char : Char) : Bool :=
  !isGap char && !endsBlank char && !isBreak char && char != '\\'

theorem measure_of_not_isGap {char : Char} (word : isGap char = false) (width column : Nat) :
    measure width column (char :: rest) = (width, column, char :: rest) := by
  unfold measure
  split
  case h_4 => rfl
  all_goals
    rename_i same
    obtain ⟨rfl, -⟩ := List.cons.inj same
    cases word

theorem skipBlanks_of_front {gives : Unit → Scanner → Prop} (text : scanner.supply = none)
    (gap : isGap scanner.front = false) (remark : scanner.front ≠ '#') (some : scanner.rest ≠ [])
    (holds : gives () scanner) : Ends skipBlanks scanner gives fails := by
  have none : fitting isGap scanner = 0 := by
    obtain ⟨char, rest, begins⟩ := List.exists_cons_of_ne_nil some
    rw [front, begins] at gap
    rw [fitting, begins, List.takeWhile_cons_of_neg]
    · rfl
    · exact Bool.eq_false_iff.mp gap
  refine .bind (.takeWhile text ?_)
  rw [none]
  refine .bind (.peek text (.ite (fun comment => ?_) fun _ => .pure holds))
  exact absurd (beq_iff_eq.mp comment) remark

/-- The word at the beginning of a text is read at once. -/
theorem next_of_beginsWord {file : String} {char : Char} {fuel : Nat}
    {gives : Lexeme → Scanner → Prop} (begins : beginsWord char = true)
    (word : ∀ scanner : Scanner, scanner.supply = none → scanner.rest = char :: rest →
      scanner.position = .at file 1 1 → Ends (wordAt char fuel) scanner gives fails) :
    Ends (next (fuel + 1)) (ofText file (char :: rest)) gives fails := by
  simp only [beginsWord, Bool.and_eq_true, Bool.not_eq_true', bne_iff_ne] at begins
  obtain ⟨⟨⟨gap, blank⟩, inLine⟩, slash⟩ := begins
  have front : seen char = char := seen_of_not_isBreak inLine
  simp only [endsBlank, Bool.or_eq_false_iff, beq_eq_false_iff_ne] at blank
  obtain ⟨⟨remark, feed⟩, null⟩ := blank
  have opened : Ends openLine (ofText file (char :: rest))
      (fun _ after => after = { ofText file (char :: rest) with lineStart := false }) fails := by
    refine .get (.ite (fun _ => ?_) fun going => absurd rfl going)
    refine .bind (.fill rfl (.get ?_))
    dsimp only [ofText]
    rw [measure_of_not_isGap gap]
    refine .set (.bind (.peek rfl (.ite (fun _ => ?_) fun _ => .pure rfl)))
    refine .bind (.get (.bind (innermost_ends rfl ?_)))
    exact .ite (fun deeper => absurd deeper (Nat.lt_irrefl 0)) fun _ =>
      .ite (fun less => absurd less (Nat.lt_irrefl 0)) fun _ => .pure (.pure rfl)
  refine .get (opened.after ?_)
  rintro blank _ rfl
  refine .get (.ite (fun waits => absurd rfl waits) fun _ => .bind ?_)
  have isFront : Scanner.front { ofText file (char :: rest) with lineStart := false } = char :=
    front
  refine skipBlanks_of_front rfl ?_ ?_ (List.cons_ne_nil _ _) (.bind (.peek rfl ?_))
  · rw [isFront]
    exact gap
  · rw [isFront]
    exact remark
  rw [isFront]
  refine .ite (fun same => absurd (beq_iff_eq.mp same) feed) fun _ => ?_
  refine .ite (fun same => absurd (beq_iff_eq.mp same) null) fun _ => ?_
  refine .ite (fun same => absurd (beq_iff_eq.mp same) slash) fun _ => ?_
  exact word _ rfl rfl rfl

theorem wordAt_of_isQuoteMark {char : Char} {fuel : Nat} {gives : Lexeme → Scanner → Prop}
    (quote : isQuoteMark char = true)
    (word : Ends (string scanner.position [] fuel) scanner gives fails) :
    Ends (wordAt char fuel) scanner gives fails :=
  .get (.ite (fun _ => word) fun other => absurd quote other)

theorem wordAt_of_marks {char : Char} {count fuel : Nat} {gives : Lexeme → Scanner → Prop}
    (name : isNameStart char = true) (letter : isQuoteMark char = false)
    (marked : marksBeforeQuote? scanner.rest = some count)
    (word : Ends (string scanner.position (scanner.rest.take count) fuel) (scanner.skip count)
      gives fails) :
    Ends (wordAt char fuel) scanner gives fails := by
  have bound := (quote_of_marksBeforeQuote? marked).2.1
  refine .get (.ite (fun quote => ?_) fun _ => .ite (fun _ => ?_) (absurd name))
  · rw [letter] at quote
    cases quote
  · rw [marked]
    exact .bind (.take bound word)

/-- A literal at the beginning of a text is the first word, and nothing after it is read. -/
theorem next_quoteWith {file : String} (printable : Char → Bool) {inBytes : Bool}
    {value : List UInt8} {fuel : Nat} (valid : StringLiteral.IsValue inBytes value)
    (free : rest.head? ≠ some '"')
    (enough : (ofText file
      (StringLiteral.quoteWith printable inBytes false value ++ rest)).size ≤ fuel) :
    Ends (next (fuel + 1)) (ofText file
        (StringLiteral.quoteWith printable inBytes false value ++ rest))
      (fun lexeme after =>
        lexeme = ⟨.ofValue inBytes value,
          String.ofList (StringLiteral.quoteWith printable inBytes false value), .at file 1 1⟩ ∧
        after.rest = rest) fails := by
  have spelt : StringLiteral.quoteWith printable inBytes false value ++ rest =
      (if inBytes then ['b'] else []) ++
        '"' :: (StringLiteral.quoteBody printable inBytes false value ++ '"' :: rest) := by
    simp [StringLiteral.quoteWith, StringLiteral.quotes]
  rw [spelt] at enough ⊢
  rw [size_eq rfl] at enough
  cases inBytes with
  | false =>
    refine next_of_beginsWord (by decide +kernel) fun scanner text begins position => ?_
    apply wordAt_of_isQuoteMark (by decide +kernel)
    rw [position]
    apply string_quoteWith printable valid free text ?_ begins
    rw [size_eq text, begins]
    exact enough
  | true =>
    refine next_of_beginsWord (by decide +kernel) fun scanner text begins position => ?_
    have marked : marksBeforeQuote? scanner.rest = some 1 := by
      rw [begins]
      rfl
    have taken : scanner.rest.take 1 = if true then ['b'] else [] := by
      rw [begins]
      rfl
    have moved := reads_skip scanner 1
    have within : (scanner.skip 1).size ≤ fuel := by
      apply Nat.le_trans moved.size_le
      rw [size_eq text, begins]
      exact enough
    have remains : (scanner.skip 1).rest =
        '"' :: (StringLiteral.quoteBody printable true false value ++ '"' :: rest) := by
      rw [skip, begins]
      rfl
    apply wordAt_of_marks (by decide +kernel) (by decide +kernel) marked
    rw [position, taken]
    exact string_quoteWith printable valid free (moved.supply.trans text) within remains

end Written

end Lexer

namespace Stream

open Scanner

theorem isDecoded_of_mem_read {fuel : Nat} (count : Nat) : ∀ {scanner : Scanner},
    ∀ lexeme ∈ (read fuel count scanner).lexemes, lexeme.IsDecoded := by
  induction count with
  | zero => exact fun _ => nofun
  | succ count induction =>
    intro scanner lexeme member
    have decoded := Lexer.next_decoded fuel scanner
    unfold Lexer.Decodes Lexer.Ends at decoded
    unfold read at member
    revert decoded member
    cases Lexer.next fuel scanner with
    | error fault after => exact nofun
    | ok first after =>
      dsimp only
      split
      case isTrue =>
        intro decoded member
        obtain rfl := List.mem_singleton.mp member
        exact decoded
      case isFalse =>
        intro decoded member
        rcases List.mem_cons.mp member with rfl | later
        · exact decoded
        · exact induction lexeme later

/-- The words of a text that begins with a written literal begin with the word for its
value. -/
theorem ofScanner_quoteWith (file : String) (printable : Char → Bool) {inBytes : Bool}
    {value : List UInt8} {rest : List Char} (valid : StringLiteral.IsValue inBytes value)
    (free : rest.head? ≠ some '"') :
    let quoted := StringLiteral.quoteWith printable inBytes false value
    ∃ after more, ofScanner (ofText file (quoted ++ rest)) =
      .word ⟨.ofValue inBytes value, String.ofList quoted, .at file 1 1⟩ after more ∧
      after.rest = rest := by
  intro quoted
  unfold ofScanner
  extract_lets bound
  have enough : (ofText file (quoted ++ rest)).size ≤
      2 * (ofText file (quoted ++ rest)).size + 1 := by omega
  have first : Lexer.Ends (Lexer.next bound) (ofText file (quoted ++ rest)) _ fun _ => False :=
    Lexer.next_quoteWith printable valid free enough
  unfold Lexer.Ends at first
  unfold read
  revert first
  cases Lexer.next bound (ofText file (quoted ++ rest)) with
  | error fault after => exact False.elim
  | ok lexeme after =>
    rintro ⟨rfl, remains⟩
    have more : Token.ofValue inBytes value ≠ .endOfFile := by
      cases inBytes <;> exact nofun
    dsimp only
    rw [if_neg more]
    exact ⟨after, _, rfl, remains⟩

end Stream

/-- A literal that is written for a value is scanned back. The value of each string or
bytes word that a scanner gives is the one that its spelling denotes, and that of a string
word is the UTF-8 of a text. Written as a literal, before anything but a double quote, the
value is scanned as the same word again, spelt as it was written, and what follows it is
left unread. -/
theorem literal_scans_back {scanner : Scanner} {lexeme : Lexeme} {inBytes : Bool}
    {value : List UInt8} (given : lexeme ∈ (Stream.ofScanner scanner).lexemes)
    (literal : lexeme.token.literal? = some (inBytes, value)) (file : String)
    {rest : List UInt8} (free : rest.head? ≠ some (StringLiteral.ascii '"')) :
    let quoted := StringLiteral.quote inBytes false value
    (∃ triple, StringLiteral.unquote (Text.toBytes lexeme.raw) = .ok { value, triple, inBytes }) ∧
      (inBytes = false → Text.IsText value) ∧
      ∃ after more,
        Stream.ofScanner (.ofText file (Text.decode (Text.toBytes quoted ++ rest))) =
          .word ⟨lexeme.token, quoted, .at file 1 1⟩ after more ∧
        after.rest = Text.decode rest := by
  intro quoted
  have isText : inBytes = false → Text.IsText value := by
    rintro rfl
    cases token : lexeme.token <;> rw [token] at literal <;> cases literal
    exact .encode _
  have valid : StringLiteral.IsValue inBytes value := by
    cases inBytes with
    | true => exact .inl rfl
    | false => exact .inr (isText rfl)
  refine ⟨Stream.isDecoded_of_mem_read _ lexeme given inBytes value literal, isText, ?_⟩
  have bytes : Text.decode (Text.toBytes quoted ++ rest) =
      StringLiteral.quoteWith Text.isPrintable inBytes false value ++ Text.decode rest := by
    rw [Text.toBytes, Text.decode_encode_append]
    exact congrArg (· ++ Text.decode rest) String.toList_ofList
  rw [bytes, ← Token.ofValue_of_literal? literal]
  exact Stream.ofScanner_quoteWith file Text.isPrintable valid
    (Text.head?_decode_ne (by decide) free)

/-- A name that is spelt with an escape, and written with the character itself. -/
theorem literal_scans_back_accent :
    let source := Text.toBytes "x = 'caf\\xe9'"
    ∃ lexeme ∈ (Stream.ofScanner (.ofText "a.py" (Text.decode source))).lexemes,
      lexeme.token.literal? = some (false, Text.toBytes "café") ∧
      (∃ triple, StringLiteral.unquote (Text.toBytes lexeme.raw) =
        .ok { value := Text.toBytes "café", triple, inBytes := false }) ∧
      Text.IsText (Text.toBytes "café") ∧
      ∃ after more, Stream.ofScanner (.ofText "b.py" (Text.decode
          (Text.toBytes (StringLiteral.quote false false (Text.toBytes "café")) ++ [0x2B]))) =
        .word ⟨lexeme.token, StringLiteral.quote false false (Text.toBytes "café"), .at "b.py" 1 1⟩
          after more ∧ after.rest = Text.decode [0x2B] := by
  intro source
  obtain ⟨lexeme, given, literal⟩ : ∃ lexeme ∈ (Stream.ofScanner
      (.ofText "a.py" (Text.decode source))).lexemes,
      lexeme.token.literal? = some (false, Text.toBytes "café") := by
    decide +kernel
  have free : ([0x2B] : List UInt8).head? ≠ some (StringLiteral.ascii '"') := by decide
  obtain ⟨spelt, isText, scanned⟩ := literal_scans_back given literal "b.py" free
  exact ⟨lexeme, given, literal, spelt, isText rfl, scanned⟩

end Unsugar
