import Unsugar.Desugar
import Unsugar.Proofs.Grammar.FormattedString
import Unsugar.Proofs.StringLiteral.Surrogate
import Unsugar.Proofs.Token.Spelling

/-! The escapes that reading a module decodes. They stand in the string words of its text
and in the texts of its formatted strings, and also in those of the fields and formats in
them. Each of these bodies stands in the source between bytes that are no part of an
escape, with other bytes of that kind in place of a line break, of a doubled brace or of
what is no character; so an escape for a surrogate in one of them is found by the search
of the source, and the module is left as it is. -/

namespace Unsugar.Grammar

open StringLiteral (Alike Holds ascii)

/-! ## What is decoded -/

/-- The texts of a field: its expression, its format, and what follows its closing brace. -/
structure FieldTexts where
  value : List Char
  spec : Option (List Char)
  after : List Char

/-- Splits off a format, if there is one. -/
def formatText (chars : List Char) : Option (Option (List Char) × List Char) :=
  if chars.head? == some ':' then
    (specText 0 (chars.drop 1)).map fun (text, rest) => (some text, rest)
  else some (none, chars)

/-- What comes after the expression of a field and its equals sign and conversion. -/
def afterConversion (chars : List Char) : List Char :=
  let rest := if chars.head? == some '=' then chars.drop 1 else chars
  if rest.head? == some '!' then rest.drop 2 else rest

/-- Splits a field behind its opening brace. -/
def fieldTexts (chars : List Char) : Option FieldTexts := do
  let (value, rest) ← fieldText 0 none none chars
  let (spec, rest) ← formatText (afterConversion rest)
  if rest.head? == some '\x7d' then some ⟨value, spec, rest.drop 1⟩ else none

/-- The scanner that reads the expression of a field. -/
def fieldScanner (position : Position) (text : List Char) : Scanner :=
  let scanner : Scanner :=
    { rest := '(' :: text ++ [')'], file := "", line := position.line, column := position.column }
  match position with
  | .at file .. => { scanner with file }
  | .unknown => scanner

theorem rest_fieldScanner (position : Position) (text : List Char) :
    (fieldScanner position text).rest = '(' :: text ++ [')'] := by
  cases position <;> rfl

theorem supply_fieldScanner (position : Position) (text : List Char) :
    (fieldScanner position text).supply = none := by
  cases position <;> rfl

/-- What is read as a whole: the words of a scanner, or the texts and fields of a body. -/
inductive Passage where
  | words (scanner : Scanner)
  | body (position : Position) (plain : Bool) (chars : List Char)

/-- Reading a passage decodes the escapes of a body: one of a string word, or a text of a
formatted string or of one of its formats, in which backslashes are no ordinary characters. -/
inductive Decodes : Passage → List UInt8 → Prop where
  | string {scanner : Scanner} {lexeme : Lexeme} {value : String}
      {marks : StringLiteral.Marks} {body : List UInt8}
      (member : lexeme ∈ (Stream.ofScanner scanner).lexemes) (token : lexeme.token = .string value)
      (marked : StringLiteral.markedBody (Text.toBytes lexeme.raw) = .ok (marks, body))
      (escaped : marks.plain = false) : Decodes (.words scanner) body
  | formatted {scanner : Scanner} {lexeme : Lexeme} {chars : List Char} {plain : Bool}
      {body : List UInt8} (member : lexeme ∈ (Stream.ofScanner scanner).lexemes)
      (token : lexeme.token = .fstring chars plain)
      (inside : Decodes (.body lexeme.start plain chars) body) : Decodes (.words scanner) body
  | text {position : Position} {chars text rest : List Char}
      (run : textRun false chars = .ok (text, rest)) :
      Decodes (.body position false chars) (Text.encode text)
  | value {position : Position} {plain : Bool} {chars text rest : List Char} {brace : Char}
      {texts : FieldTexts} {body : List UInt8}
      (run : textRun plain chars = .ok (text, brace :: rest))
      (split : fieldTexts rest = some texts)
      (inside : Decodes (.words (fieldScanner position texts.value)) body) :
      Decodes (.body position plain chars) body
  | spec {position : Position} {plain : Bool} {chars text rest spec : List Char} {brace : Char}
      {texts : FieldTexts} {body : List UInt8}
      (run : textRun plain chars = .ok (text, brace :: rest))
      (split : fieldTexts rest = some texts) (given : texts.spec = some spec)
      (inside : Decodes (.body position plain spec) body) :
      Decodes (.body position plain chars) body
  | after {position : Position} {plain : Bool} {chars text rest : List Char} {brace : Char}
      {texts : FieldTexts} {body : List UInt8}
      (run : textRun plain chars = .ok (text, brace :: rest))
      (split : fieldTexts rest = some texts)
      (inside : Decodes (.body position plain texts.after) body) :
      Decodes (.body position plain chars) body

theorem Reads.self {α : Type} {step : Except Complaint α} : Reads (step = .ok ·) step :=
  fun _ given => given

/-- A field is split into these texts, and its expression and its format are read. -/
def Splits (readValue : FieldReader) (readSpec : SpecReader) (chars after : List Char) : Prop :=
  ∃ texts, fieldTexts chars = some texts ∧ texts.after = after ∧
    (∃ value, readValue texts.value = .ok value) ∧
    ∀ spec, texts.spec = some spec → ∃ format, readSpec spec = .ok format

theorem formatText_of_specText {chars text after : List Char}
    (colon : (chars.head? == some ':') = true)
    (format : specText 0 (chars.drop 1) = some (text, after)) :
    formatText chars = some (some text, after) := by
  rw [formatText, if_pos colon, format]
  rfl

theorem splits_of_fieldText {readValue : FieldReader} {readSpec : SpecReader}
    {chars text rest after : List Char} {value : Expr} {spec : Option (List Char)}
    (found : fieldText 0 none none chars = some (text, rest)) (read : readValue text = .ok value)
    (format : formatText (afterConversion rest) = some (spec, after))
    (specRead : ∀ text, spec = some text → ∃ format, readSpec text = .ok format)
    (parts : List Expr) :
    Reads (fun result => Splits readValue readSpec chars result.2)
      (if after.head? != some '\x7d' then do
        throw .openField
        pure (parts, after.drop 1)
      else pure (parts, after.drop 1)) := by
  split
  case isTrue => exact .stop _
  case isFalse closes =>
    have closes : (after.head? == some '\x7d') = true := by simpa using closes
    refine .pure ⟨⟨text, spec, after.drop 1⟩, ?_, rfl, ⟨value, read⟩, specRead⟩
    simp only [fieldTexts, found, format, Option.bind_eq_bind, Option.bind_some, closes, if_true]

/-- Whichever conversion a field has, what is behind it is read on. -/
theorem conversion_reads {α : Type} {result : α → Prop} (rest : List Char)
    {further : List Char} {next : Option Conversion × List Char → Except Complaint α}
    (behind : afterConversion rest =
      if further.head? == some '!' then further.drop 2 else further)
    (given : ∀ conversion, Reads result (next (conversion, afterConversion rest))) :
    Reads result (if further.head? == some '!' then
        match conversion? (further.drop 1).head? with
        | some conversion => pure (some conversion, further.drop 2) >>= next
        | none => throw .badConversion >>= next
      else pure (none, further) >>= next) := by
  split
  case isTrue converts =>
    rw [if_pos converts] at behind
    split
    case h_1 conversion _ => exact .known (behind ▸ given (some conversion))
    case h_2 => exact .stop _
  case isFalse converts =>
    rw [if_neg converts] at behind
    exact .known (behind ▸ given none)

/-- A field that is read is split so, and its expression and its format are read. -/
theorem field_splits (position : Position) (readValue : FieldReader) (readSpec : SpecReader)
    (chars : List Char) :
    Reads (fun result => Splits readValue readSpec chars result.2)
      (field position readValue readSpec chars) := by
  unfold field
  split
  case h_2 => exact .throw _
  case h_1 text rest found =>
  refine .ite (.stop _) (Reads.self.bind fun value read => ?_)
  refine conversion_reads rest rfl fun conversion => ?_
  dsimp only
  split
  case isTrue colon =>
    split
    case h_1 text after format =>
      refine Reads.self.bind fun parts formatRead => .known ?_
      refine splits_of_fieldText found read (formatText_of_specText colon format) ?_ _
      rintro _ ⟨⟩
      exact ⟨parts, formatRead⟩
    case h_2 => exact .stop _
  case isFalse colon =>
    exact .known (splits_of_fieldText found read (if_neg colon) nofun _)

/-- A body that is read is a text, and behind it a field and the rest of the body, unless
it ends there. Each of them is read. -/
theorem parts_splits (position : Position) (plain nests : Bool) (readValue : FieldReader)
    (readSpec : SpecReader) (fuel : Nat) (chars : List Char) :
    Reads (fun _ => ∃ text rest, textRun plain chars = .ok (text, rest) ∧
        (∃ before, textPart position plain text = .ok before) ∧
        (rest = [] ∨ ∃ after more, Splits readValue readSpec (rest.drop 1) after ∧
          parts position plain nests readValue readSpec fuel after = .ok more))
      (parts position plain nests readValue readSpec (fuel + 1) chars) := by
  rw [parts]
  refine Reads.self.bind fun (text, rest) run => ?_
  dsimp only
  by_cases ends : rest.isEmpty = true
  · rw [if_pos ends]
    intro before given
    exact ⟨text, rest, run, ⟨before, given⟩, .inl (List.isEmpty_iff.mp ends)⟩
  · rw [if_neg ends]
    refine .ite (.stop _) (Reads.self.bind fun before textRead => ?_)
    refine (field_splits position readValue readSpec _).bind fun (here, after) split => ?_
    refine Reads.self.bind fun more moreRead => .pure ?_
    exact ⟨text, rest, run, ⟨before, textRead⟩, .inr ⟨after, more, split, moreRead⟩⟩

/-- The expression of a field is read from the words of its scanner. -/
theorem run_of_fieldValue {self : Productions} {position : Position} {text : List Char}
    {value : Expr} (given : fieldValue self position text = .ok value) :
    ∃ whole : Parser Expr, (Cursor.run whole (fieldScanner position text)).1 = .ok value := by
  unfold fieldValue at given
  extract_lets scanner placed whole at given
  split at given
  case h_1 found =>
    cases given
    exact ⟨whole, found⟩
  case h_2 => cases given

/-! ## Where the texts stand -/

theorem alike_cons (char : Char) {run text : List Char}
    (alike : Alike (Text.encode run) (Text.encode text)) :
    Alike (Text.encode (char :: run)) (Text.encode (char :: text)) := by
  rw [Text.encode_cons, Text.encode_cons]
  exact (Alike.refl _).append alike

/-- A brace may be doubled. -/
theorem alike_doubled {brace : Char} (gap : StringLiteral.isGap (ascii brace) = true)
    (small : brace.toNat < 0x80) {run text : List Char}
    (alike : Alike (Text.encode run) (Text.encode text)) :
    Alike (Text.encode (brace :: brace :: run)) (Text.encode (brace :: text)) := by
  have two : Alike [ascii brace, ascii brace] [ascii brace] :=
    .gap (by simpa using gap) (by simpa using gap) (List.cons_ne_nil _ _) (List.cons_ne_nil _ _)
  have spelt : String.utf8EncodeChar brace = [ascii brace] := Text.encodeChar_ascii small
  rw [Text.encode_cons, Text.encode_cons, Text.encode_cons, spelt]
  exact two.append alike

/-- A text stands in front of its body, up to doubled braces, and what follows it is a
field if it is anything. -/
theorem splits_of_textRun {plain : Bool} {chars text rest : List Char}
    (given : textRun plain chars = .ok (text, rest)) :
    ∃ run, chars = run ++ rest ∧ Alike (Text.encode run) (Text.encode text) ∧
      ∀ brace ∈ rest.head?, brace = '\x7b' := by
  fun_induction textRun plain chars generalizing text rest with
  | case1 chars induction =>
    obtain ⟨⟨text, rest⟩, read, same⟩ := StringLiteral.ok_of_bind given
    cases same
    obtain ⟨run, rfl, alike, field⟩ := induction read
    exact ⟨'\x7b' :: '\x7b' :: run, rfl, alike_doubled rfl (by decide) alike, field⟩
  | case2 chars induction =>
    obtain ⟨⟨text, rest⟩, read, same⟩ := StringLiteral.ok_of_bind given
    cases same
    obtain ⟨run, rfl, alike, field⟩ := induction read
    exact ⟨'\x7d' :: '\x7d' :: run, rfl, alike_doubled rfl (by decide) alike, field⟩
  | case3 => cases given
  | case4 chars =>
    cases given
    refine ⟨[], rfl, .refl _, ?_⟩
    rintro _ ⟨⟩
    rfl
  | case5 char chars isPlain induction =>
    obtain ⟨⟨text, rest⟩, read, same⟩ := StringLiteral.ok_of_bind given
    cases same
    obtain ⟨run, same, alike, field⟩ := induction read
    exact ⟨'\\' :: run, congrArg ('\\' :: ·) same, alike_cons '\\' alike, field⟩
  | case6 => cases given
  | case7 char chars _ _ induction =>
    obtain ⟨⟨text, rest⟩, read, same⟩ := StringLiteral.ok_of_bind given
    cases same
    obtain ⟨run, rfl, alike, field⟩ := induction read
    exact ⟨'\\' :: char :: run, rfl, alike_cons '\\' (alike_cons char alike), field⟩
  | case8 char chars _ _ _ _ _ induction =>
    obtain ⟨⟨text, rest⟩, read, same⟩ := StringLiteral.ok_of_bind given
    cases same
    obtain ⟨run, rfl, alike, field⟩ := induction read
    exact ⟨char :: run, rfl, alike_cons char alike, field⟩
  | case9 =>
    cases given
    exact ⟨[], rfl, .refl _, nofun⟩

/-- Characters in front of others, of which the first is one of some marks. -/
def StopsAt (marks : List Char) (chars text after : List Char) : Prop :=
  chars = text ++ after ∧ ∃ mark more, after = mark :: more ∧ mark ∈ marks

theorem StopsAt.here {marks : List Char} {mark : Char} {more text after : List Char}
    (given : some ([], mark :: more) = some (text, after)) (member : mark ∈ marks) :
    StopsAt marks (mark :: more) text after := by
  cases given
  exact ⟨rfl, mark, more, rfl, member⟩

theorem StopsAt.later {marks : List Char} (front : List Char) {chars text after : List Char}
    {found : Option (List Char × List Char)}
    (given : found.map (fun (text, after) => (front ++ text, after)) = some (text, after))
    (rest : ∀ {text after}, found = some (text, after) → StopsAt marks chars text after) :
    StopsAt marks (front ++ chars) text after := by
  obtain ⟨⟨text, after⟩, read, same⟩ := Option.map_eq_some_iff.mp given
  cases same
  obtain ⟨rfl, stops⟩ := rest read
  exact ⟨(List.append_assoc front text _).symm, stops⟩

theorem stops_of_fieldText {depth : Int} {quote previous : Option Char}
    {chars text after : List Char}
    (given : fieldText depth quote previous chars = some (text, after)) :
    StopsAt ['\x7d', '!', ':', '='] chars text after := by
  fun_induction fieldText depth quote previous chars generalizing text after with
  | case1 => cases given
  | case2 => cases given
  | case3 depth previous char mark _ escaped rest _ induction =>
    exact .later [char, escaped] given induction
  | case9 depth previous char rest _ _ _ closes =>
    exact .here given (by rw [beq_iff_eq.mp closes]; decide)
  | case11 depth previous char rest _ _ _ _ closes =>
    simp only [Bool.and_eq_true, beq_iff_eq] at closes
    exact .here given (by rw [closes.1.2]; decide)
  | case12 depth previous char rest _ _ _ _ _ closes =>
    simp only [Bool.and_eq_true, beq_iff_eq] at closes
    exact .here given (by rw [closes.2]; decide)
  | case13 depth previous char rest _ _ _ _ _ _ closes =>
    simp only [Bool.and_eq_true, beq_iff_eq] at closes
    exact .here given (by rw [closes.1.2]; decide)
  | case4 depth previous char rest | case5 depth previous char rest
  | case6 depth previous char rest | case7 depth previous char rest
  | case8 depth previous char rest | case10 depth previous char rest
  | case14 depth previous char rest =>
    rename_i induction
    exact .later [char] given fun read => induction _ _ read

theorem stops_of_specText {depth : Nat} {chars text after : List Char}
    (given : specText depth chars = some (text, after)) : StopsAt ['\x7d'] chars text after := by
  fun_induction specText depth chars generalizing text after with
  | case1 => cases given
  | case2 depth char rest closes =>
    simp only [Bool.and_eq_true, beq_iff_eq] at closes
    exact .here given (by rw [closes.1]; decide)
  | case3 depth char rest =>
    rename_i induction
    exact .later [char] given induction

theorem afterConversion_suffix (chars : List Char) : afterConversion chars <:+ chars := by
  have equals : (if chars.head? == some '=' then chars.drop 1 else chars) <:+ chars := by
    split
    · exact List.drop_suffix 1 chars
    · exact List.suffix_refl chars
  unfold afterConversion
  extract_lets rest
  split
  · exact (List.drop_suffix 2 rest).trans equals
  · exact equals

theorem splits_of_formatText {chars after : List Char} {spec : Option (List Char)}
    (given : formatText chars = some (spec, after)) :
    after <:+ chars ∧ ∀ text, spec = some text → chars = ':' :: (text ++ after) := by
  unfold formatText at given
  split at given
  case isTrue colon =>
    obtain ⟨rest, rfl⟩ := List.head?_eq_some_iff.mp (beq_iff_eq.mp colon)
    obtain ⟨⟨text, after⟩, read, same⟩ := Option.map_eq_some_iff.mp given
    cases same
    obtain ⟨rfl, -⟩ : StopsAt _ rest text after := stops_of_specText read
    refine ⟨(List.suffix_append text after).trans (List.suffix_cons _ _), ?_⟩
    rintro _ ⟨⟩
    rfl
  case isFalse =>
    cases given
    exact ⟨List.suffix_refl chars, nofun⟩

/-- The texts of a field stand in it one after the other: the expression before a mark,
the format between a colon and a brace, and the rest behind that brace. -/
theorem splits_of_fieldTexts {chars : List Char} {texts : FieldTexts}
    (given : fieldTexts chars = some texts) :
    ∃ middle, chars = texts.value ++ (middle ++ '\x7d' :: texts.after) ∧
      (∃ mark more, middle ++ '\x7d' :: texts.after = mark :: more ∧
        mark ∈ ['\x7d', '!', ':', '=']) ∧
      ∀ spec, texts.spec = some spec → ∃ front, middle = front ++ ':' :: spec := by
  obtain ⟨⟨value, rest⟩, found, given⟩ := Option.bind_eq_some_iff.mp given
  obtain ⟨⟨spec, after⟩, format, given⟩ := Option.bind_eq_some_iff.mp given
  dsimp only at given
  split at given
  case isFalse => cases given
  case isTrue closes =>
  cases given
  obtain ⟨tail, rfl⟩ := List.head?_eq_some_iff.mp (beq_iff_eq.mp closes)
  obtain ⟨rfl, stops⟩ := stops_of_fieldText found
  obtain ⟨suffix, colon⟩ := splits_of_formatText format
  obtain ⟨front, rfl⟩ := suffix.trans (afterConversion_suffix rest)
  refine ⟨front, rfl, stops, ?_⟩
  intro text isText
  obtain ⟨before, same⟩ := afterConversion_suffix (front ++ '\x7d' :: tail)
  rw [colon text isText] at same
  have whole : before ++ ':' :: text ++ '\x7d' :: tail = front ++ '\x7d' :: tail := by
    rw [← same, List.append_assoc]
    rfl
  exact ⟨before, (List.append_cancel_right whole).symm⟩

/-! ## What a passage holds -/

/-- An ASCII character that is no part of an escape. -/
def isMark (char : Char) : Bool :=
  char.toNat < 0x80 && StringLiteral.isGap (ascii char)

theorem encode_mark {mark : Char} (isMark : isMark mark = true) (chars : List Char) :
    Text.encode (mark :: chars) = ascii mark :: Text.encode chars := by
  have small : mark.toNat < 0x80 := of_decide_eq_true ((Bool.and_eq_true _ _).mp isMark).1
  rw [Text.encode_cons, Text.encodeChar_ascii small]
  rfl

theorem alike_marks {first second : Char} (one : isMark first = true) (two : isMark second = true) :
    Alike (Text.encode [first]) (Text.encode [second]) := by
  rw [encode_mark one, encode_mark two]
  have gaps : ∀ {char : Char}, isMark char = true → ∀ byte ∈ [ascii char],
      StringLiteral.isGap byte = true := by
    intro char mark byte member
    rw [List.mem_singleton.mp member]
    exact ((Bool.and_eq_true _ _).mp mark).2
  exact .gap (gaps one) (gaps two) (List.cons_ne_nil _ _) (List.cons_ne_nil _ _)

/-- Unifying line breaks changes the spelling of gaps only. -/
theorem alike_unifyBreaks (text : List Char) :
    Alike (Text.encode text) (Text.encode (unifyBreaks text)) := by
  fun_induction unifyBreaks text with
  | case1 => exact .refl _
  | case2 rest induction =>
    have feeds : Alike (Text.encode ['\r', '\n']) (Text.encode ['\n']) :=
      .gap (List.all_eq_true.mp rfl) (List.all_eq_true.mp rfl) (by decide) (by decide)
    exact feeds.append induction
  | case3 char rest _ induction =>
    have same : Alike (Text.encode [char]) (Text.encode [seen char]) := by
      unfold seen
      split
      case isTrue isReturn =>
        subst isReturn
        exact alike_marks rfl rfl
      case isFalse => exact .refl _
    have whole := same.append induction
    rwa [← Text.encode_append, ← Text.encode_append] at whole

/-- A passage holds a body: the text of a scanner does, or a body between any marks. -/
def Passage.Holds (body : List UInt8) : Passage → Prop
  | .words scanner => scanner.supply = none → StringLiteral.Holds (Text.encode scanner.rest) body
  | .body _ _ chars => ∀ opening closing, isMark opening = true → isMark closing = true →
    StringLiteral.Holds (Text.encode (opening :: (chars ++ [closing]))) body

/-- What a part between marks holds is held by the whole. -/
theorem holds_of_part {whole part : List Char} {first last : Char} {body : List UInt8}
    (front rest : List Char) (split : whole = front ++ first :: (part ++ last :: rest))
    (holds : StringLiteral.Holds (Text.encode (first :: (part ++ [last]))) body) :
    StringLiteral.Holds (Text.encode whole) body := by
  have parts : whole = front ++ ((first :: (part ++ [last])) ++ rest) := by simp [split]
  rw [parts, Text.encode_append, Text.encode_append]
  exact holds.within _ _

theorem isGap_of_isMark {mark : Char} (given : isMark mark = true) :
    StringLiteral.isGap (ascii mark) = true :=
  ((Bool.and_eq_true _ _).mp given).2

theorem isMark_of_isQuoteMark {mark : Char} (quote : Lexer.isQuoteMark mark = true) :
    isMark mark = true := by
  simp only [Lexer.isQuoteMark, Bool.or_eq_true, beq_iff_eq] at quote
  rcases quote with rfl | rfl <;> rfl

theorem isMark_of_mem {mark : Char} (member : mark ∈ ['\x7d', '!', ':', '=']) :
    isMark mark = true :=
  List.all_eq_true.mp (show ['\x7d', '!', ':', '='].all isMark = true from rfl) mark member

/-- The expression of a field is read as if in parentheses. -/
theorem alike_enclosed (value : List Char) {mark : Char} (given : isMark mark = true) :
    Alike (Text.encode ('\x7b' :: (value ++ [mark]))) (Text.encode ('(' :: value ++ [')'])) := by
  have opening : Alike (Text.encode ['\x7b']) (Text.encode ['(']) := alike_marks rfl rfl
  have closing : Alike (Text.encode [mark]) (Text.encode [')']) := alike_marks given rfl
  have whole := opening.append ((Alike.refl (Text.encode value)).append closing)
  rwa [← Text.encode_append, ← Text.encode_append, ← Text.encode_append] at whole

/-- Each body that is decoded is held by what is read. -/
theorem Decodes.holds {passage : Passage} {body : List UInt8} (decodes : Decodes passage body) :
    passage.Holds body := by
  induction decodes with
  | @string scanner lexeme value marks body member token marked escaped =>
    intro text
    obtain ⟨taken, ⟨rest, unified⟩, given⟩ := Stream.isIn_of_mem_ofScanner text member
    rw [Lexeme.IsTaken, token] at given
    obtain ⟨front, rfl⟩ := given
    refine .of_alike (alike_unifyBreaks scanner.rest) ?_
    rw [← unified, List.append_assoc, Text.encode_append, Text.encode_append]
    exact (StringLiteral.holds_of_markedBody marked).within _ _
  | @formatted scanner lexeme chars plain body member token inside holds =>
    intro text
    obtain ⟨taken, ⟨rest, unified⟩, given⟩ := Stream.isIn_of_mem_ofScanner text member
    rw [Lexeme.IsTaken, token] at given
    obtain ⟨front, quote, more, rfl, isQuote⟩ := given
    have mark := isMark_of_isQuoteMark isQuote
    refine .of_alike (alike_unifyBreaks scanner.rest) ?_
    exact holds_of_part front (more ++ rest) (by simp [← unified]) (holds quote quote mark mark)
  | @text position chars text rest run =>
    intro opening closing isOpening _
    obtain ⟨run, rfl, alike, -⟩ := splits_of_textRun run
    refine ⟨[], ascii opening, Text.encode (rest ++ [closing]), ?_, isGap_of_isMark isOpening, ?_⟩
    · rw [List.append_assoc, encode_mark isOpening, Text.encode_append]
      exact (alike.append (.refl _)).cons _
    · rw [Text.encode_append]
      exact fun empty => StringLiteral.encodeChar_ne_nil closing
        (by simpa [Text.encode_cons] using (List.append_eq_nil_iff.mp empty).2)
  | @value position plain chars text rest brace texts body reads split inside holds =>
    intro opening closing _ _
    obtain ⟨run, rfl, -, isBrace⟩ := splits_of_textRun reads
    obtain rfl := isBrace brace rfl
    obtain ⟨middle, rfl, ⟨mark, more, begins, member⟩, -⟩ := splits_of_fieldTexts split
    have enclosed := holds (supply_fieldScanner position texts.value)
    rw [rest_fieldScanner] at enclosed
    have part := enclosed.of_alike (alike_enclosed texts.value (isMark_of_mem member))
    exact holds_of_part (opening :: run) (more ++ [closing]) (by simp [begins]) part
  | @spec position plain chars text rest spec brace texts body reads split given inside holds =>
    intro opening closing _ _
    obtain ⟨run, rfl, -⟩ := splits_of_textRun reads
    obtain ⟨middle, rfl, -, colon⟩ := splits_of_fieldTexts split
    obtain ⟨front, rfl⟩ := colon spec given
    exact holds_of_part (opening :: (run ++ brace :: (texts.value ++ front)))
      (texts.after ++ [closing]) (by simp) (holds ':' '\x7d' rfl rfl)
  | @after position plain chars text rest brace texts body reads split inside holds =>
    intro opening closing _ isClosing
    obtain ⟨run, rfl, -⟩ := splits_of_textRun reads
    obtain ⟨middle, rfl, -⟩ := splits_of_fieldTexts split
    exact holds_of_part (opening :: (run ++ brace :: (texts.value ++ middle))) []
      (by simp) (holds '\x7d' closing rfl isClosing)

end Unsugar.Grammar

namespace Unsugar

open Grammar (Decodes)

/-- A module that is disabled is returned as it was read. -/
theorem desugar_of_isDisabled (options : Options) (file : String) {source : List UInt8}
    {body : List Stmt} (parsed : parseModule file (Text.decode source) = .ok body)
    (disabled : isDisabled source = true) (steps : List Step) :
    desugar options file source steps = (.ok ⟨body, [], true⟩, .disabled file :: steps) := by
  rw [desugar, parsed]
  dsimp only
  rw [Result.ofCheckedModule, Result.make, disabled]
  rfl

/-- No surrogate is lost unnoticed. If reading a module decodes the escapes of a body,
among them a code point escape for a surrogate, then the value of the body holds the
replacement character instead, the search of the source finds a surrogate, and the module
is returned as it was read. -/
theorem surrogate_escape_disables (options : Options) (file : String) {source : List UInt8}
    {body : List Stmt} (parsed : parseModule file (Text.decode source) = .ok body)
    {literal escape : List UInt8}
    (decodes : Decodes (.words (.ofText file (Text.decode source))) literal)
    (member : escape ∈ StringLiteral.escapes literal)
    (surrogate : StringLiteral.IsSurrogateEscape escape) :
    (∀ value, StringLiteral.unescape false false literal = .ok value →
      Text.encode [Text.replacement] <:+: value) ∧
    StringLiteral.hasSurrogateEscape source = true ∧
    ∀ steps, desugar options file source steps =
      (.ok ⟨body, [], true⟩, .disabled file :: steps) := by
  have held : StringLiteral.Holds (Text.encode (Text.decode source)) literal := decodes.holds rfl
  have found : StringLiteral.hasSurrogateEscape source = true :=
    (held.of_alike (StringLiteral.alike_decode source)).hasSurrogateEscape member surrogate
  have disabled : isDisabled source = true := by
    rw [isDisabled, found, Bool.or_true]
  exact ⟨fun value => StringLiteral.replacement_of_mem_escapes member surrogate, found,
    desugar_of_isDisabled options file parsed disabled⟩

/-- A surrogate in a string in a field of a formatted string. -/
theorem surrogate_escape_disables_field :
    let source := Text.toBytes "x = f'\x7b\"\\ud800\"\x7d'\n"
    let literal := Text.toBytes "\\ud800"
    let escape := Text.toBytes "ud800"
    ∃ body, parseModule "a.py" (Text.decode source) = .ok body ∧
      Decodes (.words (.ofText "a.py" (Text.decode source))) literal ∧
      escape ∈ StringLiteral.escapes literal ∧ StringLiteral.IsSurrogateEscape escape ∧
      (∀ value, StringLiteral.unescape false false literal = .ok value →
        Text.encode [Text.replacement] <:+: value) ∧
      StringLiteral.hasSurrogateEscape source = true ∧
      ∀ steps, desugar .standard "a.py" source steps =
        (.ok ⟨body, [], true⟩, .disabled "a.py" :: steps) := by
  intro source literal escape
  let field : List Char := ['"', '\\', 'u', 'd', '8', '0', '0', '"']
  have accepted : (parseModule "a.py" (Text.decode source)).isOk = true := by decide +kernel
  obtain ⟨body, parsed⟩ : ∃ body, parseModule "a.py" (Text.decode source) = .ok body := by
    revert accepted
    cases parseModule "a.py" (Text.decode source) with
    | error fault => exact nofun
    | ok body => exact fun _ => ⟨body, rfl⟩
  obtain ⟨outer, member, token, start⟩ : ∃ outer ∈
      (Stream.ofScanner (.ofText "a.py" (Text.decode source))).lexemes,
      outer.token = .fstring ('\x7b' :: (field ++ ['\x7d'])) false ∧
      outer.start = .at "a.py" 1 5 := by
    decide +kernel
  obtain ⟨inner, within, string, raw⟩ : ∃ inner ∈
      (Stream.ofScanner (Grammar.fieldScanner (.at "a.py" 1 5) field)).lexemes,
      inner.token = .string (String.ofList [Text.replacement]) ∧
      inner.raw = "\"\\ud800\"" := by
    decide +kernel
  have marked : StringLiteral.markedBody (Text.toBytes inner.raw) = .ok ({}, literal) := by
    rw [raw]
    rfl
  have run : Grammar.textRun false ('\x7b' :: (field ++ ['\x7d'])) =
      .ok ([], '\x7b' :: (field ++ ['\x7d'])) := rfl
  have split : Grammar.fieldTexts (field ++ ['\x7d']) = some ⟨field, none, []⟩ := rfl
  have inside : Decodes (.words (Grammar.fieldScanner outer.start field)) literal := by
    rw [start]
    exact .string within string marked rfl
  have decodes : Decodes (.words (.ofText "a.py" (Text.decode source))) literal :=
    .formatted member token (.value run split inside)
  have found : escape ∈ StringLiteral.escapes literal := by decide +kernel
  have surrogate : StringLiteral.IsSurrogateEscape escape := by
    have spelt : escape = StringLiteral.ascii 'u' :: ([0x64, 0x38, 0x30, 0x30] ++ []) := by decide
    have number : StringLiteral.hexNumber? [0x64, 0x38, 0x30, 0x30] = some 0xD800 := by decide
    exact spelt ▸ .intro (.inl ⟨rfl, rfl⟩) number (by decide) (by decide)
  exact ⟨body, parsed, decodes, found, surrogate,
    surrogate_escape_disables .standard "a.py" parsed decodes found surrogate⟩

end Unsugar
