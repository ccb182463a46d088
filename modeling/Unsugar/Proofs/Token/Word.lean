import Unsugar.Proofs.Token.Numeral
import Unsugar.Token.Lexer

/-! What a word takes. A name, a number, a string or a mark takes at least one character,
changes the count of open brackets by its own nesting, and leaves the blocks alone. -/

namespace Unsugar

namespace Token

/-- By how much a token changes the number of open brackets. -/
def nesting : Token → Int
  | .symbol mark =>
    if Lexer.isOpening mark then 1 else if Lexer.isClosing mark then -1 else 0
  | _ => 0

/-- Whether a token stands for characters of a line. -/
def isWord : Token → Bool
  | .endOfFile => false
  | .newline => false
  | .indent => false
  | .outdent => false
  | _ => true

theorem isWord_of_isNumber {token : Token} (number : token.isNumber = true) :
    token.isWord = true ∧ token.nesting = 0 := by
  cases token <;> first | exact ⟨rfl, rfl⟩ | cases number

end Token

namespace Lexer

open Scanner

/-- What reading a word leaves. -/
structure Word (before : Scanner) (lexeme : Lexeme) (after : Scanner) : Prop where
  file : after.file = before.file
  levels : after.levels = before.levels
  pending : after.pending = before.pending
  lineStart : after.lineStart = before.lineStart
  inText : after.InText
  shorter : after.size < before.size
  depth : (after.depth : Int) = before.depth + lexeme.token.nesting
  isWord : lexeme.token.isWord = true

theorem Word.of_reads {before after : Scanner} {lexeme : Lexeme} (placed : before.InText)
    (reads : Reads before after) (shorter : after.size < before.size)
    (isWord : lexeme.token.isWord = true) (flat : lexeme.token.nesting = 0) :
    Word before lexeme after where
  file := reads.file
  levels := reads.levels
  pending := reads.pending
  lineStart := reads.lineStart
  inText := reads.inText placed
  shorter := shorter
  depth := by rw [reads.depth, flat, Int.add_zero]
  isWord := isWord

/-- The place of a scanner within a text, as a place of complaints. -/
theorem isOfText_position {scanner : Scanner} (placed : scanner.InText) {complaint : Complaint}
    (isOfText : complaint.isOfText = true) :
    Fault.IsOfText scanner.file ⟨scanner.position, complaint⟩ :=
  ⟨⟨scanner.line, scanner.column, rfl, placed.line, placed.column⟩, isOfText⟩

/-! ## Strings -/

theorem isBreak_of_isQuoteMark {char : Char} (quote : isQuoteMark char = true) :
    isBreak char = false := by
  simp only [isQuoteMark, Bool.or_eq_true, beq_iff_eq] at quote
  rcases quote with rfl | rfl <;> rfl

theorem closesString_ends {quote : Char} (triple : Bool) (char : Char) {scanner : Scanner}
    {fails : Fault → Prop} (text : scanner.supply = none) (plain : isBreak quote = false) :
    Ends (closesString quote triple char) scanner (fun _ => Reads scanner) fails := by
  unfold closesString
  refine .ite (fun _ => .pure (Reads.refl scanner)) fun _ => ?_
  refine .ite (fun _ => .pure (Reads.refl scanner)) fun _ => ?_
  refine .bind (.peek text (.get (.ite (fun both => ?_) fun _ => .pure (Reads.refl scanner))))
  simp only [Bool.and_eq_true, beq_iff_eq] at both
  obtain ⟨front, second⟩ := both
  cases begins : scanner.rest with
  | nil =>
    rw [begins] at second
    cases second
  | cons first rest =>
    rw [begins, List.drop_succ_cons, List.drop_zero] at second
    obtain ⟨tail, rfl⟩ : ∃ tail, rest = quote :: tail := by
      cases rest with
      | nil => cases second
      | cons next tail =>
        cases second
        exact ⟨tail, rfl⟩
    have readFirst : isBreak first = false := by
      cases breaks : isBreak first with
      | false => rfl
      | true =>
        rw [Scanner.front, begins, List.headD_cons, seen_of_isBreak breaks] at front
        rw [← front] at plain
        cases plain
    refine .bind (.readPlain text begins readFirst ?_)
    have remains : (scanner.skip 1).rest = quote :: tail := by
      rw [skip, begins, List.drop_succ_cons, List.drop_zero]
    refine .bind (.readPlain text remains plain (.pure ?_))
    exact (reads_skip scanner 1).trans (reads_skip _ 1)

theorem stringBody_ends {start : Position} {quote : Char} {triple : Bool} {fails : Fault → Prop}
    (plain : isBreak quote = false) (opened : fails ⟨start, .openString⟩)
    (broken : fails ⟨start, .brokenString⟩) (fuel : Nat) :
    ∀ scanner : Scanner, scanner.supply = none → scanner.size < fuel →
      Ends (stringBody start quote triple fuel) scanner (fun _ => Reads scanner) fails := by
  induction fuel with
  | zero =>
    intro scanner _ short
    exact absurd short (Nat.not_lt_zero _)
  | succ fuel induction =>
    intro scanner text enough
    refine .bind (.atEnd text (.ite (fun _ => opened) fun some => ?_))
    refine .bind (.read text (by simpa using some) fun after reads size => ?_)
    have text := reads.supply.trans text
    refine (closesString_ends triple scanner.front text plain).after fun closed last more => ?_
    have reads := reads.trans more
    have enough : last.size < fuel := by
      have := more.size_le
      omega
    have text := more.supply.trans text
    have following : ∀ (build : List Char → List Char) (before : Scanner), Reads scanner before →
        before.supply = none → before.size < fuel →
        Ends (do return build (← stringBody start quote triple fuel)) before
          (fun _ => Reads scanner) fails := fun build before reads text enough =>
      (induction before text enough).after fun _ _ more => .pure (reads.trans more)
    refine .ite (fun _ => .pure reads) fun _ => .ite (fun _ => broken) fun _ => ?_
    refine .ite (fun _ => ?_) fun _ => following (scanner.front :: ·) last reads text enough
    refine .bind (.atEnd text (.ite (fun _ => opened) fun some => ?_))
    refine .bind (.read text (by simpa using some) fun next escaped size => ?_)
    exact following (scanner.front :: last.front :: ·) next (reads.trans escaped)
      (escaped.supply.trans text) (by omega)

/-- A lexeme that took characters and opened or closed no bracket. -/
structure Flat (before : Scanner) (lexeme : Lexeme) (after : Scanner) : Prop where
  reads : Reads before after
  shorter : after.size < before.size
  isWord : lexeme.token.isWord = true
  nesting : lexeme.token.nesting = 0

theorem Flat.word {before after : Scanner} {lexeme : Lexeme} (placed : before.InText)
    (flat : Flat before lexeme after) : Word before lexeme after :=
  .of_reads placed flat.reads flat.shorter flat.isWord flat.nesting

theorem stringWord_ends {start : Position} {marks quotes body : List Char} {scanner : Scanner}
    {fails : Fault → Prop}
    (allowed : ∀ complaint : Complaint, complaint.isOfText = true → fails ⟨start, complaint⟩) :
    Ends (stringWord start marks quotes body) scanner
      (fun lexeme after => after = scanner ∧ lexeme.token.isWord = true ∧ lexeme.token.nesting = 0)
      fails := by
  refine .ite (fun _ => .pure ⟨rfl, rfl, rfl⟩) fun _ => ?_
  split
  · exact allowed _ rfl
  · refine .pure ⟨rfl, ?_, ?_⟩ <;> dsimp only <;> split <;> rfl

theorem string_ends {start : Position} (marks : List Char) {fuel : Nat} {scanner : Scanner}
    {quote : Char} {rest : List Char} {fails : Fault → Prop} (text : scanner.supply = none)
    (begins : scanner.rest = quote :: rest) (isQuote : isQuoteMark quote = true)
    (enough : scanner.size ≤ fuel)
    (allowed : ∀ complaint : Complaint, complaint.isOfText = true → fails ⟨start, complaint⟩) :
    Ends (string start marks fuel) scanner (Flat scanner) fails := by
  have plain := isBreak_of_isQuoteMark isQuote
  have opened := size_skip_lt Nat.one_pos begins plain
  unfold string
  refine .bind (.readPlain text begins plain (.get ?_))
  have body : ∀ before, Reads (scanner.skip 1) before → ∀ triple quotes, Ends (do
      let body ← stringBody start quote triple fuel
      stringWord start marks quotes body) before (Flat scanner) fails := by
    intro before reads triple quotes
    have bound := reads.size_le
    refine (stringBody_ends plain (allowed _ rfl) (allowed _ rfl) fuel before
      (reads.supply.trans text) (by omega)).after fun body after more => ?_
    have whole := ((reads_skip scanner 1).trans reads).trans more
    have shorter : after.size < scanner.size := by
      have := more.size_le
      omega
    exact (stringWord_ends allowed).imp fun lexeme _ same =>
      ⟨same.1 ▸ whole, same.1 ▸ shorter, same.2.1, same.2.2⟩
  refine .ite (fun triple => ?_) fun _ => body _ (Reads.refl _) _ _
  refine .bind (.take ?_ (body _ (reads_skip _ 2) _ _))
  have two := congrArg List.length (beq_iff_eq.mp triple)
  rw [List.length_take] at two
  simp only [List.length_cons, List.length_nil] at two
  omega

/-! ## Names, numbers and marks -/

theorem isBreak_of_isDigit {char : Char} (digit : Numeral.isDigit char = true) :
    isBreak char = false := by
  cases breaks : isBreak char with
  | false => rfl
  | true => rcases (isBreak_iff char).mp breaks with rfl | rfl <;> cases digit

theorem isBreak_of_isNamePart {char : Char} (part : isNamePart char = true) :
    isBreak char = false := by
  cases breaks : isBreak char with
  | false => rfl
  | true =>
    rcases (isBreak_iff char).mp breaks with rfl | rfl <;> exact absurd part (by decide +kernel)

theorem number_ends {start : Position} {scanner : Scanner} {char : Char} {rest : List Char}
    (placed : scanner.InText) (begins : scanner.rest = char :: rest)
    (plain : isBreak char = false) (fits : Numeral.BeginsNumber scanner.rest) :
    Ends (number start) scanner (Flat scanner) (Fault.IsOfText scanner.file) := by
  refine .get ?_
  have room := Numeral.read_fits fits
  revert room
  cases Numeral.read scanner.rest with
  | ok reading =>
    rintro ⟨positive, enough, isNumber⟩
    obtain ⟨isWord, flat⟩ := Token.isWord_of_isNumber isNumber
    have shorter := size_skip_lt positive begins plain
    exact .bind (.take enough (.pure ⟨reads_skip scanner _, shorter, isWord, flat⟩))
  | error failure =>
    rintro ⟨enough, isOfText⟩
    refine .bind (.take enough ?_)
    exact isOfText_position ((reads_skip scanner _).inText placed) isOfText

theorem word_ends {start : Position} {scanner : Scanner} {char : Char} {rest : List Char}
    {fails : Fault → Prop} (text : scanner.supply = none) (begins : scanner.rest = char :: rest)
    (part : isNamePart char = true) :
    Ends (word start) scanner (Flat scanner) fails := by
  have plain := isBreak_of_isNamePart part
  refine .bind (.takeWhile text (.pure ⟨reads_skip scanner _, ?_, ?_, ?_⟩))
  · refine size_skip_lt ?_ begins plain
    simp [fitting, begins, seen_of_not_isBreak plain, part]
  · dsimp only
    split <;> rfl
  · dsimp only
    split <;> rfl

/-- Marks are spelt with characters of a line. -/
theorem isBreak_of_mem_mark (mark : Symbol) (member : mark ∈ marks) :
    mark.text.toList ≠ [] ∧ ∀ char ∈ mark.text.toList, isBreak char = false := by
  have all : marks.all (fun mark => !mark.text.toList.isEmpty &&
      mark.text.toList.all fun char => !isBreak char) = true := by
    decide +kernel
  have this := List.all_eq_true.mp all mark member
  simpa using this

theorem prefix_of_markAt? {chars : List Char} {mark : Symbol} (found : markAt? chars = some mark) :
    mark ∈ marks ∧ mark.text.toList <+: chars := by
  have holds : mark.text.toList.isPrefixOf chars = true :=
    List.find?_some (p := fun mark : Symbol => mark.text.toList.isPrefixOf chars) found
  exact ⟨List.mem_of_find?_eq_some found, List.isPrefixOf_iff_prefix.mp holds⟩

theorem punctuation_ends {start : Position} {scanner : Scanner} {char : Char}
    (placed : scanner.InText) :
    Ends (punctuation start char) scanner (Word scanner) (Fault.IsOfText scanner.file) := by
  refine .get ?_
  cases found : markAt? scanner.rest with
  | none => exact isOfText_position placed rfl
  | some mark =>
    obtain ⟨member, leads⟩ := prefix_of_markAt? found
    obtain ⟨some, plain⟩ := isBreak_of_mem_mark mark member
    refine .ite (fun _ => isOfText_position placed rfl) fun closes => ?_
    refine .bind (.take leads.length_le (.change (.pure ?_)))
    have moved := reads_skip scanner mark.text.length
    refine ⟨moved.file, moved.levels, moved.pending, moved.lineStart, ?_, ?_, ?_, rfl⟩
    · exact ⟨placed.supply, placed.line, (moved.inText placed).column⟩
    · obtain ⟨char, rest, begins, first⟩ : ∃ char rest, scanner.rest = char :: rest ∧
          isBreak char = false := by
        obtain ⟨rest, same⟩ := leads
        cases spelt : mark.text.toList with
        | nil => exact absurd spelt some
        | cons char more =>
          rw [spelt] at same plain
          exact ⟨char, more ++ rest, same.symm, plain char List.mem_cons_self⟩
      exact size_skip_lt (List.length_pos_iff.mpr some) begins first
    · have depth : (scanner.skip mark.text.length).depth = scanner.depth := rfl
      dsimp only [Token.nesting]
      rw [depth]
      split
      · omega
      · split
        · have : scanner.depth ≠ 0 := by simp_all
          omega
        · omega

theorem quote_of_marksBeforeQuote? {chars : List Char} {count : Nat}
    (found : marksBeforeQuote? chars = some count) :
    count ≤ 2 ∧ count ≤ chars.length ∧ ∃ quote rest, chars.drop count = quote :: rest ∧
      isQuoteMark quote = true := by
  unfold marksBeforeQuote? at found
  split at found
  case h_1 first second rest =>
    split at found
    case isTrue quote =>
      split at found
      case isTrue =>
        cases found
        exact ⟨by simp, by simp, second, rest, rfl, quote⟩
      case isFalse => cases found
    case isFalse =>
      split at found
      case h_1 third tail =>
        split at found
        case isTrue both =>
          cases found
          exact ⟨by simp, by simp, third, tail, rfl, (Bool.and_eq_true_iff.mp both).1⟩
        case isFalse => cases found
      case h_2 => cases found
  case h_2 => cases found

theorem beginsNumber_of_point {chars rest : List Char} {char : Char} {test : Bool}
    (begins : chars = char :: rest) (point : (char == '.' && test) = true) :
    Numeral.BeginsNumber chars := by
  rw [Bool.and_eq_true, beq_iff_eq] at point
  right
  rw [begins, point.1]
  rfl

/-- A word begins with a character of a line. -/
theorem wordAt_ends {scanner : Scanner} {fuel : Nat} (placed : scanner.InText)
    (more : scanner.front ≠ '\x00') (plain : isBreak scanner.front = false)
    (enough : scanner.size ≤ fuel) :
    Ends (wordAt scanner.front fuel) scanner (Word scanner) (Fault.IsOfText scanner.file) := by
  obtain ⟨rest, begins⟩ := rest_of_front_of_not_isBreak rfl more plain
  have allowed : ∀ complaint : Complaint, complaint.isOfText = true →
      Fault.IsOfText scanner.file ⟨scanner.position, complaint⟩ :=
    fun _ isOfText => isOfText_position placed isOfText
  have flat : ∀ lexeme after, Flat scanner lexeme after → Word scanner lexeme after :=
    fun _ _ => Flat.word placed
  refine .get (.ite (fun quote => ?_) fun _ => .ite (fun name => ?_) fun _ => ?_)
  · exact (string_ends [] placed.supply begins quote enough allowed).imp flat
  · split
    case h_1 count found =>
      obtain ⟨-, bound, quote, tail, follows, isQuote⟩ := quote_of_marksBeforeQuote? found
      have moved := reads_skip scanner count
      have placedAfter : (scanner.skip count).supply = none := placed.supply
      have taken := string_ends (scanner.rest.take count) placedAfter follows isQuote
        (Nat.le_trans moved.size_le enough) allowed
      refine .bind (.take bound (taken.imp fun lexeme after string => ?_))
      have shorter := Nat.lt_of_lt_of_le string.shorter moved.size_le
      exact flat _ _ ⟨moved.trans string.reads, shorter, string.isWord, string.nesting⟩
    case h_2 =>
      have part : isNamePart scanner.front = true := by simp [isNamePart, name]
      exact (word_ends placed.supply begins part).imp flat
  · refine .ite (fun digit => ?_) fun _ => .ite (fun point => ?_) fun _ => punctuation_ends placed
    · exact (number_ends placed begins plain (.inl ⟨_, _, begins, digit⟩)).imp flat
    · exact (number_ends placed begins plain (beginsNumber_of_point begins point)).imp flat

end Lexer
end Unsugar
