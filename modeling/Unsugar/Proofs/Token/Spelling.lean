import Unsugar.Proofs.Token.Literal
import Unsugar.Proofs.Token.Unified

/-! Where words stand. The characters that a reading takes are those in front of the
scanner, each line break as one line feed. A string or bytes word is spelt with the last
characters that were taken for it, and the body of a formatted string stands among them
between two quotes. -/

namespace Unsugar

/-- The spelling of a string or bytes word ends the characters that were taken for it,
and the body of a formatted string stands between quotes among them. -/
def Lexeme.IsTaken (lexeme : Lexeme) (taken : List Char) : Prop :=
  match lexeme.token with
  | .string _ => lexeme.raw.toList <:+ taken
  | .bytes _ => lexeme.raw.toList <:+ taken
  | .fstring body _ => ∃ front quote more,
      taken = front ++ quote :: (body ++ quote :: more) ∧ Lexer.isQuoteMark quote = true
  | _ => True

/-- Whether a token has a body between quotes. -/
def Token.isQuoted : Token → Bool
  | .string _ => true
  | .bytes _ => true
  | .fstring .. => true
  | _ => false

namespace Lexeme

theorem isTaken_of_not_isQuoted {lexeme : Lexeme} (plain : lexeme.token.isQuoted = false)
    (taken : List Char) : lexeme.IsTaken taken := by
  unfold IsTaken
  revert plain
  cases lexeme.token <;> first | exact fun _ => trivial | exact nofun

/-- More characters may come before those of a word. -/
theorem IsTaken.append {lexeme : Lexeme} {taken : List Char} (given : lexeme.IsTaken taken)
    (before : List Char) : lexeme.IsTaken (before ++ taken) := by
  unfold IsTaken at given ⊢
  revert given
  cases lexeme.token with
  | string value => exact fun suffix => suffix.trans (List.suffix_append _ _)
  | bytes value => exact fun suffix => suffix.trans (List.suffix_append _ _)
  | fstring body plain =>
    rintro ⟨front, quote, more, rfl, isQuote⟩
    exact ⟨before ++ front, quote, more, by rw [List.append_assoc], isQuote⟩
  | _ => exact fun _ => trivial

/-- A word stands in a text. -/
def IsIn (lexeme : Lexeme) (text : List Char) : Prop :=
  ∃ taken, taken <+: text ∧ lexeme.IsTaken taken

end Lexeme

theorem return_notMem_unifyBreaks (text : List Char) : '\r' ∉ unifyBreaks text := by
  fun_induction unifyBreaks text with
  | case1 => exact List.not_mem_nil
  | case2 rest induction => simpa using induction
  | case3 char rest _ induction =>
    exact List.not_mem_cons_of_ne_of_not_mem (seen_ne_return char).symm induction

namespace Scanner

/-- A scanner of a whole text in which each line break is one line feed. -/
structure IsUnified (scanner : Scanner) : Prop where
  supply : scanner.supply = none
  plain : '\r' ∉ scanner.rest

theorem IsUnified.front {scanner : Scanner} (unified : scanner.IsUnified)
    {char : Char} {rest : List Char} (begins : scanner.rest = char :: rest) :
    scanner.front = char := by
  have plain : char ≠ '\r' := by
    rintro rfl
    exact unified.plain (begins ▸ List.mem_cons_self)
  rw [Scanner.front, begins, List.headD_cons, seen, if_neg plain]

/-- The second scanner is the first one after some characters. -/
structure Took (before : Scanner) (taken : List Char) (after : Scanner) : Prop where
  supply : after.supply = none
  rest : before.rest = taken ++ after.rest

theorem Took.isUnified {before after : Scanner} {taken : List Char} (unified : before.IsUnified)
    (took : Took before taken after) : after.IsUnified where
  supply := took.supply
  plain member := unified.plain (took.rest ▸ List.mem_append_right taken member)

theorem Took.trans {before middle after : Scanner} {taken more : List Char}
    (first : Took before taken middle) (second : Took middle more after) :
    Took before (taken ++ more) after where
  supply := second.supply
  rest := by rw [first.rest, second.rest, List.append_assoc]

end Scanner

namespace Lexer

open Scanner

variable {α β : Type}

/-- What a reading gives from a scanner, if it gives anything, and the characters that
it takes for it. -/
def Takes (reading : Lexer α) (scanner : Scanner) (gives : α → List Char → Prop) : Prop :=
  Ends reading scanner (fun value after => ∃ taken, Took scanner taken after ∧ gives value taken)
    fun _ => True

namespace Takes

variable {scanner : Scanner} {gives : α → List Char → Prop} {result : β → List Char → Prop}

theorem pure {value : α} (unified : scanner.IsUnified) (holds : gives value []) :
    Takes (Pure.pure value : Lexer α) scanner gives :=
  Ends.pure ⟨[], ⟨unified.supply, rfl⟩, holds⟩

theorem bind {reading : Lexer α} {next : α → Lexer β} (unified : scanner.IsUnified)
    (first : Takes reading scanner gives)
    (rest : ∀ value taken after, Took scanner taken after → after.IsUnified → gives value taken →
      Takes (next value) after fun value more => result value (taken ++ more)) :
    Takes (reading >>= next) scanner result := by
  refine Ends.after first fun value after given => ?_
  obtain ⟨taken, took, holds⟩ := given
  refine (rest value taken after took (took.isUnified unified) holds).imp fun value last given => ?_
  obtain ⟨more, tookMore, holds⟩ := given
  exact ⟨taken ++ more, took.trans tookMore, holds⟩

theorem imp {stronger : α → List Char → Prop} {reading : Lexer α}
    (given : Takes reading scanner stronger)
    (implies : ∀ value taken, stronger value taken → gives value taken) :
    Takes reading scanner gives :=
  Ends.imp given fun value _ ⟨taken, took, holds⟩ => ⟨taken, took, implies value taken holds⟩

theorem get {next : Scanner → Lexer β} (rest : Takes (next scanner) scanner result) :
    Takes (MonadState.get >>= next) scanner result :=
  rest

theorem change {alter : Scanner → Scanner} {next : PUnit → Lexer β}
    (same : (alter scanner).rest = scanner.rest)
    (rest : Takes (next ⟨⟩) (alter scanner) result) :
    Takes (modify alter >>= next) scanner result :=
  Ends.change (Ends.imp rest fun _ _ ⟨taken, took, holds⟩ =>
    ⟨taken, ⟨took.supply, same ▸ took.rest⟩, holds⟩)

theorem move {changed : Scanner} {passed : List Char} {next : PUnit → Lexer β}
    (took : Took scanner passed changed)
    (rest : Takes (next ⟨⟩) changed fun value more => result value (passed ++ more)) :
    Takes (MonadStateOf.set changed >>= next) scanner result :=
  Ends.set (Ends.imp rest fun _ _ ⟨more, tookMore, holds⟩ =>
    ⟨passed ++ more, took.trans tookMore, holds⟩)

theorem set {changed : Scanner} {next : PUnit → Lexer β} (supply : changed.supply = none)
    (same : changed.rest = scanner.rest) (rest : Takes (next ⟨⟩) changed result) :
    Takes (MonadStateOf.set changed >>= next) scanner result :=
  have took : Took scanner [] changed := ⟨supply, same.symm⟩
  move took rest

theorem put {changed : Scanner} {gives : PUnit → List Char → Prop} (supply : changed.supply = none)
    (same : changed.rest = scanner.rest) (holds : gives ⟨⟩ []) :
    Takes (MonadStateOf.set changed) scanner gives :=
  Ends.put ⟨[], ⟨supply, same.symm⟩, holds⟩

theorem ite {condition : Prop} [Decidable condition] {first second : Lexer α}
    (whenTrue : condition → Takes first scanner gives)
    (whenFalse : ¬condition → Takes second scanner gives) :
    Takes (if condition then first else second) scanner gives :=
  Ends.ite whenTrue whenFalse

theorem peek {next : Char → Lexer β} (unified : scanner.IsUnified)
    (rest : Takes (next scanner.front) scanner result) :
    Takes (Lexer.peek >>= next) scanner result :=
  Ends.bind (.peek unified.supply rest)

theorem atEnd {next : Bool → Lexer β} (unified : scanner.IsUnified)
    (rest : Takes (next scanner.rest.isEmpty) scanner result) :
    Takes (Lexer.atEnd >>= next) scanner result :=
  Ends.bind (.atEnd unified.supply rest)

theorem read (unified : scanner.IsUnified) :
    Takes Lexer.read scanner fun char taken => taken = [char] := by
  refine Ends.bind (.fill unified.supply (.get ?_))
  rcases beginning scanner.rest with empty | ⟨rest, ends⟩ | ⟨char, rest, begins, plain⟩
  · rw [empty]
    exact trivial
  · have feed : scanner.rest = '\n' :: rest := by
      rcases eq_of_afterBreak? ends with same | ⟨same, -⟩ | same
      · exact absurd (same ▸ List.mem_cons_self) unified.plain
      · exact absurd (same ▸ List.mem_cons_self) unified.plain
      · exact same
    rw [ends]
    exact .set (.pure ⟨['\n'], ⟨unified.supply, feed⟩, rfl⟩)
  · rw [begins, afterBreak?_cons_of_not_isBreak plain]
    exact .set (.pure ⟨[char], ⟨unified.supply, begins⟩, rfl⟩)

theorem take (unified : scanner.IsUnified) (count : Nat) :
    Takes (Lexer.take count) scanner fun found taken =>
      found = scanner.rest.take count ∧ taken = found := by
  refine Ends.get (.ite (fun _ => trivial) fun _ => .set (.pure ⟨_, ?_, rfl, rfl⟩))
  exact ⟨unified.supply, (List.take_append_drop count scanner.rest).symm⟩

theorem takeWhile (unified : scanner.IsUnified) (fit : Char → Bool) :
    Takes (Lexer.takeWhile fit) scanner fun found taken => taken = found :=
  Ends.bind (.fill unified.supply (.get ((take unified _).imp fun _ _ => And.right)))

end Takes

/-! ## Strings -/

section Words

variable {scanner : Scanner}

/-- Of three quotes the first is read before. -/
theorem closesString_takes (unified : scanner.IsUnified) (quote char : Char) (triple : Bool) :
    Takes (closesString quote triple char) scanner fun closed taken =>
      (closed = true → char = quote) ∧
        taken = List.replicate (if closed && triple then 2 else 0) quote := by
  refine .ite (fun _ => .pure unified ⟨nofun, rfl⟩) fun isQuote => ?_
  have isQuote : char = quote := by simpa using isQuote
  refine .ite (fun single => .pure unified ⟨fun _ => isQuote, ?_⟩) fun three => ?_
  · have single : triple = false := by simpa using single
    rw [single]
    rfl
  have three : triple = true := by simpa using three
  refine .peek unified (.get (.ite (fun both => ?_) fun _ => .pure unified ⟨nofun, rfl⟩))
  obtain ⟨front, second⟩ := (Bool.and_eq_true _ _).mp both
  refine .bind unified (.read unified) fun one _ after took unifiedAfter same => ?_
  subst same
  have begins : scanner.rest = one :: after.rest := took.rest
  rw [begins, List.drop_succ_cons, List.drop_zero, beq_iff_eq] at second
  refine .bind unifiedAfter (.read unifiedAfter) fun two _ last more unifiedLast same => ?_
  subst same
  rw [more.rest, List.cons_append, List.head?_cons] at second
  refine .pure unifiedLast ⟨fun _ => isQuote, ?_⟩
  rw [three, ← beq_iff_eq.mp front, unified.front begins, Option.some.inj second,
    ← beq_iff_eq.mp front, unified.front begins]
  rfl

/-- The body of a string and its closing quotes are taken. -/
theorem stringBody_takes (start : Position) (quote : Char) (triple : Bool) (fuel : Nat) :
    ∀ {scanner : Scanner}, scanner.IsUnified →
      Takes (stringBody start quote triple fuel) scanner fun body taken =>
        taken = body ++ List.replicate (if triple then 3 else 1) quote := by
  induction fuel with
  | zero => exact fun _ => trivial
  | succ fuel induction =>
    intro scanner unified
    refine .atEnd unified (.ite (fun _ => trivial) fun _ => ?_)
    refine .bind unified (.read unified) fun char _ after took unified same => ?_
    subst same
    refine .bind unified (closesString_takes unified quote char triple)
      fun closed taken last _ unified given => ?_
    obtain ⟨isQuote, rfl⟩ := given
    refine .ite (fun closes => ?_) fun open_ => .ite (fun _ => trivial) fun _ => ?_
    · subst closes
      refine .pure unified ?_
      rw [isQuote rfl]
      cases triple <;> rfl
    have open_ : closed = false := by simpa using open_
    subst open_
    have further : ∀ (front : List Char) {scanner : Scanner}, scanner.IsUnified →
        Takes (do return front ++ (← stringBody start quote triple fuel)) scanner fun body taken =>
          front ++ taken = body ++ List.replicate (if triple then 3 else 1) quote := by
      intro front scanner unified
      refine .bind unified (induction unified) fun body taken _ _ unified same => ?_
      refine .pure unified ?_
      rw [same, List.append_nil, List.append_assoc]
    refine .ite (fun _ => .atEnd unified (.ite (fun _ => trivial) fun _ => ?_)) fun _ => ?_
    · refine .bind unified (.read unified) fun escaped _ _ _ unified same => ?_
      subst same
      exact further [char, escaped] unified
    · exact further [char] unified

theorem stringWord_takes (unified : scanner.IsUnified) (start : Position) {quote : Char}
    (isQuote : isQuoteMark quote = true) (marks body : List Char) (count : Nat) :
    let quotes := List.replicate (count + 1) quote
    Takes (stringWord start marks quotes body) scanner fun lexeme taken =>
      taken = [] ∧ lexeme.IsTaken (marks ++ quotes ++ body ++ quotes) := by
  intro quotes
  refine .ite (fun _ => .pure unified ⟨rfl, ?_⟩) fun _ => ?_
  · refine ⟨marks ++ List.replicate count quote, quote, List.replicate count quote, ?_, isQuote⟩
    have last : quotes = List.replicate count quote ++ [quote] := List.replicate_succ'
    have first : quotes = quote :: List.replicate count quote := rfl
    rw [show marks ++ quotes ++ body ++ quotes = marks ++ quotes ++ (body ++ quotes) from
      List.append_assoc _ _ _, first, ← first, last]
    simp
  · split
    case h_1 => exact trivial
    case h_2 reading _ =>
      refine .pure unified ⟨rfl, ?_⟩
      have spelt : (String.ofList (marks ++ quotes ++ body ++ quotes)).toList <:+
          marks ++ quotes ++ body ++ quotes :=
        ⟨[], by rw [String.toList_ofList, List.nil_append]⟩
      unfold Lexeme.IsTaken
      dsimp only
      cases reading.inBytes <;> exact spelt

theorem string_takes (unified : scanner.IsUnified) (start : Position) {quote : Char}
    {rest : List Char} (begins : scanner.rest = quote :: rest) (isQuote : isQuoteMark quote = true)
    (marks : List Char) (fuel : Nat) :
    Takes (string start marks fuel) scanner fun lexeme taken =>
      lexeme.IsTaken (marks ++ taken) := by
  refine .bind unified (.read unified) fun char _ after took unified same => .get ?_
  subst same
  obtain ⟨rfl, -⟩ := List.cons.inj (begins.symm.trans took.rest)
  have body : ∀ (triple : Bool) (opened : List Char) {scanner : Scanner}, scanner.IsUnified →
      quote :: opened = List.replicate (if triple then 3 else 1) quote →
      Takes (do
        let body ← stringBody start quote triple fuel
        stringWord start marks (List.replicate (if triple then 3 else 1) quote) body) scanner
        fun lexeme taken => lexeme.IsTaken (marks ++ (quote :: (opened ++ taken))) := by
    intro triple opened scanner unified same
    refine .bind unified (stringBody_takes start quote triple fuel unified)
      fun body taken _ _ unified closed => ?_
    subst closed
    obtain ⟨count, length⟩ : ∃ count, (if triple then 3 else 1) = count + 1 := by
      cases triple
      · exact ⟨0, rfl⟩
      · exact ⟨2, rfl⟩
    rw [length] at same ⊢
    refine (stringWord_takes unified start isQuote marks body count).imp fun lexeme more given => ?_
    obtain ⟨rfl, given⟩ := given
    rw [← same] at given ⊢
    simpa only [List.append_assoc, List.cons_append, List.append_nil] using given
  refine .ite (fun three => ?_) fun single => ?_
  · refine .bind unified (.take unified 2) fun found _ _ _ unified same => ?_
    obtain ⟨rfl, rfl⟩ := same
    rw [beq_iff_eq.mp three]
    exact body _ [quote, quote] unified (by rw [if_pos (beq_self_eq_true _)]; rfl)
  · exact body _ [] unified (by rw [if_neg single]; rfl)

/-! ## Words -/

theorem number_takes (unified : scanner.IsUnified) (start : Position)
    (begins : Numeral.BeginsNumber scanner.rest) :
    Takes (number start) scanner Lexeme.IsTaken := by
  refine .get ?_
  have fits := Numeral.read_fits begins
  revert fits
  cases Numeral.read scanner.rest with
  | ok reading =>
    rintro ⟨-, -, isNumber⟩
    refine .bind unified (.take unified _) fun _ _ _ _ unified _ => .pure unified ?_
    refine Lexeme.isTaken_of_not_isQuoted ?_ _
    revert isNumber
    cases reading.token <;> first | exact fun _ => rfl | exact nofun
  | error failure =>
    exact fun _ => .bind unified (.take unified _) fun _ _ _ _ _ _ => trivial

theorem word_takes (unified : scanner.IsUnified) (start : Position) :
    Takes (word start) scanner Lexeme.IsTaken := by
  refine .bind unified (.takeWhile unified _) fun _ _ _ _ unified _ => .pure unified ?_
  refine Lexeme.isTaken_of_not_isQuoted ?_ _
  dsimp only
  split <;> rfl

theorem punctuation_takes (unified : scanner.IsUnified) (start : Position) (char : Char) :
    Takes (punctuation start char) scanner Lexeme.IsTaken := by
  refine .get ?_
  split
  · exact trivial
  · refine .ite (fun _ => trivial) fun _ => ?_
    refine .bind unified (.take unified _) fun _ _ after _ unified _ => ?_
    refine .change rfl (.pure ⟨unified.supply, unified.plain⟩ ?_)
    exact Lexeme.isTaken_of_not_isQuoted rfl _

theorem wordAt_takes (unified : scanner.IsUnified) (fuel : Nat) (more : scanner.front ≠ '\x00')
    (plain : isBreak scanner.front = false) :
    Takes (wordAt scanner.front fuel) scanner Lexeme.IsTaken := by
  obtain ⟨rest, begins⟩ := rest_of_front_of_not_isBreak rfl more plain
  refine .get (.ite (fun isQuote => ?_) fun _ => .ite (fun _ => ?_) fun _ => ?_)
  · exact string_takes unified _ begins isQuote [] fuel
  · split
    case h_1 count found =>
      obtain ⟨-, -, quote, tail, follows, isQuote⟩ := quote_of_marksBeforeQuote? found
      refine .bind unified (.take unified count) fun marks _ after took unifiedAfter same => ?_
      obtain ⟨rfl, rfl⟩ := same
      have begins : after.rest = quote :: tail := by
        rw [← follows]
        have split := (List.take_append_drop count scanner.rest).trans took.rest
        exact (List.append_cancel_left split).symm
      exact string_takes unifiedAfter _ begins isQuote _ fuel
    case h_2 => exact word_takes unified _
  · refine .ite (fun digit => number_takes unified _ (.inl ⟨_, _, begins, digit⟩)) fun _ => ?_
    exact .ite (fun point => number_takes unified _ (beginsNumber_of_point begins point))
      fun _ => punctuation_takes unified _ _

theorem emptyWord_takes (unified : scanner.IsUnified) {token : Token} (raw : String)
    (plain : token.isQuoted = false) : Takes (emptyWord token raw) scanner Lexeme.IsTaken :=
  .get (.pure unified (Lexeme.isTaken_of_not_isQuoted plain _))

/-! ## Between words -/

theorem pendingWord_takes (unified : scanner.IsUnified) :
    Takes pendingWord scanner Lexeme.IsTaken := by
  have same : ∀ pending, ({ scanner with pending } : Scanner).IsUnified :=
    fun _ => ⟨unified.supply, unified.plain⟩
  refine .get (.ite (fun _ => .set unified.supply rfl ?_) fun _ => .set unified.supply rfl ?_)
  · exact emptyWord_takes (same _) "" rfl
  · exact emptyWord_takes (same _) "" rfl

theorem innermost_takes {α : Type} {next : Nat → Lexer α} {result : α → List Char → Prop}
    (rest : ∀ level, Takes (next level) scanner result) :
    Takes (innermost >>= next) scanner result := by
  refine Ends.bind (.get ?_)
  split
  case h_1 level _ _ => exact .pure (rest level)
  case h_2 => exact trivial

theorem align_takes (unified : scanner.IsUnified) (width : Nat) :
    Takes (align width) scanner fun _ _ => True := by
  have same : ∀ levels pending, ({ scanner with levels, pending } : Scanner).IsUnified :=
    fun _ _ => ⟨unified.supply, unified.plain⟩
  refine .get (innermost_takes fun current => .ite (fun _ => ?_) fun _ => ?_)
  · exact .put unified.supply rfl trivial
  · refine .ite (fun _ => Takes.set unified.supply rfl ?_) fun _ => .pure unified trivial
    exact innermost_takes fun _ => .ite (fun _ => trivial) fun _ => .pure (same _ _) trivial

theorem startLine_takes (unified : scanner.IsUnified) :
    Takes startLine scanner fun _ _ => True := by
  refine Ends.bind (.fill unified.supply (.get ?_))
  obtain ⟨count, measured, -⟩ := measure_skips 0 scanner.column scanner.rest
  have took : ∀ column, Took scanner (scanner.rest.take count) { scanner with
      column, rest := (measure 0 scanner.column scanner.rest).2.2, lineStart := false } := by
    intro column
    refine ⟨unified.supply, ?_⟩
    rw [measured]
    exact (List.take_append_drop count scanner.rest).symm
  refine Takes.move (took _) (.peek ((took _).isUnified unified) (.ite (fun _ => ?_) fun _ => ?_))
  · exact .bind ((took _).isUnified unified) (align_takes ((took _).isUnified unified) _)
      fun _ _ _ _ unified _ => .pure unified trivial
  · exact .pure ((took _).isUnified unified) trivial

theorem openLine_takes (unified : scanner.IsUnified) :
    Takes openLine scanner fun _ _ => True :=
  .get (.ite (fun _ => startLine_takes unified) fun _ => .pure unified trivial)

theorem skipBlanks_takes (unified : scanner.IsUnified) :
    Takes skipBlanks scanner fun _ _ => True := by
  refine .bind unified (.takeWhile unified _) fun _ _ _ _ unified _ => .peek unified ?_
  refine .ite (fun _ => ?_) fun _ => .pure unified trivial
  exact .bind unified (.takeWhile unified _) fun _ _ _ _ unified _ => .pure unified trivial

/-- What is taken before a word does not matter. -/
theorem Takes.pass {α : Type} {reading : Lexer α} {next : α → Lexer Lexeme}
    {gives : α → List Char → Prop} (unified : scanner.IsUnified)
    (first : Takes reading scanner gives)
    (rest : ∀ value after, after.IsUnified → Takes (next value) after Lexeme.IsTaken) :
    Takes (reading >>= next) scanner Lexeme.IsTaken :=
  .bind unified first fun value passed after _ unified _ =>
    (rest value after unified).imp fun _ _ given => given.append passed

/-- Each word is spelt with the last characters that are taken for it. -/
theorem next_takes (fuel : Nat) : ∀ {scanner : Scanner}, scanner.IsUnified →
    Takes (next fuel) scanner Lexeme.IsTaken := by
  induction fuel with
  | zero => exact fun _ => trivial
  | succ fuel induction =>
    intro scanner unified
    refine .get (.pass unified (openLine_takes unified) fun blank _ unified => .get ?_)
    refine .ite (fun _ => pendingWord_takes unified) fun _ => ?_
    refine .pass unified (skipBlanks_takes unified) fun _ scanner unified => .peek unified ?_
    have same : ∀ levels pending lineStart,
        ({ scanner with levels, pending, lineStart } : Scanner).IsUnified :=
      fun _ _ _ => ⟨unified.supply, unified.plain⟩
    refine .ite (fun _ => ?_) fun feed => .ite (fun _ => ?_) fun null =>
      .ite (fun _ => ?_) fun _ => ?_
    · have begun := same scanner.levels scanner.pending true
      refine .change rfl (.get (.ite (fun _ => ?_) fun _ => .ite (fun _ => ?_) fun _ => ?_))
      · exact .pass begun (.read begun) fun _ _ => induction
      · exact .change rfl (induction (same _ _ _))
      · refine .get (.pass begun (.read begun) fun _ _ unified => .pure unified ?_)
        exact Lexeme.isTaken_of_not_isQuoted rfl _
    · refine .get (.ite (fun _ => emptyWord_takes unified "" rfl) fun _ => ?_)
      refine .ite (fun _ => ?_) fun _ => ?_
      · exact .change rfl (induction (same _ _ _))
      · exact .change rfl (emptyWord_takes (same _ _ _) "\n" rfl)
    · refine .pass unified (.read unified) fun _ _ unified => .peek unified ?_
      refine .ite (fun _ => trivial) fun _ => ?_
      exact .pass unified (.read unified) fun _ _ => induction
    · exact wordAt_takes unified fuel (by simpa using null) (isBreak_front (by simpa using feed))

end Words

end Lexer

namespace Stream

open Scanner

theorem isIn_of_mem_read {fuel : Nat} (count : Nat) : ∀ {scanner : Scanner}, scanner.IsUnified →
    ∀ lexeme ∈ (read fuel count scanner).lexemes, lexeme.IsIn scanner.rest := by
  induction count with
  | zero =>
    intro scanner _ lexeme member
    cases member
  | succ count induction =>
    intro scanner unified lexeme member
    have takes := Lexer.next_takes fuel unified
    unfold Lexer.Takes Lexer.Ends at takes
    unfold read at member
    revert takes member
    cases Lexer.next fuel scanner with
    | error fault after =>
      intro _ member
      cases member
    | ok first after =>
      rintro ⟨taken, took, given⟩ member
      have here : first.IsIn scanner.rest := ⟨taken, ⟨_, took.rest.symm⟩, given⟩
      dsimp only at member
      split at member
      case isTrue =>
        obtain rfl := List.mem_singleton.mp member
        exact here
      case isFalse =>
        rcases List.mem_cons.mp member with rfl | later
        · exact here
        · obtain ⟨more, leads, given⟩ := induction (took.isUnified unified) lexeme later
          refine ⟨taken ++ more, ?_, given.append taken⟩
          rw [took.rest]
          exact (List.prefix_append_right_inj taken).mpr leads

/-- Each word of a text stands in it, each line break as one line feed. -/
theorem isIn_of_mem_ofScanner {scanner : Scanner} (text : scanner.supply = none) {lexeme : Lexeme}
    (member : lexeme ∈ (ofScanner scanner).lexemes) : lexeme.IsIn (unifyBreaks scanner.rest) := by
  rw [← lexemes_map Scanner.unified, ← ofScanner_unified] at member
  have unified : scanner.unified.IsUnified := by
    exact ⟨by rw [Scanner.unified, text]; rfl, return_notMem_unifyBreaks scanner.rest⟩
  exact isIn_of_mem_read _ unified lexeme member

end Stream
end Unsugar
