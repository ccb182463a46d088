import Unsugar.Proofs.Token.Call

/-! The kinds of line breaks. A scanner of a text goes on in step with the scanner of the
same text in which each line break is one line feed: each reading gives the same value at
the same place, and leaves scanners that are in step again. -/

namespace Unsugar

/-! ## Unified texts -/

theorem unifyBreaks_cons_of_ne {char : Char} (other : char ≠ '\r') (rest : List Char) :
    unifyBreaks (char :: rest) = seen char :: unifyBreaks rest := by
  rw [unifyBreaks]
  rintro _ rfl
  exact absurd rfl other

theorem seen_ne_return (char : Char) : seen char ≠ '\r' := by
  unfold seen
  split
  case isTrue => decide
  case isFalse other => exact other

@[simp] theorem unifyBreaks_unifyBreaks (text : List Char) :
    unifyBreaks (unifyBreaks text) = unifyBreaks text := by
  fun_induction unifyBreaks text with
  | case1 => rfl
  | case2 rest induction => rw [unifyBreaks_of_afterBreak? rfl, induction]
  | case3 char rest _ induction =>
    rw [unifyBreaks_cons_of_ne (seen_ne_return char), seen_seen, induction]

theorem head?_unifyBreaks (text : List Char) : (unifyBreaks text).head? = text.head?.map seen := by
  unfold unifyBreaks
  split <;> rfl

theorem seen_headD_unifyBreaks (text : List Char) :
    seen ((unifyBreaks text).headD '\x00') = seen (text.headD '\x00') := by
  rw [List.headD_eq_head?_getD, List.headD_eq_head?_getD, head?_unifyBreaks]
  cases text with
  | nil => rfl
  | cons char rest => exact seen_seen char

@[simp] theorem isEmpty_unifyBreaks (text : List Char) :
    (unifyBreaks text).isEmpty = text.isEmpty := by
  unfold unifyBreaks
  split <;> rfl

theorem afterBreak?_unifyBreaks (text : List Char) :
    afterBreak? (unifyBreaks text) = (afterBreak? text).map unifyBreaks := by
  rcases beginning text with rfl | ⟨rest, ends⟩ | ⟨char, rest, rfl, plain⟩
  · rfl
  · rw [unifyBreaks_of_afterBreak? ends, ends]
    rfl
  · rw [unifyBreaks_cons_of_not_isBreak plain, afterBreak?_cons_of_not_isBreak plain,
      afterBreak?_cons_of_not_isBreak plain]
    rfl

theorem endsLine_unifyBreaks {rest : List Char} (ends : EndsLine rest) :
    EndsLine (unifyBreaks rest) := by
  intro char found
  rw [head?_unifyBreaks] at found
  cases rest with
  | nil => cases found
  | cons first rest =>
    cases found
    rw [seen_of_isBreak (ends first rfl)]
    rfl

/-- Characters of a line stand at the front of a text, whatever its line breaks. -/
theorem prefix_unifyBreaks_iff {line : List Char} (plain : ∀ char ∈ line, isBreak char = false)
    (text : List Char) : line <+: unifyBreaks text ↔ line <+: text := by
  induction line generalizing text with
  | nil => exact iff_of_true List.nil_prefix List.nil_prefix
  | cons char line induction =>
    obtain ⟨first, others⟩ := List.forall_mem_cons.mp plain
    rcases beginning text with rfl | ⟨rest, ends⟩ | ⟨next, rest, rfl, same⟩
    · rfl
    · have other : char ≠ '\n' := by
        rintro rfl
        cases first
      rw [unifyBreaks_of_afterBreak? ends]
      refine iff_of_false (fun leads => other (List.cons_prefix_cons.mp leads).1) fun leads => ?_
      obtain ⟨more, spelt⟩ := leads
      rw [← spelt, List.cons_append, afterBreak?_cons_of_not_isBreak first] at ends
      cases ends
    · rw [unifyBreaks_cons_of_not_isBreak same, List.cons_prefix_cons, List.cons_prefix_cons,
        induction others]

namespace Scanner

/-- The scanner of the same text with each line break as one line feed. -/
def unified (scanner : Scanner) : Scanner :=
  { scanner with
    rest := unifyBreaks scanner.rest
    supply := scanner.supply.map fun lines => lines.map unifyBreaks }

theorem size_unified (scanner : Scanner) : scanner.unified.size = scanner.size := by
  unfold size unified
  cases scanner.supply with
  | none => simp
  | some lines => simp [Function.comp_def]

theorem front_unified (scanner : Scanner) : scanner.unified.front = scanner.front :=
  seen_headD_unifyBreaks scanner.rest

/-- The characters at the front of both scanners are the same as far as the line goes. -/
theorem rest_unified_of_line {scanner : Scanner} {line rest : List Char}
    (plain : ∀ char ∈ line, isBreak char = false) (begins : scanner.rest = line ++ rest) :
    scanner.unified.rest = line ++ unifyBreaks rest := by
  rw [unified, begins, unifyBreaks_append_of_not_isBreak plain]

end Scanner

namespace Lexer

open Scanner

variable {α β : Type}

/-- The second reading does with the unified scanner what the first one does with the
scanner itself, and what the first one leaves has a property. -/
def InStep (first second : Lexer α) (scanner : Scanner) (gives : α → Scanner → Prop) : Prop :=
  match first scanner with
  | .ok value after => second scanner.unified = .ok value after.unified ∧ gives value after
  | .error fault after => second scanner.unified = .error fault after.unified

namespace InStep

variable {scanner : Scanner} {gives : α → Scanner → Prop} {result : β → Scanner → Prop}

theorem pure {value : α} (holds : gives value scanner) :
    InStep (Pure.pure value : Lexer α) (Pure.pure value) scanner gives :=
  ⟨rfl, holds⟩

theorem bind {first second : Lexer α} {next other : α → Lexer β}
    (before : InStep first second scanner fun value after =>
      InStep (next value) (other value) after result) :
    InStep (first >>= next) (second >>= other) scanner result := by
  unfold InStep at before ⊢
  change match EStateM.bind first next scanner with
    | .ok value after => EStateM.bind second other scanner.unified = .ok value after.unified ∧
      result value after
    | .error fault after => EStateM.bind second other scanner.unified = .error fault after.unified
  unfold EStateM.bind
  revert before
  cases first scanner with
  | ok value after =>
    rintro ⟨same, rest⟩
    rw [same]
    exact rest
  | error fault after =>
    intro same
    rw [same]

theorem imp {stronger : α → Scanner → Prop} {first second : Lexer α}
    (given : InStep first second scanner stronger)
    (implies : ∀ value after, stronger value after → gives value after) :
    InStep first second scanner gives := by
  unfold InStep at given ⊢
  revert given
  cases first scanner with
  | ok value after => exact And.imp_right (implies value after)
  | error fault after => exact id

/-- What the readings give is known, and what comes after them decides. -/
theorem after {known : α → Scanner → Prop} {first second : Lexer α} {next other : α → Lexer β}
    (given : InStep first second scanner known)
    (rest : ∀ value after, known value after → InStep (next value) (other value) after result) :
    InStep (first >>= next) (second >>= other) scanner result :=
  bind (given.imp rest)

theorem get {next other : Scanner → Lexer β}
    (rest : InStep (next scanner) (other scanner.unified) scanner result) :
    InStep (MonadState.get >>= next) (MonadState.get >>= other) scanner result :=
  rest

theorem set {changed unified : Scanner} {next other : PUnit → Lexer β}
    (same : unified = changed.unified) (rest : InStep (next ⟨⟩) (other ⟨⟩) changed result) :
    InStep (MonadStateOf.set changed >>= next) (MonadStateOf.set unified >>= other) scanner
      result := by
  subst same
  exact rest

theorem put {changed unified : Scanner} {gives : PUnit → Scanner → Prop}
    (same : unified = changed.unified) (holds : gives ⟨⟩ changed) :
    InStep (MonadStateOf.set changed) (MonadStateOf.set unified) scanner gives := by
  subst same
  exact ⟨rfl, holds⟩

theorem change {alter : Scanner → Scanner} {next other : PUnit → Lexer β}
    (same : alter scanner.unified = (alter scanner).unified)
    (rest : InStep (next ⟨⟩) (other ⟨⟩) (alter scanner) result) :
    InStep (modify alter >>= next) (modify alter >>= other) scanner result := by
  change match next ⟨⟩ (alter scanner) with
    | .ok value after => other ⟨⟩ (alter scanner.unified) = .ok value after.unified ∧
      result value after
    | .error fault after => other ⟨⟩ (alter scanner.unified) = .error fault after.unified
  rw [same]
  exact rest

theorem ite {condition : Prop} [Decidable condition] {first second third fourth : Lexer α}
    (whenTrue : condition → InStep first third scanner gives)
    (whenFalse : ¬condition → InStep second fourth scanner gives) :
    InStep (if condition then first else second) (if condition then third else fourth) scanner
      gives := by
  split
  case isTrue holds => exact whenTrue holds
  case isFalse fails => exact whenFalse fails

theorem complain (complaint : Complaint) :
    InStep (Lexer.complain complaint : Lexer α) (Lexer.complain complaint) scanner gives :=
  rfl

theorem complainAt (position : Position) (complaint : Complaint) :
    InStep (Lexer.complainAt position complaint : Lexer α) (Lexer.complainAt position complaint)
      scanner gives :=
  rfl

/-! ## Reading characters -/

theorem fill : InStep Lexer.fill Lexer.fill scanner fun _ _ => True := by
  refine .get ?_
  rw [show scanner.unified.rest.isEmpty = scanner.rest.isEmpty from isEmpty_unifyBreaks _]
  refine .ite (fun _ => ?_) fun _ => .pure trivial
  change InStep _ (match scanner.supply.map fun lines => lines.map unifyBreaks with
    | none => _
    | some [] => _
    | some (line :: lines) => _) scanner _
  cases scanner.supply with
  | none => exact .pure trivial
  | some lines =>
    cases lines with
    | nil => exact .complain _
    | cons line lines => exact .put rfl trivial

theorem peek : InStep Lexer.peek Lexer.peek scanner fun char after => char = after.front :=
  fill.after fun _ after _ => .get (by
    rw [front_unified]
    exact .pure rfl)

theorem atEnd : InStep Lexer.atEnd Lexer.atEnd scanner fun _ _ => True :=
  fill.after fun _ after _ => .get (by
    rw [show after.unified.rest.isEmpty = after.rest.isEmpty from isEmpty_unifyBreaks _]
    exact .pure trivial)

theorem read : InStep Lexer.read Lexer.read scanner fun _ _ => True := by
  refine fill.after fun _ scanner _ => .get ?_
  rw [show afterBreak? scanner.unified.rest = _ from afterBreak?_unifyBreaks _]
  rcases beginning scanner.rest with empty | ⟨rest, ends⟩ | ⟨char, rest, begins, plain⟩
  · rw [empty, show scanner.unified.rest = _ from congrArg unifyBreaks empty]
    exact .complain _
  · rw [ends]
    exact .set rfl (.pure trivial)
  · rw [begins, afterBreak?_cons_of_not_isBreak plain,
      show scanner.unified.rest = _ from congrArg unifyBreaks begins,
      unifyBreaks_cons_of_not_isBreak plain]
    exact .set rfl (.pure trivial)

/-- A character of a line is read as it is. -/
theorem readPlain {char : Char} {rest : List Char} (begins : scanner.rest = char :: rest)
    (plain : isBreak char = false) :
    InStep Lexer.read Lexer.read scanner fun found after => found = char ∧ after.rest = rest := by
  have filled : InStep Lexer.fill Lexer.fill scanner fun _ after => after = scanner := by
    refine .get ?_
    rw [show scanner.unified.rest.isEmpty = scanner.rest.isEmpty from isEmpty_unifyBreaks _, begins]
    exact .pure rfl
  refine filled.after fun _ after same => .get ?_
  subst same
  rw [begins, afterBreak?_cons_of_not_isBreak plain,
    show after.unified.rest = _ from congrArg unifyBreaks begins,
    unifyBreaks_cons_of_not_isBreak plain, afterBreak?_cons_of_not_isBreak plain]
  exact .set rfl (.pure ⟨rfl, rfl⟩)

/-- Characters of a line are taken as they are. -/
theorem take {line rest : List Char} (begins : scanner.rest = line ++ rest)
    (plain : ∀ char ∈ line, isBreak char = false) :
    InStep (Lexer.take line.length) (Lexer.take line.length) scanner
      fun taken after => taken = line ∧ after.rest = rest := by
  refine .get ?_
  rw [begins, rest_unified_of_line plain begins, List.take_left, List.take_left,
    List.drop_left, List.drop_left]
  refine .ite (fun _ => .complain _) fun _ => .set rfl (.pure ⟨rfl, rfl⟩)

theorem takeWhile {fit : Char → Bool} (unfit : fit '\n' = false) :
    InStep (Lexer.takeWhile fit) (Lexer.takeWhile fit) scanner fun _ _ => True := by
  refine fill.after fun _ scanner _ => .get ?_
  obtain ⟨line, rest, begins, plain, ends⟩ := exists_line scanner.rest
  have rejects : rejectsBreaks (fun char => fit (seen char)) = true := by
    simp [rejectsBreaks, seen, unfit]
  rw [rest_unified_of_line plain begins, begins,
    takeWhile_append_of_endsLine rejects line ends,
    takeWhile_append_of_endsLine rejects line (endsLine_unifyBreaks ends)]
  have whole : scanner.rest = line.takeWhile (fun char => fit (seen char)) ++
      (line.dropWhile (fun char => fit (seen char)) ++ rest) := by
    rw [← List.append_assoc, List.takeWhile_append_dropWhile, begins]
  refine (take whole fun char member => ?_).imp fun _ _ _ => trivial
  exact plain char ((List.takeWhile_prefix _).subset member)

end InStep

/-! ## Indentation -/

theorem measure_unifyBreaks (width column : Nat) (chars : List Char) :
    measure width column (unifyBreaks chars) =
      ((measure width column chars).1, (measure width column chars).2.1,
        unifyBreaks (measure width column chars).2.2) := by
  fun_induction measure width column chars with
  | case1 width column rest induction =>
    rw [unifyBreaks_cons_of_not_isBreak rfl, measure, induction]
  | case2 width column rest induction =>
    rw [unifyBreaks_cons_of_not_isBreak rfl, measure, induction]
  | case3 width column rest induction =>
    rw [unifyBreaks_cons_of_not_isBreak rfl, measure, induction]
  | case4 width column rest space tab feed =>
    have none : ∀ char, isBreak char = false → (∀ tail, rest = char :: tail → False) →
        ∀ tail, unifyBreaks rest = char :: tail → False := by
      intro char plain other tail same
      have leads : [char] <+: unifyBreaks rest := ⟨tail, same.symm⟩
      obtain ⟨more, begins⟩ := (prefix_unifyBreaks_iff (by simpa using plain) rest).mp leads
      exact other more begins.symm
    exact measure.eq_4 width column _ (none ' ' rfl space) (none '\t' rfl tab)
      (none '\x0c' rfl feed)

theorem innermost_inStep (scanner : Scanner) :
    InStep innermost innermost scanner fun _ _ => True := by
  have same : scanner.unified.levels = scanner.levels := rfl
  refine .get ?_
  rw [same]
  cases scanner.levels with
  | nil => exact .complain _
  | cons level outer => exact .pure trivial

theorem align_inStep (width : Nat) (scanner : Scanner) :
    InStep (align width) (align width) scanner fun _ _ => True := by
  refine .get ((innermost_inStep scanner).after fun current after _ => ?_)
  refine .ite (fun _ => .put rfl trivial) fun _ =>
    .ite (fun _ => .set rfl ?_) fun _ => .pure trivial
  exact (innermost_inStep _).after fun _ _ _ => .ite (fun _ => .complain _) fun _ => .pure trivial

theorem startLine_inStep (scanner : Scanner) :
    InStep startLine startLine scanner fun _ _ => True := by
  refine InStep.fill.after fun _ scanner _ => .get ?_
  rw [show measure 0 scanner.unified.column scanner.unified.rest = _ from
    measure_unifyBreaks 0 scanner.column scanner.rest]
  refine .set rfl (InStep.peek.after fun char after _ => ?_)
  refine .ite (fun _ => ?_) fun _ => .pure trivial
  exact (align_inStep _ _).after fun _ _ _ => .pure trivial

theorem openLine_inStep (scanner : Scanner) :
    InStep openLine openLine scanner fun _ _ => True :=
  .get (.ite (fun _ => startLine_inStep scanner) fun _ => .pure trivial)

theorem pendingWord_inStep (scanner : Scanner) :
    InStep pendingWord pendingWord scanner fun _ _ => True :=
  .get (.ite (fun _ => .set rfl (.get (.pure trivial))) fun _ => .set rfl (.get (.pure trivial)))

theorem skipBlanks_inStep (scanner : Scanner) :
    InStep skipBlanks skipBlanks scanner fun _ _ => True := by
  refine (InStep.takeWhile rfl).after fun _ _ _ => InStep.peek.after fun _ _ _ => ?_
  refine .ite (fun _ => ?_) fun _ => .pure trivial
  exact (InStep.takeWhile rfl).after fun _ _ _ => .pure trivial

/-! ## Words -/

theorem head?_unifyBreaks_beq {char : Char} (plain : isBreak char = false) (text : List Char) :
    ((unifyBreaks text).head? == some char) = (text.head? == some char) := by
  obtain ⟨line, rest, rfl, inLine, ends⟩ := exists_line text
  rw [unifyBreaks_append_of_not_isBreak inLine, head?_append_beq_of_endsLine plain line ends,
    head?_append_beq_of_endsLine plain line (endsLine_unifyBreaks ends)]

theorem closesString_inStep {quote : Char} (isQuote : isQuoteMark quote = true) (triple : Bool)
    (char : Char) (scanner : Scanner) :
    InStep (closesString quote triple char) (closesString quote triple char) scanner
      fun _ _ => True := by
  have plain := isBreak_of_isQuoteMark isQuote
  refine .ite (fun _ => .pure trivial) fun _ => .ite (fun _ => .pure trivial) fun _ => ?_
  refine InStep.peek.after fun front after same => .get ?_
  have second : (front == quote && (after.unified.rest.drop 1).head? == some quote) =
      (front == quote && (after.rest.drop 1).head? == some quote) := by
    cases matched : front == quote with
    | false => rfl
    | true =>
      have more : quote ≠ '\x00' := by
        rintro rfl
        cases isQuote
      have same : after.front = quote := same.symm.trans (beq_iff_eq.mp matched)
      obtain ⟨rest, begins⟩ := rest_of_front_of_not_isBreak same more plain
      rw [show after.unified.rest = _ from congrArg unifyBreaks begins, begins,
        unifyBreaks_cons_of_not_isBreak plain]
      exact head?_unifyBreaks_beq plain rest
  rw [second]
  refine .ite (fun _ => ?_) fun _ => .pure trivial
  exact InStep.read.after fun _ _ _ => InStep.read.after fun _ _ _ => .pure trivial

theorem stringBody_inStep {quote : Char} (isQuote : isQuoteMark quote = true) (start : Position)
    (triple : Bool) (fuel : Nat) : ∀ scanner,
    InStep (stringBody start quote triple fuel) (stringBody start quote triple fuel) scanner
      fun _ _ => True := by
  induction fuel with
  | zero => exact fun _ => .complain _
  | succ fuel induction =>
    intro scanner
    have further : ∀ (build : List Char → List Char) (scanner : Scanner),
        InStep (do return build (← stringBody start quote triple fuel))
          (do return build (← stringBody start quote triple fuel)) scanner fun _ _ => True :=
      fun _ scanner => (induction scanner).after fun _ _ _ => .pure trivial
    refine InStep.atEnd.after fun _ _ _ => .ite (fun _ => .complainAt _ _) fun _ => ?_
    refine InStep.read.after fun char _ _ => ?_
    refine (closesString_inStep isQuote triple char _).after fun closes scanner _ => ?_
    refine .ite (fun _ => .pure trivial) fun _ => .ite (fun _ => .complainAt _ _) fun _ => ?_
    refine .ite (fun _ => ?_) fun _ => further (char :: ·) scanner
    refine InStep.atEnd.after fun _ _ _ => .ite (fun _ => .complainAt _ _) fun _ => ?_
    exact InStep.read.after fun escaped scanner _ => further (char :: escaped :: ·) scanner

theorem stringWord_inStep (start : Position) (marks quotes body : List Char) (scanner : Scanner) :
    InStep (stringWord start marks quotes body) (stringWord start marks quotes body) scanner
      fun _ _ => True := by
  refine .ite (fun _ => .pure trivial) fun _ => ?_
  split
  · exact .complainAt _ _
  · exact .pure trivial

theorem string_inStep (start : Position) (marks : List Char) (fuel : Nat) {scanner : Scanner}
    {quote : Char} {rest : List Char} (begins : scanner.rest = quote :: rest)
    (isQuote : isQuoteMark quote = true) :
    InStep (string start marks fuel) (string start marks fuel) scanner fun _ _ => True := by
  have plain := isBreak_of_isQuoteMark isQuote
  refine (InStep.readPlain begins plain).after fun found scanner same => .get ?_
  obtain ⟨rfl, -⟩ := same
  have two : ∀ char ∈ [found, found], isBreak char = false := by simp [plain]
  have leads : ∀ text : List Char,
      (text.take 2 == [found, found]) = true ↔ [found, found] <+: text := by
    intro text
    rw [beq_iff_eq, List.prefix_iff_eq_take]
    exact eq_comm
  have triple : (scanner.unified.rest.take 2 == [found, found]) =
      (scanner.rest.take 2 == [found, found]) := by
    rw [Bool.eq_iff_iff, leads, leads]
    exact prefix_unifyBreaks_iff two scanner.rest
  have body : ∀ triple quotes scanner, InStep (do
        let body ← stringBody start found triple fuel
        stringWord start marks quotes body) (do
        let body ← stringBody start found triple fuel
        stringWord start marks quotes body) scanner fun _ _ => True :=
    fun triple quotes scanner => (stringBody_inStep isQuote start triple fuel scanner).after
      fun body after _ => stringWord_inStep start marks quotes body after
  rw [triple]
  refine .ite (fun both => ?_) fun _ => body _ _ _
  obtain ⟨tail, begins⟩ := (leads _).mp both
  exact (InStep.take begins.symm two).after fun _ _ _ => body _ _ _

theorem number_inStep (start : Position) {scanner : Scanner}
    (begins : Numeral.BeginsNumber scanner.rest) :
    InStep (number start) (number start) scanner fun _ _ => True := by
  obtain ⟨line, rest, split, plain, ends⟩ := exists_line scanner.rest
  have front : Numeral.BeginsNumber line := by
    rw [split] at begins
    cases line with
    | nil =>
      rcases begins with ⟨char, tail, same, digit⟩ | point
      · have breaks := ends char (congrArg List.head? same)
        rw [isBreak_of_isDigit digit] at breaks
        cases breaks
      · exact absurd (ends '.' point) (by decide)
    | cons first line =>
      rcases begins with ⟨char, tail, same, digit⟩ | point
      · cases same
        exact .inl ⟨_, line, rfl, digit⟩
      · exact .inr point
  refine .get ?_
  rw [rest_unified_of_line plain split, split, Numeral.read_append line ends,
    Numeral.read_append line (endsLine_unifyBreaks ends)]
  have room := Numeral.read_fits front
  -- What a number takes, or what stands before the place of a complaint, is on the line.
  have taken : ∀ width, width ≤ line.length →
      InStep (take width) (take width) scanner fun _ _ => True := by
    intro width within
    have whole : scanner.rest = line.take width ++ (line.drop width ++ rest) := by
      rw [← List.append_assoc, List.take_append_drop, split]
    have length : (line.take width).length = width := List.length_take_of_le within
    have given := InStep.take whole fun char member => plain char (List.mem_of_mem_take member)
    rw [length] at given
    exact given.imp fun _ _ _ => trivial
  revert room
  cases Numeral.read line with
  | ok reading =>
    intro room
    exact (taken _ room.2.1).after fun _ _ _ => .pure trivial
  | error failure =>
    intro room
    exact (taken _ room.1).after fun _ _ _ => .complain _

theorem word_inStep (start : Position) (scanner : Scanner) :
    InStep (word start) (word start) scanner fun _ _ => True := by
  have unfit : isNamePart '\n' = false :=
    Bool.eq_false_iff.mpr fun part => Bool.noConfusion (isBreak_of_isNamePart part)
  exact (InStep.takeWhile unfit).after fun _ _ _ => .pure trivial

theorem markAt?_unifyBreaks (text : List Char) : markAt? (unifyBreaks text) = markAt? text := by
  have same : ∀ mark ∈ marks, mark.text.toList.isPrefixOf (unifyBreaks text) =
      mark.text.toList.isPrefixOf text := by
    intro mark member
    rw [Bool.eq_iff_iff, List.isPrefixOf_iff_prefix, List.isPrefixOf_iff_prefix]
    exact prefix_unifyBreaks_iff (isBreak_of_mem_mark mark member).2 text
  unfold markAt?
  revert same
  generalize marks = marks
  intro same
  induction marks with
  | nil => rfl
  | cons mark marks induction =>
    obtain ⟨first, others⟩ := List.forall_mem_cons.mp same
    rw [List.find?_cons, List.find?_cons, first, induction others]

theorem punctuation_inStep (start : Position) (char : Char) (scanner : Scanner) :
    InStep (punctuation start char) (punctuation start char) scanner fun _ _ => True := by
  refine .get ?_
  rw [show markAt? scanner.unified.rest = _ from markAt?_unifyBreaks scanner.rest]
  cases found : markAt? scanner.rest with
  | none => exact .complain _
  | some mark =>
    obtain ⟨member, rest, begins⟩ := prefix_of_markAt? found
    have taken := InStep.take begins.symm (isBreak_of_mem_mark mark member).2
    refine .ite (fun _ => .complain _) fun _ => ?_
    exact taken.after fun _ _ _ => .change rfl (.pure trivial)

/-- No mark of a string is a line break. -/
theorem marksBeforeQuote?_of_isBreak {first second : Char} (breaks : isBreak second = true)
    (rest : List Char) : marksBeforeQuote? (first :: second :: rest) = none := by
  have unfit : isQuoteMark second = false :=
    eq_false_of_rejectsBreaks (by decide) breaks
  have unknown : stringMarks.contains [first.toLower, second.toLower] = false := by
    rcases (isBreak_iff second).mp breaks with rfl | rfl <;> simp [stringMarks]
  unfold marksBeforeQuote?
  dsimp only
  rw [unfit, unknown]
  cases rest with
  | nil => rfl
  | cons third rest => simp

theorem marksBeforeQuote?_unifyBreaks {char : Char} (plain : isBreak char = false)
    (rest : List Char) :
    marksBeforeQuote? (unifyBreaks (char :: rest)) = marksBeforeQuote? (char :: rest) := by
  rw [unifyBreaks_cons_of_not_isBreak plain]
  rcases beginning rest with rfl | ⟨tail, ends⟩ | ⟨second, tail, rfl, inLine⟩
  · rfl
  · rw [unifyBreaks_of_afterBreak? ends, marksBeforeQuote?_of_isBreak rfl]
    rcases eq_of_afterBreak? ends with rfl | ⟨rfl, -⟩ | rfl
    · exact (marksBeforeQuote?_of_isBreak rfl _).symm
    · exact (marksBeforeQuote?_of_isBreak rfl _).symm
    · exact (marksBeforeQuote?_of_isBreak rfl _).symm
  · rw [unifyBreaks_cons_of_not_isBreak inLine]
    unfold marksBeforeQuote?
    dsimp only
    rcases beginning tail with rfl | ⟨more, ends⟩ | ⟨third, more, rfl, inLine⟩
    · rfl
    · rw [unifyBreaks_of_afterBreak? ends]
      have unfit : ∀ char, isBreak char = true → isQuoteMark char = false :=
        fun _ breaks => eq_false_of_rejectsBreaks (by decide) breaks
      rcases eq_of_afterBreak? ends with rfl | ⟨rfl, -⟩ | rfl <;>
        simp only [unfit '\n' rfl, unfit '\r' rfl, Bool.false_and]
    · rw [unifyBreaks_cons_of_not_isBreak inLine]

/-- The marks of a string are characters of a line. -/
theorem isBreak_of_mem_marksBeforeQuote? {char : Char} {rest : List Char} {count : Nat}
    (plain : isBreak char = false) (found : marksBeforeQuote? (char :: rest) = some count) :
    ∀ mark ∈ (char :: rest).take count, isBreak mark = false := by
  cases rest with
  | nil => cases found
  | cons second rest =>
    cases inLine : isBreak second with
    | true =>
      rw [marksBeforeQuote?_of_isBreak inLine] at found
      cases found
    | false =>
      have short : count ≤ 2 := (quote_of_marksBeforeQuote? found).1
      intro mark member
      have early : mark ∈ [char, second] :=
        (List.take_prefix_take_left (l := char :: second :: rest) short).subset member
      simp only [List.mem_cons, List.not_mem_nil, or_false] at early
      rcases early with rfl | rfl
      · exact plain
      · exact inLine

/-- Whether a digit comes second. -/
theorem second_isDigit_unifyBreaks {char : Char} (plain : isBreak char = false)
    (rest : List Char) :
    (((unifyBreaks (char :: rest)).drop 1).head?.map Numeral.isDigit).getD false =
      (((char :: rest).drop 1).head?.map Numeral.isDigit).getD false := by
  obtain ⟨line, tail, rfl, inLine, ends⟩ := exists_line rest
  have digit : ∀ tail, EndsLine tail → ((line ++ tail).head?.map Numeral.isDigit).getD false =
      (line.head?.map Numeral.isDigit).getD false :=
    fun _ ends => head?_append_of_endsLine (by decide) line ends
  rw [unifyBreaks_cons_of_not_isBreak plain, List.drop_succ_cons, List.drop_succ_cons,
    List.drop_zero, List.drop_zero, unifyBreaks_append_of_not_isBreak inLine, digit _ ends,
    digit _ (endsLine_unifyBreaks ends)]

theorem wordAt_inStep (char : Char) (fuel : Nat) {scanner : Scanner} {rest : List Char}
    (begins : scanner.rest = char :: rest) (plain : isBreak char = false) :
    InStep (wordAt char fuel) (wordAt char fuel) scanner fun _ _ => True := by
  have unified : scanner.unified.rest = unifyBreaks (char :: rest) :=
    congrArg unifyBreaks begins
  have second : ((scanner.unified.rest.drop 1).head?.map Numeral.isDigit).getD false =
      ((scanner.rest.drop 1).head?.map Numeral.isDigit).getD false := by
    rw [unified, begins, second_isDigit_unifyBreaks plain]
  have marks : marksBeforeQuote? scanner.unified.rest = marksBeforeQuote? scanner.rest := by
    rw [unified, begins, marksBeforeQuote?_unifyBreaks plain]
  refine .get ?_
  rw [second, marks]
  refine .ite (fun quote => ?_) fun _ => .ite (fun _ => ?_) fun _ => ?_
  · exact string_inStep _ [] fuel begins quote
  · cases found : marksBeforeQuote? scanner.rest with
    | none => exact word_inStep _ _
    | some count =>
      obtain ⟨-, bound, quote, tail, follows, isQuote⟩ := quote_of_marksBeforeQuote? found
      rw [begins] at found
      have inLine := isBreak_of_mem_marksBeforeQuote? plain found
      rw [← begins] at inLine
      have whole : scanner.rest = scanner.rest.take count ++ quote :: tail := by
        rw [← follows, List.take_append_drop]
      have taken := InStep.take whole inLine
      rw [List.length_take_of_le bound] at taken
      exact taken.after fun _ _ same => string_inStep _ _ fuel same.2 isQuote
  · refine .ite (fun digit => ?_) fun _ => .ite (fun point => ?_) fun _ => ?_
    · exact number_inStep _ (.inl ⟨char, rest, begins, digit⟩)
    · exact number_inStep _ (beginsNumber_of_point begins point)
    · exact punctuation_inStep _ _ _

theorem next_inStep (fuel : Nat) : ∀ scanner,
    InStep (next fuel) (next fuel) scanner fun _ _ => True := by
  induction fuel with
  | zero => exact fun _ => .complain _
  | succ fuel induction =>
    intro scanner
    refine .get ((openLine_inStep scanner).after fun blank opened _ => .get ?_)
    refine .ite (fun _ => pendingWord_inStep opened) fun _ => ?_
    refine (skipBlanks_inStep opened).after fun _ _ _ => ?_
    refine InStep.peek.after fun char begun front => ?_
    refine .ite (fun _ => ?_) fun feed => .ite (fun _ => ?_) fun null =>
      .ite (fun _ => ?_) fun _ => ?_
    · refine .change rfl (.get ?_)
      rw [show ∀ scanner : Scanner, scanner.unified.supply.isNone = scanner.supply.isNone from
        fun _ => Option.isNone_map]
      refine .ite (fun _ => ?_) fun _ => .ite (fun _ => ?_) fun _ => ?_
      · exact InStep.read.after fun _ after _ => induction after
      · exact .change rfl (induction _)
      · exact .get (InStep.read.after fun _ _ _ => .pure trivial)
    · refine .get (.ite (fun _ => .get (.pure trivial)) fun _ => .ite (fun _ => ?_) fun _ => ?_)
      · exact .change rfl (induction _)
      · exact .change rfl (.get (.pure trivial))
    · refine InStep.read.after fun _ _ _ => InStep.peek.after fun _ _ _ => ?_
      exact .ite (fun _ => .complain _) fun _ => InStep.read.after fun _ after _ => induction after
    · subst front
      have plain : isBreak begun.front = false := isBreak_front (by simpa using feed)
      have more : begun.front ≠ '\x00' := by simpa using null
      obtain ⟨rest, begins⟩ := rest_of_front_of_not_isBreak rfl more plain
      exact wordAt_inStep _ fuel begins plain

end Lexer

/-! ## Streams -/

namespace Stream

variable {σ τ υ : Type}

@[simp] theorem lexemes_map (change : σ → τ) (stream : Stream σ) :
    (stream.map change).lexemes = stream.lexemes := by
  induction stream with
  | failed => rfl
  | last => rfl
  | word lexeme after rest induction => exact congrArg (lexeme :: ·) induction

@[simp] theorem fault?_map (change : σ → τ) (stream : Stream σ) :
    (stream.map change).fault? = stream.fault? := by
  induction stream with
  | failed => rfl
  | last => rfl
  | word lexeme after rest induction => exact induction

theorem map_map (first : σ → τ) (second : τ → υ) (stream : Stream σ) :
    (stream.map first).map second = stream.map (second ∘ first) := by
  induction stream with
  | failed => rfl
  | last => rfl
  | word lexeme after rest induction =>
    exact congrArg (word lexeme (second (first after))) induction

theorem read_unified (fuel count : Nat) (scanner : Scanner) :
    read fuel count scanner.unified = (read fuel count scanner).map Scanner.unified := by
  induction count generalizing scanner with
  | zero => rfl
  | succ count induction =>
    have step := Lexer.next_inStep fuel scanner
    unfold Lexer.InStep at step
    unfold read
    revert step
    cases Lexer.next fuel scanner with
    | error fault after =>
      intro same
      rw [same]
      rfl
    | ok lexeme after =>
      rintro ⟨same, -⟩
      rw [same]
      dsimp only
      split
      case isTrue => rfl
      case isFalse => exact congrArg (word lexeme after.unified) (induction after)

/-- Unifying line breaks changes none of the words of a text. -/
theorem ofScanner_unified (scanner : Scanner) :
    ofScanner scanner.unified = (ofScanner scanner).map Scanner.unified := by
  unfold ofScanner
  rw [Scanner.size_unified]
  exact read_unified _ _ scanner

end Stream
end Unsugar
