import Unsugar.Proofs.Token.Break

/-! How readings end. From a given scanner a reading gives a value and a scanner, or
fails; the judgement says what holds in either case, and follows a reading through its
steps. A scanner of a whole text has no lines in supply, and reading moves it on
through its text and leaves all else as it is. -/

namespace Unsugar

/-- A fault of the text and not of the scanner. -/
def Complaint.isOfText : Complaint → Bool
  | .pastEnd => false
  | .noLevel => false
  | .endOfInput => false
  | _ => true

/-- A complaint about the text with a place in it. -/
def Fault.IsOfText (file : String) (fault : Fault) : Prop :=
  (∃ line column, fault.position = .at file line column ∧ 0 < line ∧ 0 < column) ∧
    fault.complaint.isOfText = true

namespace Scanner

/-- A scanner that is somewhere in a text it has as a whole. -/
structure InText (scanner : Scanner) : Prop where
  supply : scanner.supply = none
  line : 0 < scanner.line
  column : 0 < scanner.column

/-- The second scanner is the first one further on in its text. -/
structure Reads (before after : Scanner) : Prop where
  file : after.file = before.file
  depth : after.depth = before.depth
  levels : after.levels = before.levels
  pending : after.pending = before.pending
  lineStart : after.lineStart = before.lineStart
  supply : after.supply = before.supply
  suffix : after.rest <:+ before.rest
  size_le : after.size ≤ before.size
  line : 0 < before.line → 0 < after.line
  column : 0 < before.column → 0 < after.column

namespace Reads

variable {before middle after : Scanner}

theorem refl (scanner : Scanner) : Reads scanner scanner where
  file := rfl
  depth := rfl
  levels := rfl
  pending := rfl
  lineStart := rfl
  supply := rfl
  suffix := List.suffix_refl _
  size_le := Nat.le_refl _
  line := id
  column := id

theorem trans (first : Reads before middle) (second : Reads middle after) :
    Reads before after where
  file := second.file.trans first.file
  depth := second.depth.trans first.depth
  levels := second.levels.trans first.levels
  pending := second.pending.trans first.pending
  lineStart := second.lineStart.trans first.lineStart
  supply := second.supply.trans first.supply
  suffix := second.suffix.trans first.suffix
  size_le := Nat.le_trans second.size_le first.size_le
  line := second.line ∘ first.line
  column := second.column ∘ first.column

theorem height (reads : Reads before after) : after.height = before.height := by
  simp only [Scanner.height, reads.levels]

theorem inText (reads : Reads before after) (placed : InText before) : InText after :=
  ⟨reads.supply.trans placed.supply, reads.line placed.line, reads.column placed.column⟩

end Reads

theorem size_eq {scanner : Scanner} (text : scanner.supply = none) :
    scanner.size = (unifyBreaks scanner.rest).length := by
  simp [size, text]

/-- The scanner after some characters of the current line. -/
def skip (scanner : Scanner) (count : Nat) : Scanner :=
  { scanner with rest := scanner.rest.drop count, column := scanner.column + count }

theorem reads_skip (scanner : Scanner) (count : Nat) : Reads scanner (scanner.skip count) where
  file := rfl
  depth := rfl
  levels := rfl
  pending := rfl
  lineStart := rfl
  supply := rfl
  suffix := List.drop_suffix _ _
  size_le := Nat.add_le_add_right (length_unifyBreaks_drop_le count scanner.rest) _
  line := id
  column := fun positive => Nat.lt_of_lt_of_le positive (Nat.le_add_right _ _)

/-- Characters that begin in a line take their share of what is left. -/
theorem size_skip_lt {scanner : Scanner} {count : Nat} (positive : 0 < count)
    {char : Char} {rest : List Char} (begins : scanner.rest = char :: rest)
    (plain : isBreak char = false) : (scanner.skip count).size < scanner.size := by
  obtain ⟨more, rfl⟩ := Nat.exists_eq_succ_of_ne_zero (Nat.ne_of_gt positive)
  have fewer := length_unifyBreaks_drop_le more rest
  simp only [size, skip, begins, unifyBreaks_cons_of_not_isBreak plain, List.drop_succ_cons,
    List.length_cons]
  omega

/-- The text has ended, or a null character stands for its end. -/
def Ended (scanner : Scanner) : Prop :=
  scanner.front = '\x00'

instance (scanner : Scanner) : Decidable scanner.Ended :=
  inferInstanceAs (Decidable (_ = _))

theorem rest_of_front {scanner : Scanner} (more : scanner.front ≠ '\x00') :
    ∃ char rest, scanner.rest = char :: rest ∧ seen char = scanner.front := by
  unfold front at more ⊢
  cases found : scanner.rest with
  | nil =>
    rw [found] at more
    exact absurd rfl more
  | cons char rest => exact ⟨char, rest, rfl, rfl⟩

theorem rest_ne_nil {scanner : Scanner} (more : scanner.front ≠ '\x00') : scanner.rest ≠ [] := by
  obtain ⟨char, rest, begins, -⟩ := rest_of_front more
  rw [begins]
  exact List.cons_ne_nil char rest

theorem isBreak_front {scanner : Scanner} (plain : scanner.front ≠ '\n') :
    isBreak scanner.front = false := by
  cases breaks : isBreak scanner.front with
  | false => rfl
  | true =>
    refine absurd ?_ plain
    rw [← seen_of_isBreak breaks]
    exact (seen_seen _).symm

theorem rest_of_front_of_not_isBreak {scanner : Scanner} {char : Char}
    (front : scanner.front = char) (more : char ≠ '\x00') (plain : isBreak char = false) :
    ∃ rest, scanner.rest = char :: rest := by
  subst front
  obtain ⟨first, rest, begins, same⟩ := rest_of_front more
  cases breaks : isBreak first with
  | true =>
    rw [← same, seen_of_isBreak breaks] at plain
    cases plain
  | false =>
    rw [seen_of_not_isBreak breaks] at same
    exact ⟨rest, by rw [begins, same]⟩

theorem size_pos {scanner : Scanner} (some : scanner.rest ≠ []) : 0 < scanner.size :=
  Nat.lt_of_lt_of_le (length_unifyBreaks_pos some) (Nat.le_add_right _ _)

theorem size_pos_of_not_ended {scanner : Scanner} (more : ¬scanner.Ended) : 0 < scanner.size :=
  size_pos (rest_ne_nil more)

end Scanner

namespace Lexer

open Scanner

variable {α β : Type}

/-- How a reading ends: with a value and a scanner that have a property, or with an
allowed fault. -/
def Ends (reading : Lexer α) (scanner : Scanner) (gives : α → Scanner → Prop)
    (fails : Fault → Prop) : Prop :=
  match reading scanner with
  | .ok value after => gives value after
  | .error fault _ => fails fault

namespace Ends

variable {scanner : Scanner} {gives : α → Scanner → Prop} {fails : Fault → Prop}
variable {result : β → Scanner → Prop}

/-- A reading that cannot fail and has one way to end. -/
theorem eq {reading : Lexer α} {value : α} {after : Scanner}
    (given : Ends reading scanner (fun found last => found = value ∧ last = after)
      (fun _ => False)) : reading scanner = .ok value after := by
  unfold Ends at given
  revert given
  cases reading scanner with
  | ok found last =>
    rintro ⟨rfl, rfl⟩
    rfl
  | error fault last => exact False.elim

theorem pure {value : α} (holds : gives value scanner) :
    Ends (Pure.pure value : Lexer α) scanner gives fails :=
  holds

theorem bind {reading : Lexer α} {next : α → Lexer β}
    (first : Ends reading scanner (fun value after => Ends (next value) after result fails) fails) :
    Ends (reading >>= next) scanner result fails := by
  unfold Ends at first ⊢
  change match EStateM.bind reading next scanner with
    | .ok value after => result value after
    | .error fault _ => fails fault
  unfold EStateM.bind
  revert first
  cases reading scanner with
  | ok value after => exact id
  | error fault after => exact id

theorem imp {stronger : α → Scanner → Prop} {reading : Lexer α}
    (given : Ends reading scanner stronger fails)
    (implies : ∀ value after, stronger value after → gives value after) :
    Ends reading scanner gives fails := by
  unfold Ends at given ⊢
  revert given
  cases reading scanner with
  | ok value after => exact implies value after
  | error fault after => exact id

/-- What a reading gives is known, and what comes after it decides. -/
theorem after {known : α → Scanner → Prop} {reading : Lexer α} {next : α → Lexer β}
    (given : Ends reading scanner known fails)
    (rest : ∀ value after, known value after → Ends (next value) after result fails) :
    Ends (reading >>= next) scanner result fails :=
  bind (given.imp rest)

theorem get {next : Scanner → Lexer β} (rest : Ends (next scanner) scanner result fails) :
    Ends (MonadState.get >>= next) scanner result fails :=
  rest

theorem set {changed : Scanner} {next : PUnit → Lexer β}
    (rest : Ends (next ⟨⟩) changed result fails) :
    Ends (MonadStateOf.set changed >>= next) scanner result fails :=
  rest

theorem put {changed : Scanner} {gives : PUnit → Scanner → Prop} (holds : gives ⟨⟩ changed) :
    Ends (MonadStateOf.set changed) scanner gives fails :=
  holds

theorem change {alter : Scanner → Scanner} {next : PUnit → Lexer β}
    (rest : Ends (next ⟨⟩) (alter scanner) result fails) :
    Ends (modify alter >>= next) scanner result fails :=
  rest

theorem ite {condition : Prop} [Decidable condition] {first second : Lexer α}
    (whenTrue : condition → Ends first scanner gives fails)
    (whenFalse : ¬condition → Ends second scanner gives fails) :
    Ends (if condition then first else second) scanner gives fails := by
  split
  case isTrue holds => exact whenTrue holds
  case isFalse fails => exact whenFalse fails

theorem complain {complaint : Complaint} (allowed : fails ⟨scanner.position, complaint⟩) :
    Ends (Lexer.complain complaint : Lexer α) scanner gives fails :=
  allowed

end Ends

/-! ## Steps within a text -/

section InText

variable {scanner : Scanner} {gives : α → Scanner → Prop} {fails : Fault → Prop}
variable {result : β → Scanner → Prop}

theorem Ends.fill {gives : Unit → Scanner → Prop} (text : scanner.supply = none)
    (holds : gives () scanner) : Ends Lexer.fill scanner gives fails := by
  refine .get (.ite (fun _ => ?_) fun _ => .pure holds)
  rw [text]
  exact .pure holds

theorem Ends.peek {gives : Char → Scanner → Prop} (text : scanner.supply = none)
    (holds : gives scanner.front scanner) : Ends Lexer.peek scanner gives fails :=
  .bind (.fill text (.get (.pure holds)))

theorem Ends.atEnd {gives : Bool → Scanner → Prop} (text : scanner.supply = none)
    (holds : gives scanner.rest.isEmpty scanner) : Ends Lexer.atEnd scanner gives fails :=
  .bind (.fill text (.get (.pure holds)))

/-- Reading takes one character off what is left. -/
theorem Ends.read {gives : Char → Scanner → Prop} (text : scanner.supply = none)
    (some : scanner.rest ≠ [])
    (holds : ∀ after, Reads scanner after → after.size + 1 = scanner.size →
      gives scanner.front after) :
    Ends Lexer.read scanner gives fails := by
  refine .bind (.fill text (.get ?_))
  rcases beginning scanner.rest with empty | ⟨rest, ends⟩ | ⟨char, rest, begins, plain⟩
  · exact absurd empty some
  · rw [ends]
    have front : scanner.front = '\n' := front_of_afterBreak? ends
    rw [front] at holds
    refine .set (.pure (holds _ ?_ ?_))
    · refine ⟨rfl, rfl, rfl, rfl, rfl, rfl, suffix_of_afterBreak? ends, ?_, ?_, ?_⟩
      · simp [size, unifyBreaks_of_afterBreak? ends]
      · exact fun _ => Nat.succ_pos _
      · exact fun _ => Nat.one_pos
    · simp [size, text, unifyBreaks_of_afterBreak? ends]
  · have front : scanner.front = char := by
      simp [Scanner.front, begins, seen_of_not_isBreak plain]
    have none : afterBreak? scanner.rest = none := by
      rw [begins, afterBreak?_cons_of_not_isBreak plain]
    rw [none, begins]
    rw [front] at holds
    have moved := reads_skip scanner 1
    simp only [skip, begins, List.drop_succ_cons, List.drop_zero] at moved
    refine .set (.pure (holds _ moved ?_))
    simp [size, text, begins, unifyBreaks_cons_of_not_isBreak plain]

/-- A character of a line is read by moving on one place. -/
theorem Ends.readPlain {gives : Char → Scanner → Prop} {char : Char} {rest : List Char}
    (text : scanner.supply = none) (begins : scanner.rest = char :: rest)
    (plain : isBreak char = false) (holds : gives char (scanner.skip 1)) :
    Ends Lexer.read scanner gives fails := by
  refine .bind (.fill text (.get ?_))
  rw [begins, afterBreak?_cons_of_not_isBreak plain]
  refine .set (.pure ?_)
  simpa only [skip, begins, List.drop_succ_cons, List.drop_zero] using holds

theorem Ends.take {gives : List Char → Scanner → Prop} {count : Nat}
    (enough : count ≤ scanner.rest.length)
    (holds : gives (scanner.rest.take count) (scanner.skip count)) :
    Ends (Lexer.take count) scanner gives fails := by
  refine .get (.ite (fun short => ?_) fun _ => .set (.pure holds))
  rw [List.length_take, Nat.min_eq_left enough] at short
  exact absurd short (Nat.lt_irrefl count)

/-- The number of characters at the front that are fit. -/
def fitting (fit : Char → Bool) (scanner : Scanner) : Nat :=
  (scanner.rest.takeWhile fun char => fit (seen char)).length

theorem Ends.takeWhile {gives : List Char → Scanner → Prop} {fit : Char → Bool}
    (text : scanner.supply = none)
    (holds : gives (scanner.rest.take (fitting fit scanner)) (scanner.skip (fitting fit scanner))) :
    Ends (Lexer.takeWhile fit) scanner gives fails :=
  .bind (.fill text (.get (.take (List.takeWhile_prefix _).length_le holds)))

end InText

end Lexer
end Unsugar
