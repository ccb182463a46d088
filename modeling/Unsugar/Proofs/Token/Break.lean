import Unsugar.Token.Lexer

/-! Line breaks. A text is empty, or begins with a line break, or begins with a
character of a line; reading goes on after each of them. The number of characters
that are left counts a line break of two characters once. -/

namespace Unsugar

/-- Whether a character is an end of a line, or half of one. -/
def isBreak (char : Char) : Bool :=
  char == '\n' || char == '\r'

theorem isBreak_iff (char : Char) : isBreak char = true ↔ char = '\n' ∨ char = '\r' := by
  simp [isBreak]

theorem seen_of_isBreak {char : Char} (breaks : isBreak char = true) : seen char = '\n' := by
  rcases (isBreak_iff char).mp breaks with rfl | rfl <;> rfl

theorem seen_of_not_isBreak {char : Char} (plain : isBreak char = false) : seen char = char := by
  unfold seen
  split
  case isTrue same =>
    subst same
    cases plain
  case isFalse => rfl

@[simp] theorem seen_seen (char : Char) : seen (seen char) = seen char := by
  cases breaks : isBreak char with
  | true => rw [seen_of_isBreak breaks]; rfl
  | false => rw [seen_of_not_isBreak breaks, seen_of_not_isBreak breaks]

theorem afterBreak?_cons_of_not_isBreak {char : Char} (plain : isBreak char = false)
    (rest : List Char) : afterBreak? (char :: rest) = none := by
  unfold afterBreak?
  split <;> simp_all [isBreak]

theorem afterBreak?_return {rest : List Char} (lone : rest.head? ≠ some '\n') :
    afterBreak? ('\r' :: rest) = some rest := by
  cases rest with
  | nil => rfl
  | cons second rest =>
    have other : second ≠ '\n' := fun feed => lone (congrArg some feed)
    simp [afterBreak?, other]

/-- The three ways in which a text can begin. -/
theorem beginning (text : List Char) :
    text = [] ∨ (∃ rest, afterBreak? text = some rest) ∨
      ∃ char rest, text = char :: rest ∧ isBreak char = false := by
  cases text with
  | nil => exact .inl rfl
  | cons char rest =>
    cases breaks : isBreak char with
    | false => exact .inr (.inr ⟨char, rest, rfl, breaks⟩)
    | true =>
      refine .inr (.inl ?_)
      rcases (isBreak_iff char).mp breaks with rfl | rfl
      · exact ⟨rest, rfl⟩
      · by_cases feed : rest.head? = some '\n'
        · obtain ⟨rest, rfl⟩ := List.head?_eq_some_iff.mp feed
          exact ⟨rest, rfl⟩
        · exact ⟨rest, afterBreak?_return feed⟩

/-- A line break takes one or two characters. -/
theorem eq_of_afterBreak? {text rest : List Char} (ends : afterBreak? text = some rest) :
    text = '\r' :: '\n' :: rest ∨ (text = '\r' :: rest ∧ rest.head? ≠ some '\n') ∨
      text = '\n' :: rest := by
  unfold afterBreak? at ends
  split at ends
  · cases ends
    exact .inl rfl
  · rename_i other
    cases ends
    refine .inr (.inl ⟨rfl, ?_⟩)
    intro feed
    cases rest with
    | nil => cases feed
    | cons second rest =>
      cases feed
      exact other rest rfl
  · cases ends
    exact .inr (.inr rfl)
  · cases ends

theorem front_of_afterBreak? {text rest : List Char} (ends : afterBreak? text = some rest) :
    seen (text.headD '\x00') = '\n' := by
  rcases eq_of_afterBreak? ends with rfl | ⟨rfl, -⟩ | rfl <;> rfl

theorem suffix_of_afterBreak? {text rest : List Char} (ends : afterBreak? text = some rest) :
    rest <:+ text := by
  rcases eq_of_afterBreak? ends with rfl | ⟨rfl, -⟩ | rfl
  · exact ⟨['\r', '\n'], rfl⟩
  · exact ⟨['\r'], rfl⟩
  · exact ⟨['\n'], rfl⟩

/-! ## Unified breaks -/

theorem unifyBreaks_of_afterBreak? {text rest : List Char} (ends : afterBreak? text = some rest) :
    unifyBreaks text = '\n' :: unifyBreaks rest := by
  rcases eq_of_afterBreak? ends with rfl | ⟨rfl, lone⟩ | rfl
  · rfl
  · cases rest with
    | nil => rfl
    | cons second rest =>
      have other : second ≠ '\n' := by simpa using lone
      rw [unifyBreaks]
      · rfl
      · rintro _ ⟨⟩ ⟨⟩
        exact other rfl
  · rfl

theorem unifyBreaks_cons_of_not_isBreak {char : Char} (plain : isBreak char = false)
    (rest : List Char) : unifyBreaks (char :: rest) = char :: unifyBreaks rest := by
  rw [unifyBreaks, seen_of_not_isBreak plain]
  rintro _ rfl
  cases plain

/-- A text of a line stands as it is. -/
theorem unifyBreaks_append_of_not_isBreak {line : List Char}
    (plain : ∀ char ∈ line, isBreak char = false) (rest : List Char) :
    unifyBreaks (line ++ rest) = line ++ unifyBreaks rest := by
  induction line with
  | nil => rfl
  | cons char line induction =>
    have others := induction fun other member => plain other (List.mem_cons_of_mem char member)
    rw [List.cons_append, unifyBreaks_cons_of_not_isBreak (plain char List.mem_cons_self), others]
    rfl

theorem length_unifyBreaks_tail_le (char : Char) (rest : List Char) :
    (unifyBreaks rest).length ≤ (unifyBreaks (char :: rest)).length := by
  rcases beginning (char :: rest) with empty | ⟨tail, ends⟩ | ⟨first, tail, same, plain⟩
  · cases empty
  · rw [unifyBreaks_of_afterBreak? ends]
    rcases eq_of_afterBreak? ends with same | ⟨same, -⟩ | same <;> cases same
    · simp [unifyBreaks_of_afterBreak? (rfl : afterBreak? ('\n' :: tail) = some tail)]
    · simp
    · simp
  · cases same
    simp [unifyBreaks_cons_of_not_isBreak plain]

theorem length_unifyBreaks_drop_le (count : Nat) (text : List Char) :
    (unifyBreaks (text.drop count)).length ≤ (unifyBreaks text).length := by
  induction count generalizing text with
  | zero => exact Nat.le_refl _
  | succ count induction =>
    cases text with
    | nil => exact Nat.le_refl _
    | cons char rest =>
      exact Nat.le_trans (induction rest) (length_unifyBreaks_tail_le char rest)

theorem length_unifyBreaks_le (text : List Char) : (unifyBreaks text).length ≤ text.length := by
  fun_induction unifyBreaks text with
  | case1 => exact Nat.le_refl _
  | case2 rest induction => simp only [List.length_cons]; omega
  | case3 char rest _ induction => simpa using induction

/-- A text is used up when no character is left to count. -/
theorem length_unifyBreaks_pos {text : List Char} (some : text ≠ []) :
    0 < (unifyBreaks text).length := by
  rcases beginning text with empty | ⟨rest, ends⟩ | ⟨char, rest, rfl, plain⟩
  · exact absurd empty some
  · simp [unifyBreaks_of_afterBreak? ends]
  · simp [unifyBreaks_cons_of_not_isBreak plain]

/-! ## The rest of a line -/

/-- Whether a test fails on both ends of a line. -/
def rejectsBreaks (test : Char → Bool) : Bool :=
  !test '\n' && !test '\r'

theorem eq_false_of_rejectsBreaks {test : Char → Bool} (rejects : rejectsBreaks test = true)
    {char : Char} (breaks : isBreak char = true) : test char = false := by
  simp only [rejectsBreaks, Bool.and_eq_true, Bool.not_eq_true'] at rejects
  rcases (isBreak_iff char).mp breaks with rfl | rfl
  · exact rejects.1
  · exact rejects.2

/-- A text that is empty or begins with a line break. -/
def EndsLine (rest : List Char) : Prop :=
  ∀ char ∈ rest.head?, isBreak char = true

theorem takeWhile_append_of_endsLine {test : Char → Bool} (rejects : rejectsBreaks test = true)
    (line : List Char) {rest : List Char} (ends : EndsLine rest) :
    (line ++ rest).takeWhile test = line.takeWhile test := by
  induction line with
  | nil =>
    cases rest with
    | nil => rfl
    | cons char rest =>
      have unfit := eq_false_of_rejectsBreaks rejects (ends char rfl)
      simp [unfit]
  | cons char line induction =>
    rw [List.cons_append, List.takeWhile_cons, List.takeWhile_cons, induction]

theorem head?_append_of_endsLine {test : Char → Bool} (rejects : rejectsBreaks test = true)
    (line : List Char) {rest : List Char} (ends : EndsLine rest) :
    ((line ++ rest).head?.map test).getD false = (line.head?.map test).getD false := by
  cases line with
  | nil =>
    cases rest with
    | nil => rfl
    | cons char rest => exact eq_false_of_rejectsBreaks rejects (ends char rfl)
  | cons char line => rfl

theorem head?_append_beq_of_endsLine {char : Char} (plain : isBreak char = false)
    (line : List Char) {rest : List Char} (ends : EndsLine rest) :
    ((line ++ rest).head? == some char) = (line.head? == some char) := by
  cases line with
  | nil =>
    cases rest with
    | nil => rfl
    | cons first rest =>
      have breaks := ends first rfl
      have other : first ≠ char := by
        rintro rfl
        rw [plain] at breaks
        cases breaks
      simp [other]
  | cons first line => rfl

/-- A text is a line and what follows it. -/
theorem exists_line (text : List Char) :
    ∃ line rest, text = line ++ rest ∧ (∀ char ∈ line, isBreak char = false) ∧ EndsLine rest := by
  induction text with
  | nil => exact ⟨[], [], rfl, nofun, nofun⟩
  | cons char text induction =>
    cases breaks : isBreak char with
    | true =>
      refine ⟨[], char :: text, rfl, nofun, ?_⟩
      rintro _ ⟨⟩
      exact breaks
    | false =>
      obtain ⟨line, rest, rfl, plain, ends⟩ := induction
      exact ⟨char :: line, rest, rfl, List.forall_mem_cons.mpr ⟨breaks, plain⟩, ends⟩

end Unsugar
