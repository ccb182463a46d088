import Mathlib.Data.List.Basic
import Unsugar.Chunk

/-! Chunks keep the line numbers of their file. Put together again with lines of dashes
between them they are the file, and a line has the number in the padded text of its
chunk that it has in the file. So an expectation is kept under the number of the line
that it stands on. -/

namespace Unsugar.Chunk

open Text (Pattern)

/-- The line of a text with a number. The first line has the number one. -/
def lineAt? (text : List Char) : (number : Nat) → Option (List Char)
  | 0 => none
  | above + 1 => (text.splitOn '\n')[above]?

/-- The line between two chunks. -/
def dashes : List Char := ['-', '-', '-']

/-- The text of a chunk without the line breaks before it. -/
def body (chunk : Chunk) : List Char :=
  chunk.source.drop (chunk.line - 1)

/-- The number of the last line of a chunk. -/
def lastLine (chunk : Chunk) : Nat :=
  (chunk.source.splitOn '\n').length

/-- A line without the carriage return at its end. -/
def withoutReturn (line : List Char) : List Char :=
  if line.getLast? = some '\r' then line.dropLast else line

/-- A chunk shows lines of a text under their numbers. -/
structure Keeps (readPattern : Pattern.Reader) (content : List Char) (chunk : Chunk) : Prop where
  padded : chunk.source = List.replicate (chunk.line - 1) '\n' ++ chunk.body
  numbered : 1 ≤ chunk.line ∧ chunk.line ≤ chunk.lastLine
  lines : ∀ number, chunk.line ≤ number → number ≤ chunk.lastLine →
    ∃ line, lineAt? chunk.source number = some line ∧ lineAt? content number = some line
  /-- What is expected is what the lines say. -/
  expected : ∀ number pattern, (number, pattern) ∈ chunk.wanted ↔
    (chunk.line ≤ number ∧ number ≤ chunk.lastLine) ∧
      ∃ line, lineAt? content number = some line ∧
        expectation? readPattern line = some (.ok pattern)

/-! ## Dividing and joining -/

theorem split_ne_nil (skipped : Nat) (before text : List Char) :
    split skipped before text ≠ [] := by
  fun_induction split skipped before text with
  | case1 => exact List.cons_ne_nil _ _
  | case2 before char rest skipped later => exact later
  | case3 => exact List.cons_ne_nil _ _
  | case4 before char rest different later => exact later

/-- A text that begins with a separator, and what follows its first character. -/
theorem eq_separator_append {char : Char} {rest : List Char}
    (found : separator.isPrefixOf (char :: rest) = true) :
    char :: rest = separator ++ rest.drop (separator.length - 1) := by
  obtain ⟨tail, whole⟩ := List.isPrefixOf_iff_prefix.mp found
  rw [← whole]
  cases whole
  rfl

/-- The pieces of a text make up the text. -/
theorem intercalate_split (skipped : Nat) (before text : List Char) :
    separator.intercalate (split skipped before text) = before ++ text.drop skipped := by
  fun_induction split skipped before text with
  | case1 => simp
  | case2 before char rest skipped later => exact later
  | case3 before char rest found later =>
    rw [List.intercalate_cons_of_ne_nil (split_ne_nil _ _ _), later, List.drop_zero,
      eq_separator_append found]
    simp
  | case4 before char rest different later => simpa using later

/-- No separator begins in what stands before a text, not even one that ends in the text. -/
def Divided (before text : List Char) : Prop :=
  ∀ suffix, suffix ≠ [] → suffix <:+ before → ¬ separator <+: suffix ++ text

theorem Divided.nil (text : List Char) : Divided [] text := by
  intro suffix nonempty ends
  exact absurd (List.suffix_nil.mp ends) nonempty

theorem Divided.not_infix {before text : List Char} (divided : Divided before text) :
    ¬ separator <:+: before := by
  rintro ⟨front, back, whole⟩
  have ends : separator ++ back <:+ before := ⟨front, by rw [← List.append_assoc, whole]⟩
  apply divided (separator ++ back) (by simp [separator]) ends
  rw [List.append_assoc]
  exact List.prefix_append _ _

theorem Divided.push {before rest : List Char} {char : Char}
    (divided : Divided before (char :: rest)) (none : ¬ separator <+: char :: rest) :
    Divided (before ++ [char]) rest := by
  intro suffix nonempty ends
  rcases List.suffix_concat_iff.mp ends with rfl | ⟨shorter, rfl, inside⟩
  · exact absurd rfl nonempty
  · rw [List.append_assoc, List.singleton_append]
    by_cases empty : shorter = []
    · rw [empty, List.nil_append]
      exact none
    · exact divided shorter empty inside

/-- No piece of a text holds a separator. -/
theorem not_infix_of_mem_split {skipped : Nat} {before text piece : List Char}
    (divided : Divided before (text.drop skipped)) (member : piece ∈ split skipped before text) :
    ¬ separator <:+: piece := by
  fun_induction split skipped before text with
  | case1 =>
    cases List.mem_singleton.mp member
    exact divided.not_infix
  | case2 before char rest skipped later => exact later divided member
  | case3 before char rest found later =>
    rcases List.mem_cons.mp member with rfl | member
    · exact divided.not_infix
    · exact later (.nil _) member
  | case4 before char rest different later =>
    apply later _ member
    rw [List.isPrefixOf_iff_prefix] at different
    exact divided.push different

/-! ## Lines -/

theorem withoutReturn_cons {char : Char} {line : List Char} (plain : line = [] → char ≠ '\r') :
    withoutReturn (char :: line) = char :: withoutReturn line := by
  cases line with
  | nil => simp [withoutReturn, plain rfl]
  | cons next rest =>
    unfold withoutReturn
    rw [List.getLast?_cons_cons]
    split
    · rfl
    · rfl

/-- A text whose first line is empty and not its only one begins with a line break. -/
theorem exists_of_splitOn_eq_nil_cons {text : List Char} {lines : List (List Char)}
    (nonempty : lines ≠ []) (whole : text.splitOn '\n' = [] :: lines) :
    ∃ rest, text = '\n' :: rest := by
  cases text with
  | nil => exact absurd (List.cons.inj whole).2.symm nonempty
  | cons char rest =>
    rw [List.splitOn_cons_eq_if_modifyHead] at whole
    split at whole
    · rename_i isBreak
      exact ⟨rest, by rw [eq_of_beq isBreak]⟩
    · obtain ⟨line, more, split⟩ := List.exists_cons_of_ne_nil (List.splitOn_ne_nil '\n' rest)
      rw [split] at whole
      cases whole

/-- Every line but the last loses the carriage return at its end, and none gets another
number. -/
theorem splitOn_plainBreaks (text : List Char) :
    ∃ lines last, text.splitOn '\n' = lines ++ [last] ∧
      (plainBreaks text).splitOn '\n' = lines.map withoutReturn ++ [last] := by
  fun_induction plainBreaks text with
  | case1 rest later =>
    rcases later with ⟨lines, last, whole, plain⟩
    refine ⟨['\r'] :: lines, last, ?_, ?_⟩
    · simp [List.splitOn_cons_eq_if_modifyHead, whole]
    · simp [List.splitOn_cons_eq_if_modifyHead, plain, withoutReturn]
  | case2 char rest single later =>
    rcases later with ⟨lines, last, whole, plain⟩
    by_cases isBreak : char = '\n'
    · subst isBreak
      refine ⟨[] :: lines, last, ?_, ?_⟩
      · simp [List.splitOn_cons_eq_if_modifyHead, whole]
      · simp [List.splitOn_cons_eq_if_modifyHead, plain, withoutReturn]
    · rw [List.splitOn_cons_eq_if_modifyHead, List.splitOn_cons_eq_if_modifyHead, whole, plain,
        if_neg (by simpa using isBreak), if_neg (by simpa using isBreak)]
      cases lines with
      | nil => exact ⟨[], char :: last, rfl, rfl⟩
      | cons line lines =>
        refine ⟨(char :: line) :: lines, last, rfl, ?_⟩
        -- A carriage return in front of an empty line would belong to its break.
        have kept : line = [] → char ≠ '\r' := by
          rintro rfl rfl
          obtain ⟨after, begins⟩ := exists_of_splitOn_eq_nil_cons (by simp) whole
          exact single after rfl begins
        rw [List.map_cons, List.map_cons, withoutReturn_cons kept]
        rfl
  | case3 => exact ⟨[], [], rfl, rfl⟩

/-- The lines of joined texts are those of the texts, with a line of dashes between two. -/
theorem splitOn_intercalate_separator {texts : List (List Char)} (nonempty : texts ≠ []) :
    (separator.intercalate texts).splitOn '\n' =
      [dashes].intercalate (texts.map (·.splitOn '\n')) := by
  induction texts with
  | nil => exact absurd rfl nonempty
  | cons text rest later =>
    cases rest with
    | nil => simp
    | cons next rest =>
      have line : dashes.splitOn '\n' = [dashes] := List.splitOn_eq_singleton (by decide)
      have joined : separator.intercalate (text :: next :: rest) =
          text ++ '\n' :: (dashes ++ '\n' :: separator.intercalate (next :: rest)) := by
        rw [List.intercalate_cons_cons]
        simp [separator, dashes]
      rw [joined, List.splitOn_append_cons_self, List.splitOn_append_cons_self, line,
        later (List.cons_ne_nil _ _)]
      simp

/-- The lines of a text are those of its pieces, with a line of dashes between two. -/
theorem splitOn_pieces (text : List Char) :
    text.splitOn '\n' = [dashes].intercalate ((split 0 [] text).map (·.splitOn '\n')) := by
  rw [← splitOn_intercalate_separator (split_ne_nil 0 [] text), intercalate_split]
  rfl

theorem splitOn_padded (count : Nat) (text : List Char) :
    (List.replicate count '\n' ++ text).splitOn '\n' =
      List.replicate count [] ++ text.splitOn '\n' := by
  induction count with
  | zero => rfl
  | succ count later =>
    rw [List.replicate_succ, List.cons_append, List.splitOn_cons_eq_if_modifyHead, later]
    rfl

/-- The lines of a part of a text, by their numbers in the text. -/
theorem lineAt?_of_part {content part : List Char} {above below : List (List Char)}
    (whole : content.splitOn '\n' = above ++ (part.splitOn '\n' ++ below)) {number : Nat}
    (first : above.length + 1 ≤ number)
    (last : number ≤ above.length + (part.splitOn '\n').length) :
    lineAt? content number = (part.splitOn '\n')[number - (above.length + 1)]? := by
  obtain ⟨inside, rfl⟩ := Nat.exists_eq_add_of_le' first
  have bound : inside < (part.splitOn '\n').length := by omega
  rw [← Nat.add_assoc, lineAt?, whole, List.getElem?_append_right (by omega),
    Nat.add_sub_cancel, List.getElem?_append_left bound, Nat.add_assoc, Nat.add_sub_cancel]

/-! ## Expectations -/

theorem mem_expectations {readPattern : Pattern.Reader} {first number : Nat}
    {lines : List (List Char)} {expected : Except Discrepancy Pattern} :
    (number, expected) ∈ expectations readPattern first lines ↔
      first ≤ number ∧ ∃ line, lines[number - first]? = some line ∧
        expectation? readPattern line = some expected := by
  induction lines generalizing first with
  | nil => simp [expectations]
  | cons line rest later =>
    rw [expectations, List.mem_append, later]
    have shift : first < number →
        (line :: rest)[number - first]? = rest[number - (first + 1)]? := by
      intro beyond
      rw [show number - first = number - (first + 1) + 1 by omega, List.getElem?_cons_succ]
    constructor
    · rintro (here | ⟨beyond, found, position, gives⟩)
      · obtain ⟨_, present, same⟩ := List.mem_map.mp here
        cases same
        exact ⟨Nat.le_refl _, line, by simp, Option.mem_toList.mp present⟩
      · exact ⟨Nat.le_of_succ_le beyond, found, (shift beyond).trans position, gives⟩
    · rintro ⟨bound, found, position, gives⟩
      rcases Nat.eq_or_lt_of_le bound with rfl | beyond
      · left
        rw [Nat.sub_self, List.getElem?_cons_zero, Option.some.injEq] at position
        rw [position]
        exact List.mem_map.mpr ⟨expected, Option.mem_toList.mpr gives, rfl⟩
      · exact .inr ⟨beyond, found, (shift beyond).symm.trans position, gives⟩

theorem mem_patterns {found : List (Nat × Except Discrepancy Pattern)} {number : Nat}
    {pattern : Pattern} : (number, pattern) ∈ patterns found ↔ (number, .ok pattern) ∈ found := by
  rw [patterns, List.mem_filterMap]
  constructor
  · rintro ⟨⟨line, expected⟩, member, same⟩
    cases expected with
    | error discrepancy => cases same
    | ok pattern =>
      cases same
      exact member
  · intro member
    exact ⟨_, member, rfl⟩

/-! ## Chunks -/

theorem lineCount_pos (text : List Char) : 0 < (text.splitOn '\n').length :=
  List.length_pos_iff.mpr (List.splitOn_ne_nil _ _)

@[simp] theorem body_ofText (readPattern : Pattern.Reader) (file : String) (number : Nat)
    (text : List Char) : (ofText readPattern file number text).body = text :=
  List.drop_left' List.length_replicate

theorem mem_wanted_ofText {readPattern : Pattern.Reader} {file : String} {first number : Nat}
    {text : List Char} {pattern : Pattern} :
    (number, pattern) ∈ (ofText readPattern file first text).wanted ↔
      first ≤ number ∧ ∃ line, (text.splitOn '\n')[number - first]? = some line ∧
        expectation? readPattern line = some (.ok pattern) :=
  mem_patterns.trans mem_expectations

/-- The chunk of a part of a text, if it begins on the line after those above the part. -/
theorem keeps_ofText {content text : List Char} {above below : List (List Char)}
    (whole : content.splitOn '\n' = above ++ (text.splitOn '\n' ++ below))
    (readPattern : Pattern.Reader) (file : String) :
    Keeps readPattern content (ofText readPattern file (above.length + 1) text) := by
  generalize made : ofText readPattern file (above.length + 1) text = chunk
  have begins : chunk.line = above.length + 1 := by rw [← made, ofText]
  have padding : (List.replicate above.length ([] : List Char)).length = above.length :=
    List.length_replicate
  have padded : chunk.source.splitOn '\n' =
      List.replicate above.length [] ++ (text.splitOn '\n' ++ []) := by
    rw [← made, List.append_nil]
    exact splitOn_padded above.length text
  have ends : chunk.lastLine = above.length + (text.splitOn '\n').length := by
    rw [lastLine, padded, List.length_append, List.append_nil, padding]
  have nonempty := lineCount_pos text
  constructor
  · rw [← made, body_ofText]
    rfl
  · omega
  · intro number first last
    have inside : number - (above.length + 1) < (text.splitOn '\n').length := by omega
    refine ⟨(text.splitOn '\n')[number - (above.length + 1)], ?_, ?_⟩
    · rw [lineAt?_of_part padded (by omega) (by omega), padding]
      exact List.getElem?_eq_getElem inside
    · rw [lineAt?_of_part whole (by omega) (by omega)]
      exact List.getElem?_eq_getElem inside
  · intro number pattern
    rw [begins, ends, ← made, mem_wanted_ofText]
    constructor
    · rintro ⟨first, line, position, gives⟩
      obtain ⟨inside, -⟩ := List.getElem?_eq_some_iff.mp position
      refine ⟨⟨first, by omega⟩, line, ?_, gives⟩
      rw [lineAt?_of_part whole first (by omega)]
      exact position
    · rintro ⟨⟨first, last⟩, line, position, gives⟩
      rw [lineAt?_of_part whole first last] at position
      exact ⟨first, line, position, gives⟩

theorem ofTexts_cons (readPattern : Pattern.Reader) (file : String) (number : Nat)
    (text : List Char) (rest : List (List Char)) :
    ofTexts readPattern file number (text :: rest) =
      let later := ofTexts readPattern file (number + (text.splitOn '\n').length + 1) rest
      (ofText readPattern file number text :: later.1,
        unreadable file (expectations readPattern number (text.splitOn '\n')) ++ later.2) := rfl

/-- The texts of chunks are those they were made of. -/
theorem map_body_ofTexts (readPattern : Pattern.Reader) (file : String) (number : Nat)
    (texts : List (List Char)) : (ofTexts readPattern file number texts).1.map body = texts := by
  induction texts generalizing number with
  | nil => rfl
  | cons text rest later =>
    rw [ofTexts_cons, List.map_cons, body_ofText, later]

/-- Chunks made of the texts that follow the lines `above`. -/
theorem keeps_of_mem_ofTexts {content : List Char} {above : List (List Char)}
    {texts : List (List Char)}
    (whole : content.splitOn '\n' =
      above ++ [dashes].intercalate (texts.map (·.splitOn '\n')))
    {readPattern : Pattern.Reader} {file : String} {chunk : Chunk}
    (member : chunk ∈ (ofTexts readPattern file (above.length + 1) texts).1) :
    Keeps readPattern content chunk := by
  induction texts generalizing above with
  | nil => cases member
  | cons text rest later =>
    rw [ofTexts_cons] at member
    cases rest with
    | nil =>
      cases List.mem_singleton.mp member
      have whole : content.splitOn '\n' = above ++ (text.splitOn '\n' ++ []) := by
        simpa using whole
      exact keeps_ofText whole readPattern file
    | cons next rest =>
      rw [List.map_cons, List.map_cons, List.intercalate_cons_cons, ← List.map_cons,
        List.append_assoc] at whole
      rcases List.mem_cons.mp member with rfl | member
      · exact keeps_ofText whole readPattern file
      · -- The lines above the next text are those above this one, its own and the dashes.
        have count : (above ++ text.splitOn '\n' ++ [dashes]).length + 1 =
            above.length + 1 + (text.splitOn '\n').length + 1 := by
          simp only [List.length_append, List.length_singleton]
          omega
        have next : content.splitOn '\n' = (above ++ text.splitOn '\n' ++ [dashes]) ++
            [dashes].intercalate ((next :: rest).map (·.splitOn '\n')) := by
          rw [whole]
          simp only [List.append_assoc]
        rw [← count] at member
        exact later next member

/-! ## Whole files -/

theorem expectations_append (readPattern : Pattern.Reader) (first : Nat)
    (lines more : List (List Char)) :
    expectations readPattern first (lines ++ more) =
      expectations readPattern first lines ++
        expectations readPattern (first + lines.length) more := by
  induction lines generalizing first with
  | nil => rfl
  | cons line rest later =>
    rw [List.cons_append, expectations, expectations, later, List.append_assoc,
      List.length_cons, Nat.add_assoc, Nat.add_comm 1]

theorem patterns_append (found more : List (Nat × Except Discrepancy Pattern)) :
    patterns (found ++ more) = patterns found ++ patterns more :=
  List.filterMap_append

theorem unreadable_append (file : String)
    (found more : List (Nat × Except Discrepancy Pattern)) :
    unreadable file (found ++ more) = unreadable file found ++ unreadable file more :=
  List.filterMap_append

/-- Nothing is expected on a line of dashes. -/
theorem expectations_dashes (readPattern : Pattern.Reader) (number : Nat) :
    expectations readPattern number [dashes] = [] := rfl

theorem ofTexts_expectations (readPattern : Pattern.Reader) (file : String) (first : Nat)
    (texts : List (List Char)) :
    (ofTexts readPattern file first texts).1.flatMap wanted =
        patterns (expectations readPattern first
          ([dashes].intercalate (texts.map (·.splitOn '\n')))) ∧
      (ofTexts readPattern file first texts).2 =
        unreadable file (expectations readPattern first
          ([dashes].intercalate (texts.map (·.splitOn '\n')))) := by
  induction texts generalizing first with
  | nil => exact ⟨rfl, rfl⟩
  | cons text rest later =>
    cases rest with
    | nil => simp [ofTexts, ofText]
    | cons next rest =>
      obtain ⟨wanted, reported⟩ := later (first + (text.splitOn '\n').length + 1)
      have lines : expectations readPattern first
            ([dashes].intercalate ((text :: next :: rest).map (·.splitOn '\n'))) =
          expectations readPattern first (text.splitOn '\n') ++
            expectations readPattern (first + (text.splitOn '\n').length + 1)
              ([dashes].intercalate ((next :: rest).map (·.splitOn '\n'))) := by
        rw [List.map_cons, List.map_cons, List.intercalate_cons_cons, expectations_append,
          expectations_append, expectations_dashes, List.append_nil, List.length_append,
          ← Nat.add_assoc]
        rfl
      rw [lines, ofTexts_cons]
      constructor
      · rw [List.flatMap_cons, wanted, patterns_append]
        rfl
      · rw [unreadable_append, ← reported]

/-- The chunks of a file expect the errors that the lines of the file ask for, and what is
reported is what is wrong with lines of the file. -/
theorem expectations_of_file (readPattern : Pattern.Reader) (file : String)
    (text : List Char) :
    (read readPattern file text).1.flatMap wanted =
        patterns (expectations readPattern 1 ((plainBreaks text).splitOn '\n')) ∧
      (read readPattern file text).2 =
        unreadable file (expectations readPattern 1 ((plainBreaks text).splitOn '\n')) := by
  rw [splitOn_pieces]
  exact ofTexts_expectations readPattern file 1 _

/-- Chunks keep the line numbers of their file. With lines of dashes between them they are
the file with plain line breaks, and none holds such a line between two others. Every line
of a chunk has the number it has in the file, and a chunk expects the errors that its lines
ask for, each under the number of the line. Plain line breaks change no line but that they
take away the carriage return at its end. -/
theorem chunks_keep_lineNumbers (readPattern : Pattern.Reader) (file : String)
    (text : List Char) :
    separator.intercalate ((read readPattern file text).1.map body) = plainBreaks text ∧
    (∀ chunk ∈ (read readPattern file text).1,
      ¬ separator <:+: chunk.body ∧ Keeps readPattern (plainBreaks text) chunk) ∧
    ∃ lines last, text.splitOn '\n' = lines ++ [last] ∧
      (plainBreaks text).splitOn '\n' = lines.map withoutReturn ++ [last] := by
  refine ⟨?_, ?_, splitOn_plainBreaks text⟩
  · rw [read, map_body_ofTexts]
    exact intercalate_split 0 [] (plainBreaks text)
  · intro chunk member
    rw [read] at member
    constructor
    · have divided : Divided [] ((plainBreaks text).drop 0) := .nil _
      apply not_infix_of_mem_split divided
      rw [← map_body_ofTexts readPattern file 1 (split 0 [] (plainBreaks text))]
      exact List.mem_map_of_mem member
    · -- No line stands above the first chunk.
      have whole : (plainBreaks text).splitOn '\n' =
          [] ++ [dashes].intercalate ((split 0 [] (plainBreaks text)).map (·.splitOn '\n')) :=
        splitOn_pieces (plainBreaks text)
      exact keeps_of_mem_ofTexts whole member

/-- The third chunk of a file with carriage returns, whose second chunk is empty. -/
theorem chunks_keep_lineNumbers_third :
    let text := "a\r\n---\r\n\n---\nb ### 'c'".toList
    let chunk := ofText Pattern.plain "f" 5 "b ### 'c'".toList
    chunk ∈ (read Pattern.plain "f" text).1 ∧
      (¬ separator <:+: chunk.body ∧ Keeps Pattern.plain (plainBreaks text) chunk) ∧
      chunk.wanted.map (·.1) = [5] := by
  have member : ofText Pattern.plain "f" 5 "b ### 'c'".toList ∈
      (read Pattern.plain "f" "a\r\n---\r\n\n---\nb ### 'c'".toList).1 :=
    .tail _ (.tail _ (.head _))
  refine ⟨member, (chunks_keep_lineNumbers Pattern.plain "f" _).2.1 _ member, ?_⟩
  decide +kernel

end Unsugar.Chunk
