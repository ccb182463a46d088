import Mathlib.Data.List.Basic
import Unsugar.Proofs.StringLiteral.Value
import Unsugar.Template.Basic

/-! The pieces of a template's source. A source is read once from the left: each placeholder
is replaced where it is written, and what it is replaced by is not read again. -/

namespace Unsugar.Template

open StringLiteral (ok_of_bind)

/-- A piece of a source: a placeholder, or a character between placeholders. -/
inductive Piece where
  | char (value : Char)
  | placeholder (value : Placeholder)

/-- Whether a placeholder can be written: its name is a word of letters, digits and
underscores. -/
def Placeholder.isNamed (placeholder : Placeholder) : Bool :=
  match placeholder.name.toList with
  | [] => false
  | first :: rest => isNameStart first && rest.all isNamePart

/-- The pieces of a source: a placeholder wherever one is written, and the characters
between. -/
inductive Split : List Char → List Piece → Prop
  | done : Split [] []
  | placeholder {placeholder : Placeholder} {rest : List Char} {pieces : List Piece} :
      placeholder.isNamed = true → Split rest pieces →
      Split (placeholder.text.toList ++ rest) (.placeholder placeholder :: pieces)
  | char {first : Char} {rest : List Char} {pieces : List Piece} :
      (∀ placeholder : Placeholder, placeholder.isNamed = true →
        ¬ placeholder.text.toList <+: first :: rest) →
      Split rest pieces → Split (first :: rest) (.char first :: pieces)

/-- What is written for a piece. -/
def Piece.expand (values : Values) : Piece → Except Error (List Char)
  | char value => .ok [value]
  | placeholder value => String.toList <$> value.expand values

/-- What is written for the pieces of a source, in their order. -/
def spell (values : Values) : List Piece → Except Error (List Char)
  | [] => .ok []
  | first :: rest => do
    let text ← first.expand values
    return text ++ (← spell values rest)

/-- The name of a placeholder of a kind. -/
def Piece.name? (kind : Kind) : Piece → Option String
  | char _ => none
  | placeholder value => if value.kind = kind then some value.name else none

/-- The names of the placeholders of a kind. -/
def namesOf (kind : Kind) (pieces : List Piece) : List String :=
  pieces.filterMap (Piece.name? kind)

/-- The statements that a value is. An empty list is `pass`. -/
def Value.statements? : Value → Option (List Stmt)
  | stmt value => some [value]
  | stmts [] => some [.branch .unknown .pass]
  | stmts values => some values
  | _ => none

/-! ## One placeholder -/

theorem Placeholder.toList_text (placeholder : Placeholder) :
    placeholder.text.toList =
      '\x7b' :: (placeholder.name.toList ++ (':' :: placeholder.kind.text.toList ++ ['\x7d'])) := by
  simp [Placeholder.text, String.toList_append]

/-- What is found where a placeholder is looked for is written there. -/
theorem placeholder?_eq_some {chars : List Char} {placeholder : Placeholder} {length : Nat}
    (found : placeholder? chars = some (placeholder, length)) :
    placeholder.isNamed = true ∧ length = placeholder.text.length ∧
      ∃ rest, chars = placeholder.text.toList ++ rest := by
  unfold placeholder? at found
  split at found
  · rename_i first rest
    dsimp only at found
    split at found
    · rename_i kind search
      split at found
      · rename_i start
        cases found
        have written := List.find?_some search
        rw [List.isPrefixOf_iff_prefix] at written
        rcases written with ⟨after, split⟩
        refine ⟨?_, rfl, after, ?_⟩
        · simp [Placeholder.isNamed, start]
        · rw [Placeholder.toList_text, String.toList_ofList]
          simp only [List.cons_append, List.append_assoc] at split ⊢
          rw [split, List.takeWhile_append_dropWhile]
      · cases found
    · cases found
  · cases found

/-- A placeholder is found where it is written. -/
theorem placeholder?_text {placeholder : Placeholder} (named : placeholder.isNamed = true)
    (rest : List Char) :
    placeholder? (placeholder.text.toList ++ rest) =
      some (placeholder, placeholder.text.length) := by
  rcases placeholder with ⟨name, kind⟩
  unfold Placeholder.isNamed at named
  split at named
  · cases named
  · rename_i first more spelled
    dsimp only at spelled
    simp only [Bool.and_eq_true, List.all_eq_true] at named
    have stop : isNamePart ':' = false := by decide
    have whole : (Placeholder.mk name kind).text.toList ++ rest =
        '\x7b' :: first :: (more ++ ':' :: (kind.text.toList ++ '\x7d' :: rest)) := by
      rw [Placeholder.toList_text, spelled]
      simp
    have taken : (more ++ ':' :: (kind.text.toList ++ '\x7d' :: rest)).takeWhile isNamePart =
        more := by
      rw [List.takeWhile_append_of_pos named.2, List.takeWhile_cons_of_neg (by simp [stop]),
        List.append_nil]
    have dropped : (more ++ ':' :: (kind.text.toList ++ '\x7d' :: rest)).dropWhile isNamePart =
        ':' :: (kind.text.toList ++ '\x7d' :: rest) := by
      rw [List.dropWhile_append_of_pos named.2, List.dropWhile_cons_of_neg (by simp [stop])]
    have search : (Kind.all.find? fun kind' =>
        (':' :: kind'.text.toList ++ ['\x7d']).isPrefixOf
          (':' :: (kind.text.toList ++ '\x7d' :: rest))) = some kind := by
      cases kind <;> simp [Kind.all, Kind.text, List.find?, List.isPrefixOf]
    have same : String.ofList (first :: more) = name := by rw [← spelled, String.ofList_toList]
    rw [whole, placeholder?, taken, dropped, search]
    simp only [named.1, if_true, same]

/-- What follows a placeholder, counted from its second character. -/
theorem drop_text {placeholder : Placeholder} {first : Char} {rest after : List Char}
    (whole : first :: rest = placeholder.text.toList ++ after) :
    rest.drop (placeholder.text.length - 1) = after := by
  have size : placeholder.text.length = placeholder.text.toList.length :=
    String.length_toList.symm
  have tail := congrArg List.tail whole
  rw [Placeholder.toList_text, List.tail_cons, List.cons_append, List.tail_cons] at tail
  rw [size, Placeholder.toList_text, List.length_cons, Nat.add_sub_cancel, tail, List.drop_left]

/-! ## The whole source -/

/-- A source has its pieces in one way. -/
theorem Split.unique {chars : List Char} {pieces others : List Piece}
    (first : Split chars pieces) (second : Split chars others) : pieces = others := by
  generalize same : chars = again at second
  induction first generalizing again others with
  | done =>
    cases second with
    | done => rfl
    | placeholder => simp [Placeholder.toList_text] at same
    | char => cases same
  | placeholder named _ unique =>
    cases second with
    | done => simp [Placeholder.toList_text] at same
    | placeholder named' rest' =>
      have found := congrArg placeholder? same
      rw [placeholder?_text named, placeholder?_text named'] at found
      cases found
      rw [unique _ (List.append_cancel_left same) rest']
    | char free _ => exact absurd ⟨_, same⟩ (free _ named)
  | char free _ unique =>
    cases second with
    | done => cases same
    | placeholder named' _ => exact absurd ⟨_, same.symm⟩ (free _ named')
    | char _ rest' =>
      cases same
      rw [unique _ rfl rest']

/-- A source that is expanded has pieces, and each of them is replaced once. -/
theorem expand_eq_ok {values : Values} {chars : List Char} {skipped : Nat} {text : List Char}
    (expanded : expand values skipped chars = .ok text) :
    ∃ pieces, Split (chars.drop skipped) pieces ∧ spell values pieces = .ok text := by
  induction chars generalizing skipped text with
  | nil =>
    rw [List.drop_nil]
    rw [expand] at expanded
    exact ⟨[], .done, expanded⟩
  | cons first rest induction =>
    match skipped with
    | skipped + 1 => exact induction expanded
    | 0 =>
      rw [expand] at expanded
      split at expanded
      · rename_i placeholder length found
        rcases placeholder?_eq_some found with ⟨named, rfl, after, whole⟩
        rcases ok_of_bind expanded with ⟨written, here, expanded⟩
        rcases ok_of_bind expanded with ⟨more, there, expanded⟩
        rcases induction there with ⟨pieces, split, spelled⟩
        rw [drop_text whole] at split
        refine ⟨.placeholder placeholder :: pieces, ?_, ?_⟩
        · rw [List.drop_zero, whole]
          exact .placeholder named split
        · rw [spell, Piece.expand, here, spelled]
          exact expanded
      · rename_i missing
        rcases ok_of_bind expanded with ⟨more, there, expanded⟩
        rcases induction there with ⟨pieces, split, spelled⟩
        refine ⟨.char first :: pieces, .char ?_ split, ?_⟩
        · rintro placeholder named ⟨after, written⟩
          rw [← written, placeholder?_text named] at missing
          cases missing
        · rw [spell, Piece.expand, spelled]
          exact expanded

/-- The pieces of a source without placeholders are its characters. -/
theorem Split.plain {chars rest : List Char} {pieces : List Piece}
    (free : '\x7b' ∉ chars) (split : Split rest pieces) :
    Split (chars ++ rest) (chars.map .char ++ pieces) := by
  induction chars with
  | nil => exact split
  | cons first more induction =>
    rw [List.mem_cons, not_or] at free
    refine .char ?_ (induction free.2)
    intro placeholder _ written
    rw [Placeholder.toList_text, List.cons_append, List.cons_prefix_cons] at written
    exact free.1 written.1

/-! ## Bound placeholders -/

/-- Each placeholder of a source that is expanded can be replaced. -/
theorem expand_of_spell {values : Values} {pieces : List Piece} {text : List Char}
    {placeholder : Placeholder} (spelled : spell values pieces = .ok text)
    (member : .placeholder placeholder ∈ pieces) :
    ∃ written, placeholder.expand values = .ok written := by
  induction pieces generalizing text with
  | nil => cases member
  | cons first rest induction =>
    rcases ok_of_bind spelled with ⟨front, here, spelled⟩
    rcases ok_of_bind spelled with ⟨after, later, _⟩
    cases member with
    | head =>
      cases written : placeholder.expand values with
      | error fault =>
        rw [Piece.expand, written] at here
        cases here
      | ok text => exact ⟨text, rfl⟩
    | tail _ member => exact induction later member

section

variable {values : Values} {pieces : List Piece} {text : List Char} {name : String}

theorem placeholder_of_namesOf {kind : Kind} (member : name ∈ namesOf kind pieces) :
    .placeholder ⟨name, kind⟩ ∈ pieces := by
  rcases List.mem_filterMap.mp member with ⟨piece, there, named⟩
  cases piece with
  | char => cases named
  | placeholder value =>
    rcases value with ⟨found, kind'⟩
    rw [Piece.name?] at named
    split at named
    · rename_i same
      cases same
      cases named
      exact there
    · cases named

/-- The placeholder of an expression is bound to one. -/
theorem lookup_expr (spelled : spell values pieces = .ok text)
    (member : name ∈ namesOf .expr pieces) :
    ∃ value, values.lookup name = some (.expr value) := by
  rcases expand_of_spell spelled (placeholder_of_namesOf member) with ⟨written, expanded⟩
  rw [Placeholder.expand] at expanded
  cases bound : values.lookup name with
  | none =>
    rw [bound] at expanded
    cases expanded
  | some value =>
    rw [bound] at expanded
    cases value with
    | expr value => exact ⟨value, rfl⟩
    | _ => cases expanded

/-- The placeholder of statements is bound to some. -/
theorem lookup_stmt (spelled : spell values pieces = .ok text)
    (member : name ∈ namesOf .stmt pieces) :
    ∃ value body, values.lookup name = some value ∧ value.statements? = some body := by
  rcases expand_of_spell spelled (placeholder_of_namesOf member) with ⟨written, expanded⟩
  rw [Placeholder.expand] at expanded
  cases bound : values.lookup name with
  | none =>
    rw [bound] at expanded
    cases expanded
  | some value =>
    rw [bound] at expanded
    cases value with
    | stmt value => exact ⟨_, _, rfl, rfl⟩
    | stmts values =>
      cases values with
      | nil => exact ⟨_, _, rfl, rfl⟩
      | cons first rest => exact ⟨_, _, rfl, rfl⟩
    | _ => cases expanded

end

end Unsugar.Template
