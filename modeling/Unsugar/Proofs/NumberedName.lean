import Unsugar.Definition.Function
import Unsugar.Proofs.Outcome

/-! Numbered names read back. A generated name has one base and one number, whatever
underscores and digits the base has, so a function that is renamed still displays as the
name it had. -/

namespace Unsugar

/-! ## The last underscore -/

theorem splitLastUnderscore?_append {front digits : List Char} (none : '_' ∉ digits) :
    splitLastUnderscore? (front ++ '_' :: digits) = some (front, digits) := by
  have run : (front ++ '_' :: digits).reverse.takeWhile (· != '_') = digits.reverse := by
    have plain : ∀ char ∈ digits.reverse, (char != '_') = true := by
      intro char member
      rw [bne_iff_ne]
      rintro rfl
      exact none (List.mem_reverse.mp member)
    rw [List.reverse_append, List.reverse_cons, List.append_assoc,
      List.takeWhile_append_of_pos plain]
    simp
  unfold splitLastUnderscore?
  rw [run]
  simp

theorem afterFront?_append (front rest : String) :
    afterFront? front (front ++ rest) = some rest.toList := by
  rw [afterFront?, if_pos (beginsWithText_append front rest), String.toList_append,
    ← String.length_toList, List.drop_left]

/-! ## Digits -/

theorem isDecimal_toDigits (number : Nat) : isDecimal (Nat.toDigits 10 number) = true := by
  rw [isDecimal, Bool.and_eq_true, List.all_eq_true]
  constructor
  · simp [Nat.toDigits_ne_nil]
  · intro char member
    have digit := Nat.isDigit_of_mem_toDigits (by decide) (by decide) member
    simpa [Char.isDigit, Char.le_def] using digit

theorem underscore_notMem_toDigits (number : Nat) : '_' ∉ Nat.toDigits 10 number := by
  intro member
  have digit := Nat.isDigit_of_mem_toDigits (by decide) (by decide) member
  cases digit

theorem value_toDigits (number : Nat) : (Nat.toDigits 10 number).foldl
    (fun value char => value * 10 + (char.toNat - '0'.toNat)) 0 = number := by
  have read : Nat.ofDigitChars 10 (Nat.toDigits 10 number) 0 = number :=
    Nat.ofDigitChars_ten_toDigits
  rw [Nat.ofDigitChars_eq_foldl] at read
  simpa only [Nat.mul_comm] using read

/-! ## Numbered names -/

/-- What stands after the mark of a generated name: the base, an underscore, the number. -/
theorem split_numbered (base : String) (number : Nat) :
    splitLastUnderscore? (base ++ "_" ++ toString number).toList =
      some (base.toList, Nat.toDigits 10 number) := by
  have chars : (base ++ "_" ++ toString number).toList =
      base.toList ++ '_' :: Nat.toDigits 10 number := by
    simp
  rw [chars, splitLastUnderscore?_append (underscore_notMem_toDigits number)]

/-- A numbered name has its base exactly if sixty-four bits hold the number. -/
theorem freshBase?_numberedName (base : String) (number : Nat) :
    freshBase? (numberedName base number) =
      if number < Nat.pow 2 64 then some ("_dp_" ++ base) else none := by
  have rest : afterFront? "_dp_" (numberedName base number) =
      some (base ++ "_" ++ toString number).toList := by
    rw [← afterFront?_append "_dp_"]
    simp only [numberedName, String.append_assoc]
  unfold freshBase?
  simp only [rest, Option.bind_eq_bind, Option.bind_some, split_numbered, value_toDigits,
    isDecimal_toDigits, Bool.true_and, String.ofList_toList, decide_eq_true_eq]

theorem exists_of_freshBase? {name base : String} (found : freshBase? name = some base) :
    ∃ front, base = "_dp_" ++ front := by
  unfold freshBase? at found
  simp only [Option.bind_eq_bind, Option.bind_eq_some_iff] at found
  obtain ⟨rest, -, parts, -, found⟩ := found
  split at found
  · exact ⟨_, (Option.some.inj found).symm⟩
  · cases found

/-- A numbered name tells its base and its number. -/
theorem numberedName_inj {base other : String} {number count : Nat} :
    numberedName base number = numberedName other count ↔ base = other ∧ number = count := by
  constructor
  · intro equal
    have rests : base ++ "_" ++ toString number = other ++ "_" ++ toString count := by
      simpa [numberedName, String.append_assoc, String.append_right_inj] using equal
    have parts : (base.toList, Nat.toDigits 10 number) = (other.toList, Nat.toDigits 10 count) := by
      have splits := congrArg (fun text => splitLastUnderscore? text.toList) rests
      simpa only [split_numbered, Option.some.injEq] using splits
    have bases : base.toList = other.toList := congrArg Prod.fst parts
    have digits : Nat.toDigits 10 number = Nat.toDigits 10 count := congrArg Prod.snd parts
    constructor
    · exact String.toList_inj.mp bases
    · rw [← value_toDigits number, digits, value_toDigits]
  · rintro ⟨rfl, rfl⟩
    rfl

/-- No function made from an expression has a name that renaming gives. -/
theorem find?_helperNames (rest : String) :
    helperNames.find? (fun (front, _) => beginsWithText front ("_dp_fn_" ++ rest)) = none := by
  simp [helperNames, beginsWithText]

/-- A renamed function displays as the name it had. -/
theorem displayName_numberedName {name : String} (named : name ≠ "") (number : Nat) :
    displayName (numberedName ("fn_" ++ name) number) = name := by
  have whole : numberedName ("fn_" ++ name) number =
      "_dp_fn_" ++ (name ++ "_" ++ toString number) := by
    rw [← String.toList_inj]
    simp [numberedName]
  have nonempty : name.toList.isEmpty = false := by
    rw [List.isEmpty_eq_false_iff]
    simpa using named
  unfold displayName
  rw [whole, find?_helperNames, afterFront?_append]
  simp only [split_numbered, isDecimal_toDigits, nonempty, Bool.not_false, Bool.true_and, if_true,
    String.ofList_toList]

/-! ## Fresh names -/

namespace Definition

theorem saveDecorators_succeeds (decorators : List Expr) :
    Desugar.Gives (fun _ => False) (fun _ => True) (saveDecorators decorators) := by
  induction decorators with
  | nil => exact .pure trivial
  | cons first rest later =>
    rw [saveDecorators]
    split
    · exact later.bind fun _ _ => .pure trivial
    · exact (Desugar.Gives.fresh "dec").bind fun _ _ => later.bind fun _ _ => .pure trivial

/-- Statements that define a function under a generated name from which its own name can
be read, and store it under its own name. -/
def DefinesReadably (head : FunctionHead) (body stmts : List Stmt) : Prop :=
  ∃ (ahead : List Stmt) (generated : String) (value : Expr),
    stmts = ahead ++
      [({ head with decorators := [], ident := ⟨head.ident.position, generated⟩ }).withBody body,
        .store head.ident.name value, .drop generated] ∧
    displayName generated = head.ident.name

theorem sourceFunction_definesReadably {head : FunctionHead} (named : head.ident.name ≠ "")
    (body : List Stmt) (qualname : String) :
    Desugar.Gives (fun _ => False) (DefinesReadably head body)
      (sourceFunction head body qualname) := by
  rw [sourceFunction]
  apply (Desugar.Gives.fresh_numbered _).bind
  intro generated numbered
  rcases numbered with ⟨number, numbered⟩
  have naming : Desugar.Gives (fun _ => False) (fun _ => True)
      (nameFunction generated head.ident.name qualname) := fun _ _ => ⟨trivial, rfl⟩
  apply naming.bind
  intro _ _
  apply (saveDecorators_succeeds head.decorators).bind
  intro (ahead, decorators) _
  apply (Desugar.Gives.note _).bind
  intro _ _
  apply Desugar.Gives.pure
  refine ⟨ahead, generated, _, rfl, ?_⟩
  rw [numbered]
  exact displayName_numberedName named number

end Definition

/-- Generated names can be read back. A function's name is what its generated name displays
as, and the base of a numbered name is what comes out when the number is taken off. So fresh
names with different bases or numbers differ, and a function that is renamed stays
recognizable. -/
theorem generatedNames_read_back :
    (∀ (name : String) (number : Nat), name ≠ "" →
      displayName (numberedName ("fn_" ++ name) number) = name) ∧
    (∀ (base : String) (number : Nat), number < Nat.pow 2 64 →
      freshBase? (numberedName base number) = some ("_dp_" ++ base)) ∧
    (∀ (left right : Context) (base other : String),
      (left.fresh base).1 = (right.fresh other).1 ↔
        base = other ∧ (left.fresh base).2.counter = (right.fresh other).2.counter) ∧
    ∀ (head : FunctionHead) (body : List Stmt) (qualname : String), head.ident.name ≠ "" →
      Desugar.Gives (fun _ => False) (Definition.DefinesReadably head body)
        (Definition.sourceFunction head body qualname) := by
  refine ⟨?_, ?_, ?_, ?_⟩
  · intro name number named
    exact displayName_numberedName named number
  · intro base number small
    rw [freshBase?_numberedName]
    exact if_pos small
  · intro left right base other
    exact numberedName_inj
  · intro head body qualname named
    exact Definition.sourceFunction_definesReadably named body qualname

/-- A name that looks like a generated one, and a number without a base. -/
theorem generatedNames_read_back_lookalike :
    displayName (numberedName ("fn_" ++ "_dp_lambda_1_") 7) = "_dp_lambda_1_" ∧
    freshBase? (numberedName "" 7) = some "_dp_" :=
  ⟨generatedNames_read_back.1 "_dp_lambda_1_" 7 (by decide),
    generatedNames_read_back.2.1 "" 7 (by decide)⟩

end Unsugar
