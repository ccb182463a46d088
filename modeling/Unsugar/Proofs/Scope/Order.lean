import Mathlib.Tactic.Choose
import Unsugar.Proofs.Scope.Collected

/-! Where the names of a body live does not depend on the order of its statements. What a
statement notes is the same whatever was noted before it, so a body notes the mentions of
its statements one after the other; and of a name only the declarations, and whether it is
bound at all, matter in the end. -/

namespace Unsugar

/-! ## Declarations among mentions -/

namespace Mentions

variable {mentions others : List Mention} {name : String}

/-- The declarations among mentions, in order. -/
def declared (mentions : List Mention) : List (Declaration × String) :=
  mentions.filterMap fun
    | .declare declaration ident => some (declaration, ident.name)
    | _ => none

@[simp] theorem declared_append (first second : List Mention) :
    declared (first ++ second) = declared first ++ declared second :=
  List.filterMap_append

theorem mem_declared {declaration : Declaration} : (declaration, name) ∈ declared mentions ↔
    ∃ mention ∈ mentions, mention.declaration? name = some declaration := by
  rw [declared, List.mem_filterMap]
  refine exists_congr fun mention => and_congr_right fun _ => ?_
  cases mention <;> simp [Mention.declaration?, and_comm]

/-- A name that is not declared in two ways is declared as any of its declarations says. -/
theorem declaration?_eq_some {declaration : Declaration}
    (consistent : ∀ first second, (first, name) ∈ declared mentions →
      (second, name) ∈ declared mentions → first = second) :
    declaration? mentions name = some declaration ↔ (declaration, name) ∈ declared mentions := by
  constructor
  · intro found
    exact mem_declared.mpr (List.exists_of_findSome?_eq_some found)
  · intro member
    obtain ⟨mention, isMember, found⟩ := mem_declared.mp member
    obtain ⟨first, isFirst⟩ : ∃ first, declaration? mentions name = some first :=
      Option.isSome_iff_exists.mp
        (List.findSome?_isSome_iff.mpr ⟨mention, isMember, by simp [found]⟩)
    have firstMember := mem_declared.mpr (List.exists_of_findSome?_eq_some isFirst)
    rw [isFirst, consistent first declaration firstMember member]

theorem binds_perm (permuted : mentions.Perm others) : binds mentions name = binds others name :=
  permuted.any_eq

theorem declaration?_perm (permuted : mentions.Perm others)
    (consistent : ∀ first second, (first, name) ∈ declared mentions →
      (second, name) ∈ declared mentions → first = second) :
    declaration? mentions name = declaration? others name := by
  have declaredPermuted : (declared mentions).Perm (declared others) := permuted.filterMap _
  refine Option.ext fun declaration => ?_
  rw [declaration?_eq_some consistent, declaration?_eq_some, declaredPermuted.mem_iff]
  simpa only [declaredPermuted.mem_iff] using consistent

end Mentions

/-! ## What statements note -/

namespace Collector

/-- A collector notes the same mentions, and gives the same value, whatever was noted before
it. The declarations among the mentions are the `declared` ones. -/
def Steady (kind : ScopeKind) {α : Type} (declared : List (Declaration × String))
    (collector : Collector α) : Prop :=
  ∃ value mentions, Mentions.declared mentions = declared ∧
    ∀ names, collector.run names = (value, names.noteAll kind mentions)

theorem steady_closed (kind : ScopeKind) : Closed kind (Steady kind) where
  pure value := ⟨value, [], rfl, fun _ => rfl⟩
  bind := by
    rintro α β _ _ collector next ⟨value, before, rfl, first⟩ rest
    obtain ⟨result, after, rfl, second⟩ := rest value
    refine ⟨result, before ++ after, Mentions.declared_append before after, fun names => ?_⟩
    have step : (collector >>= next).run names =
        (next (collector.run names).1).run (collector.run names).2 := rfl
    rw [step, first names, second, Names.noteAll, Names.noteAll, Names.noteAll, List.foldl_append]
  binds name := ⟨(), [.bind name], rfl, fun _ => rfl⟩
  uses name := ⟨(), [.load name], rfl, fun _ => rfl⟩
  defines name := ⟨(), [.function name], rfl, fun _ => rfl⟩
  declares declaration idents := by
    refine ⟨(), idents.map (.declare declaration), ?_, fun names => ?_⟩
    · rw [Mentions.declared, List.filterMap_map]
      exact List.filterMap_eq_map.symm ▸ rfl
    · rw [Names.noteAll, List.foldl_map]
      rfl

/-- Each statement has mentions that it notes wherever it stands in a body. -/
theorem exists_mentions (kind : ScopeKind) : ∃ mentionsOf : Stmt → List Mention,
    (∀ body : List Stmt,
      Mentions.declared (body.flatMap mentionsOf) = Stmt.declarationsOfBody body) ∧
    ∀ body, Notes kind (body.flatMap mentionsOf) (stmts kind body) := by
  have steady := stmt_closed (steady_closed kind)
  choose _ mentionsOf declared notes using steady
  refine ⟨mentionsOf, fun body => ?_, fun body => ?_⟩
  · induction body with
    | nil => rfl
    | cons first rest induction =>
      rw [List.flatMap_cons, Mentions.declared_append, declared, induction]
      rfl
  · induction body with
    | nil => exact .pure
    | cons first rest induction =>
      rw [List.flatMap_cons]
      exact Notes.bind (notes first) induction

end Collector

/-! ## Reserved names -/

namespace Names

variable {name : String} {seen : Bool} {names : Names}

/-- Whether a name is a parameter or was declared. -/
def notes (names : Names) (name : String) : Bool :=
  names.params.contains name || names.nonlocals.contains name || names.globals.contains name

/-- A reserved name is bound in the body itself once it is bound or declared in any way. -/
structure Confines (name : String) (seen : Bool) (names : Names) : Prop where
  binding : names.binding? name = if seen then some .own else none
  noted : names.notes name = true → seen = true

theorem Confines.of_bind (reserved : isReserved name = true) (added : String) (binding : Binding)
    (before : names.binding? name = if seen then some .own else none)
    (noted : names.notes name = true → (seen || decide (name = added)) = true) :
    Confines name (seen || decide (name = added)) (names.bind added binding) := by
  refine ⟨?_, noted⟩
  rw [Names.bind, binding?, setEntry_lookup]
  by_cases same : name = added
  · subst same
    cases seen <;> simp [before, reserved, Binding.merge]
  · simp only [same, if_false, decide_false, Bool.or_false]
    exact before

theorem Confines.bind (confines : Confines name seen names) (reserved : isReserved name = true)
    (added : String) : Confines name (seen || decide (name = added)) (names.bind added .own) :=
  .of_bind reserved added .own confines.binding fun noted => by simp [confines.noted noted]

theorem Confines.declare {kind : ScopeKind} (confines : Confines name seen names)
    (reserved : isReserved name = true) (inside : kind ≠ .moduleScope)
    (declaration : Declaration) (ident : Ident) :
    Confines name (seen || decide (name = ident.name)) (names.declare kind declaration ident) := by
  -- A declaration is refused only for a name that was noted before.
  have refused (complaint : ScopeComplaint) (found : names.notes ident.name = true) :
      Confines name (seen || decide (name = ident.name)) (names.fail ident.position complaint) := by
    have unchanged : (seen || decide (name = ident.name)) = seen := by
      by_cases same : name = ident.name
      · simp [confines.noted (same ▸ found)]
      · simp [same]
    rw [unchanged]
    exact ⟨confines.binding, confines.noted⟩
  have followed : Confines name (seen || decide (name = ident.name))
      (names.follow declaration ident) := by
    have noted : (names.notes name || decide (name = ident.name)) = true →
        (seen || decide (name = ident.name)) = true := by
      rw [Bool.or_eq_true, Bool.or_eq_true]
      exact Or.imp_left confines.noted
    unfold follow
    cases declaration with
    | «nonlocal» =>
      have bound := @Confines.of_bind name seen
        { names with nonlocals := insertNew ident.name names.nonlocals } reserved ident.name
        Declaration.nonlocal.binding confines.binding fun found => noted (by
          simp only [notes, insertNew_contains] at found ⊢
          grind)
      exact ⟨by simpa using bound.binding, by simpa [notes] using bound.noted⟩
    | global =>
      have bound := @Confines.of_bind name seen
        { names with globals := insertNew ident.name names.globals } reserved ident.name
        Declaration.global.binding confines.binding fun found => noted (by
          simp only [notes, insertNew_contains] at found ⊢
          grind)
      exact ⟨by simpa using bound.binding, by simpa [notes] using bound.noted⟩
  unfold Names.declare
  cases declaration with
  | «nonlocal» =>
    refine iteInduction (fun isModule => absurd isModule inside) fun _ => ?_
    refine iteInduction (fun found => refused _ ?_) fun _ => ?_
    · simp only [notes, found, Bool.or_true]
    · exact iteInduction (fun found => refused _ (by simp only [notes, found, Bool.true_or]))
        fun _ => followed
  | global =>
    refine iteInduction (fun found => refused _ ?_) fun _ => ?_
    · simp only [notes, found, Bool.or_true, Bool.true_or]
    · exact iteInduction (fun found => refused _ (by simp only [notes, found, Bool.true_or]))
        fun _ => followed

end Names

/-- Whether a mention says anything about where a name lives. -/
def Mention.places (name : String) (mention : Mention) : Bool :=
  mention.binds name || (mention.declaration? name).isSome

namespace Names

variable {name : String} {seen : Bool} {names : Names}

theorem Confines.note {kind : ScopeKind} (confines : Confines name seen names)
    (reserved : isReserved name = true) (inside : kind ≠ .moduleScope) (mention : Mention) :
    Confines name (seen || mention.places name) (names.note kind mention) := by
  have binds (added : String) : Confines name (seen || (decide (added = name) || false))
      (names.bind added .own) := by
    rw [Bool.or_false, decide_eq_decide.mpr eq_comm]
    exact confines.bind reserved added
  cases mention with
  | load added =>
    have silent : (Mention.load added).places name = false := rfl
    rw [silent, Bool.or_false]
    exact ⟨confines.binding, confines.noted⟩
  | bind added | imported added => exact binds added
  | function added => exact ⟨(binds added).binding, (binds added).noted⟩
  | lent added =>
    rw [Names.note, if_neg inside]
    exact binds added
  | declare declaration ident =>
    have places : (Mention.declare declaration ident).places name = decide (name = ident.name) := by
      by_cases same : ident.name = name
      · simp [Mention.places, Mention.declaration?, same]
      · simp [Mention.places, Mention.binds, Mention.declaration?, same, Ne.symm same]
    rw [places]
    exact confines.declare reserved inside declaration ident

theorem Confines.noteAll {kind : ScopeKind} (reserved : isReserved name = true)
    (inside : kind ≠ .moduleScope) :
    ∀ (mentions : List Mention) {seen : Bool} {names : Names}, Confines name seen names →
      Confines name (seen || mentions.any (·.places name)) (names.noteAll kind mentions)
  | [], _, _, confines => by
    rw [List.any_nil, Bool.or_false]
    exact confines
  | first :: rest, _, _, confines => by
    have later := noteAll reserved inside rest (confines.note reserved inside first)
    rw [Bool.or_assoc, ← List.any_cons] at later
    exact later

theorem addParams_confines (reserved : isReserved name = true) :
    ∀ (params : List String) {seen : Bool} {names : Names}, Confines name seen names →
      Confines name (seen || params.contains name) (params.foldl (fun names name =>
        { names with params := insertNew name names.params }.bind name .own) names)
  | [], _, _, confines => by simpa using confines
  | first :: rest, seen, names, confines => by
    have added : Confines name (seen || decide (name = first))
        ({ names with params := insertNew first names.params }.bind first .own) :=
      .of_bind reserved first .own confines.binding fun found => by
        have before := confines.noted
        simp only [notes, insertNew_contains] at found before
        grind
    simpa [Bool.or_assoc] using addParams_confines reserved rest added

theorem ofOutline_confines (outline : Outline) (inside : outline.kind ≠ .moduleScope)
    (reserved : isReserved name = true) :
    Confines name (outline.params.contains name || outline.mentions.any (·.places name))
      (ofOutline outline) := by
  have started : Confines name false {} := ⟨rfl, nofun⟩
  have params := addParams_confines reserved outline.params started
  rw [Bool.false_or] at params
  exact params.noteAll reserved inside outline.mentions

/-- Mentions in another order bind a name in the same way, unless it is declared in two. -/
theorem ofOutline_binding?_perm {kind : ScopeKind} (inside : kind ≠ .moduleScope) (title : String)
    (params nonlocals : List String) (inner : List Outline) {mentions others : List Mention}
    (permuted : mentions.Perm others)
    (consistent : ∀ first second, (first, name) ∈ Mentions.declared mentions →
      (second, name) ∈ Mentions.declared mentions → first = second) :
    (ofOutline (.mk kind title params mentions nonlocals inner)).binding? name =
      (ofOutline (.mk kind title params others nonlocals inner)).binding? name := by
  cases isKept : isReserved name with
  | true =>
    have first := ofOutline_confines (.mk kind title params mentions nonlocals inner) inside isKept
    have second := ofOutline_confines (.mk kind title params others nonlocals inner) inside isKept
    have same : mentions.any (·.places name) = others.any (·.places name) := permuted.any_eq
    rw [first.binding, second.binding, Outline.mentions, Outline.mentions, same]
    rfl
  | false =>
    have first := ofOutline_tells (.mk kind title params mentions nonlocals inner) inside isKept
    have second := ofOutline_tells (.mk kind title params others nonlocals inner) inside isKept
    rw [first.binding, second.binding, Outline.mentions, Outline.mentions,
      Mentions.binds_perm permuted, Mentions.declaration?_perm permuted consistent]
    rfl

/-- A name lives outside a body exactly if it is no reserved name and no parameter, and is
declared to live there. -/
theorem ofOutline_outside {outline : Outline} (inside : outline.kind ≠ .moduleScope)
    (declaration : Declaration)
    (consistent : ∀ first second, (first, name) ∈ Mentions.declared outline.mentions →
      (second, name) ∈ Mentions.declared outline.mentions → first = second) :
    (ofOutline outline).binding? name = some declaration.binding ↔
      isReserved name = false ∧ name ∉ outline.params ∧
        (declaration, name) ∈ Mentions.declared outline.mentions := by
  have outside : declaration.binding ≠ .own := by cases declaration <;> decide
  cases isKept : isReserved name with
  | true =>
    rw [(ofOutline_confines outline inside isKept).binding]
    split
    · simpa using outside.symm
    · simp
  | false =>
    rw [(ofOutline_tells outline inside isKept).binding, ← Mentions.declaration?_eq_some consistent]
    by_cases isParam : name ∈ outline.params
    · simpa [Binding.among, isParam] using outside.symm
    · cases declared : Mentions.declaration? outline.mentions name with
      | none =>
        cases Mentions.binds outline.mentions name <;>
          simp [Binding.among, isParam, outside.symm]
      | some found =>
        cases found <;> cases declaration <;> simp [Binding.among, isParam, Declaration.binding]

end Names

/-! ## The order of statements -/

/-- Two bodies whose statements are the same but for their order bind the same names in the
same ways, if no name is declared both global and nonlocal. A name lives outside exactly if
it is no reserved name and no parameter and the body declares it so. -/
theorem collect_unordered (params : List Param) {body others : List Stmt}
    (permuted : body.Perm others)
    (consistent : ∀ name, (.global, name) ∈ Stmt.declarationsOfBody body →
      (.nonlocal, name) ∉ Stmt.declarationsOfBody body) :
    (collect .functionScope params body).binding? =
        (collect .functionScope params others).binding? ∧
      ∀ (declaration : Declaration) (name : String),
        (collect .functionScope params body).binding? name = some declaration.binding ↔
          isReserved name = false ∧ name ∉ Collector.paramNames params ∧
            (declaration, name) ∈ Stmt.declarationsOfBody body := by
  obtain ⟨mentionsOf, declared, notes⟩ := Collector.exists_mentions .functionScope
  have inside : ScopeKind.functionScope ≠ .moduleScope := by decide
  have agree : ∀ name first second,
      (first, name) ∈ Mentions.declared (body.flatMap mentionsOf) →
      (second, name) ∈ Mentions.declared (body.flatMap mentionsOf) → first = second := by
    intro name first second isFirst isSecond
    rw [declared] at isFirst isSecond
    cases first <;> cases second
    · rfl
    · exact absurd isSecond (consistent name isFirst)
    · exact absurd isFirst (consistent name isSecond)
    · rfl
  refine ⟨funext fun name => ?_, fun declaration name => ?_⟩
  · rw [collect_of_notes (notes body) "" params [] [],
      collect_of_notes (notes others) "" params [] []]
    exact Names.ofOutline_binding?_perm inside "" _ [] [] (permuted.flatMap_right mentionsOf)
      (agree name)
  · rw [collect_of_notes (notes body) "" params [] [], ← declared body]
    refine Names.ofOutline_outside ?_ declaration (agree name)
    exact inside

/-- `global total`, `total = 1` and `if start: nonlocal count`. -/
def tallyBody : List Stmt :=
  [.declare .unknown .global [⟨.unknown, "total"⟩], .store "total" (.ofNat 1),
   .choose (.ofName "start") [.declare .unknown .nonlocal [⟨.unknown, "count"⟩]] []]

/-- Read backwards, the assignment comes ahead of the declaration. -/
theorem tallyBody_unordered :
    (collect .functionScope [.plain "start"] tallyBody).binding? =
        (collect .functionScope [.plain "start"] tallyBody.reverse).binding? ∧
      (collect .functionScope [.plain "start"] tallyBody).binding? "total" = some .global := by
  have consistent : ∀ name, (Declaration.global, name) ∈ Stmt.declarationsOfBody tallyBody →
      (Declaration.nonlocal, name) ∉ Stmt.declarationsOfBody tallyBody := by
    intro name
    change (Declaration.global, name) ∈ [(.global, "total"), (.nonlocal, "count")] →
      (Declaration.nonlocal, name) ∉ [(.global, "total"), (.nonlocal, "count")]
    simp +contextual
  have unordered := collect_unordered [.plain "start"] tallyBody.reverse_perm.symm consistent
  refine ⟨unordered.1, (unordered.2 .global "total").mpr ⟨by decide, by decide, ?_⟩⟩
  exact List.mem_cons_self

end Unsugar
