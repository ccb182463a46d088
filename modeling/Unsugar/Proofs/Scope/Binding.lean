import Unsugar.Proofs.Scope.Outline

/-! Where a name of a definition lives, read off its outline: a parameter is its own,
a declaration is followed, the first of two if they differ, and a name that is bound
otherwise is its own too. -/

namespace Unsugar

/-! ## Tables of names -/

theorem insertNew_contains (added name : String) (names : List String) :
    (insertNew added names).contains name = (names.contains name || decide (name = added)) := by
  unfold insertNew
  split
  · rename_i found
    by_cases same : name = added
    · rw [same]
      simpa using found
    · simp [same]
  · simp

theorem setEntry_lookup {α : Type} (added name : String) (value : α) :
    ∀ entries : List (String × α),
      (setEntry added value entries).lookup name =
        if name = added then some value else entries.lookup name
  | [] => by
    by_cases same : name = added
    · simp [setEntry, same]
    · simp [setEntry, List.lookup_cons, same, beq_false_of_ne same]
  | (key, old) :: rest => by
    have below := setEntry_lookup added name value rest
    by_cases found : key = added
    · by_cases same : name = added
      · simp [setEntry, found, same]
      · simp [setEntry, found, List.lookup_cons, same, beq_false_of_ne same]
    · by_cases here : name = key
      · simp [setEntry, found, here]
      · simp [setEntry, found, List.lookup_cons, beq_false_of_ne here, below]

namespace Names

variable {name : String}

/-- A name that is bound is a key of the table of bindings. -/
theorem mem_keys {names : Names} (bound : (names.binding? name).isSome) :
    name ∈ names.bindings.map Prod.fst := by
  obtain ⟨binding, found⟩ := Option.isSome_iff_exists.mp bound
  obtain ⟨front, back, split, _⟩ := List.lookup_eq_some_iff.mp found
  simp [split]

theorem bind_binding? (names : Names) (added : String) (binding : Binding)
    (user : isReserved name = false) :
    (names.bind added binding).binding? name =
      if name = added then
        some (((names.binding? name).map (·.merge binding)).getD binding)
      else names.binding? name := by
  rw [bind, binding?, setEntry_lookup]
  by_cases same : name = added
  · subst same
    simp only [if_true, user]
    cases names.binding? name <;> rfl
  · simp only [same, if_false]
    rfl

@[simp] theorem bind_params (names : Names) (added : String) (binding : Binding) :
    (names.bind added binding).params = names.params := rfl

@[simp] theorem bind_nonlocals (names : Names) (added : String) (binding : Binding) :
    (names.bind added binding).nonlocals = names.nonlocals := rfl

@[simp] theorem bind_globals (names : Names) (added : String) (binding : Binding) :
    (names.bind added binding).globals = names.globals := rfl

@[simp] theorem bind_uses (names : Names) (added : String) (binding : Binding) :
    (names.bind added binding).uses = names.uses := rfl

@[simp] theorem use_binding? (names : Names) (added : String) :
    (names.use added).binding? name = names.binding? name := rfl

@[simp] theorem noteDeclared_binding? (names : Names) (ident : Ident) :
    (names.noteDeclared ident).binding? name = names.binding? name := by
  unfold noteDeclared
  split <;> rfl

@[simp] theorem noteDeclared_params (names : Names) (ident : Ident) :
    (names.noteDeclared ident).params = names.params := by
  unfold noteDeclared
  split <;> rfl

@[simp] theorem noteDeclared_nonlocals (names : Names) (ident : Ident) :
    (names.noteDeclared ident).nonlocals = names.nonlocals := by
  unfold noteDeclared
  split <;> rfl

@[simp] theorem noteDeclared_globals (names : Names) (ident : Ident) :
    (names.noteDeclared ident).globals = names.globals := by
  unfold noteDeclared
  split <;> rfl

@[simp] theorem noteDeclared_uses (names : Names) (ident : Ident) :
    (names.noteDeclared ident).uses = names.uses := by
  unfold noteDeclared
  split <;> rfl

end Names

/-! ## Mentions of one name -/

def Declaration.binding : Declaration → Binding
  | global => .global
  | nonlocal => .nonlocal

namespace Mention

def isLoadOf (name : String) : Mention → Bool
  | load found => decide (found = name)
  | _ => false

def isImportOf (name : String) : Mention → Bool
  | imported found => decide (found = name)
  | _ => false

/-- Whether a mention binds a name in the body itself. -/
def binds (name : String) : Mention → Bool
  | bind found | imported found | function found | lent found => decide (found = name)
  | _ => false

def declaration? (name : String) : Mention → Option Declaration
  | declare declaration ident => if ident.name = name then some declaration else none
  | _ => none

end Mention

namespace Mentions

def loads (mentions : List Mention) (name : String) : Bool :=
  mentions.any (·.isLoadOf name)

def imports (mentions : List Mention) (name : String) : Bool :=
  mentions.any (·.isImportOf name)

def binds (mentions : List Mention) (name : String) : Bool :=
  mentions.any (·.binds name)

/-- The first declaration of a name. -/
def declaration? (mentions : List Mention) (name : String) : Option Declaration :=
  mentions.findSome? (·.declaration? name)

variable (first second : List Mention) (name : String)

@[simp] theorem loads_append :
    loads (first ++ second) name = (loads first name || loads second name) :=
  List.any_append

@[simp] theorem imports_append :
    imports (first ++ second) name = (imports first name || imports second name) :=
  List.any_append

@[simp] theorem binds_append :
    binds (first ++ second) name = (binds first name || binds second name) :=
  List.any_append

@[simp] theorem declaration?_append :
    declaration? (first ++ second) name =
      (declaration? first name).or (declaration? second name) :=
  List.findSome?_append

@[simp] theorem loads_singleton (mention : Mention) :
    loads [mention] name = mention.isLoadOf name := by
  simp [loads]

@[simp] theorem binds_singleton (mention : Mention) : binds [mention] name = mention.binds name := by
  simp [binds]

@[simp] theorem declaration?_singleton (mention : Mention) :
    declaration? [mention] name = mention.declaration? name := by
  simp [declaration?]

end Mentions

/-- The binding of a name that is a parameter, is declared or is bound otherwise. -/
def Binding.among (isParam : Bool) (declaration : Option Declaration) (isBound : Bool) :
    Option Binding :=
  if isParam then some .own
  else match declaration with
    | some declaration => some declaration.binding
    | none => if isBound then some .own else none

namespace Outline

/-- The binding of a name in a definition, captured names left out. -/
def binding? (outline : Outline) (name : String) : Option Binding :=
  Binding.among (outline.params.contains name) (Mentions.declaration? outline.mentions name)
    (Mentions.binds outline.mentions name)

end Outline

/-! ## What is collected -/

namespace Names

/-- What the names of a body say about one name once some mentions are noted. -/
structure Tells (name : String) (isParam : Bool) (seen : List Mention) (names : Names) : Prop where
  binding : names.binding? name =
    Binding.among isParam (Mentions.declaration? seen name) (Mentions.binds seen name)
  uses : names.uses.contains name = Mentions.loads seen name
  params : names.params.contains name = isParam
  nonlocals : names.nonlocals.contains name =
    (!isParam && decide (Mentions.declaration? seen name = some .nonlocal))
  globals : names.globals.contains name =
    (!isParam && decide (Mentions.declaration? seen name = some .global))

variable {name : String} {isParam : Bool} {seen : List Mention} {names : Names}

theorem Tells.bind (tells : Tells name isParam seen names) (user : isReserved name = false)
    {mention : Mention} {added : String} (binds : mention.binds name = decide (name = added))
    (loads : mention.isLoadOf name = false) (declares : mention.declaration? name = none) :
    Tells name isParam (seen ++ [mention]) (names.bind added .own) := by
  refine ⟨?_, ?_, tells.params, ?_, ?_⟩
  · rw [bind_binding? names added .own user, tells.binding]
    simp only [Mentions.declaration?_append, Mentions.declaration?_singleton, declares,
      Option.or_none, Mentions.binds_append, Mentions.binds_singleton, binds]
    by_cases same : name = added
    · cases isParam <;> cases Mentions.declaration? seen name with
      | none => cases Mentions.binds seen name <;> simp [Binding.among, Binding.merge, same]
      | some declaration =>
        cases declaration <;> simp [Binding.among, Binding.merge, Declaration.binding, same]
    · simp [same]
  · simpa [loads] using tells.uses
  · simpa [declares] using tells.nonlocals
  · simpa [declares] using tells.globals

theorem Tells.use (tells : Tells name isParam seen names) (added : String) :
    Tells name isParam (seen ++ [.load added]) (names.use added) := by
  refine ⟨?_, ?_, tells.params, ?_, ?_⟩
  · simpa [Mention.declaration?, Mention.binds] using tells.binding
  · have before := tells.uses
    rw [Names.use, insertNew_contains, before]
    simp [Mention.isLoadOf, eq_comm]
  · simpa [Names.use, Mention.declaration?] using tells.nonlocals
  · simpa [Names.use, Mention.declaration?] using tells.globals

theorem Tells.fail (tells : Tells name isParam seen names) (position : Position)
    (complaint : ScopeComplaint) : Tells name isParam seen (names.fail position complaint) :=
  ⟨tells.binding, tells.uses, tells.params, tells.nonlocals, tells.globals⟩

/-- A declaration that has no effect on the name. -/
theorem Tells.skip (tells : Tells name isParam seen names) {declaration : Declaration}
    {ident : Ident} (skipped : ident.name = name →
      isParam = true ∨ (Mentions.declaration? seen name).isSome = true) :
    Tells name isParam (seen ++ [.declare declaration ident]) names := by
  by_cases same : ident.name = name
  · refine ⟨?_, ?_, tells.params, ?_, ?_⟩
    · rw [tells.binding]
      rcases skipped same with isParam | declared
      · simp [Binding.among, isParam]
      · obtain ⟨found, equal⟩ := Option.isSome_iff_exists.mp declared
        simp [Binding.among, equal]
    · simpa [Mention.isLoadOf] using tells.uses
    · rw [tells.nonlocals]
      rcases skipped same with isParam | declared
      · simp [isParam]
      · obtain ⟨found, equal⟩ := Option.isSome_iff_exists.mp declared
        simp [equal]
    · rw [tells.globals]
      rcases skipped same with isParam | declared
      · simp [isParam]
      · obtain ⟨found, equal⟩ := Option.isSome_iff_exists.mp declared
        simp [equal]
  · have silent : Mention.declaration? name (.declare declaration ident) = none := by
      simp [Mention.declaration?, same]
    refine ⟨?_, ?_, tells.params, ?_, ?_⟩
    · simpa [silent, Mention.binds] using tells.binding
    · simpa [Mention.isLoadOf] using tells.uses
    · simpa [silent] using tells.nonlocals
    · simpa [silent] using tells.globals

/-- The names once a declaration was followed. -/
def follow (declaration : Declaration) (names : Names) (ident : Ident) : Names :=
  let names := match declaration with
    | .nonlocal => { names with nonlocals := insertNew ident.name names.nonlocals }
    | .global => { names with globals := insertNew ident.name names.globals }
  (names.bind ident.name declaration.binding).noteDeclared ident

theorem Tells.follow (tells : Tells name isParam seen names) (user : isReserved name = false)
    {declaration : Declaration} {ident : Ident} (followed : ident.name = name →
      isParam = false ∧ (Mentions.declaration? seen name = none ∨
        Mentions.declaration? seen name = some declaration)) :
    Tells name isParam (seen ++ [.declare declaration ident])
      (names.follow declaration ident) := by
  have binding : (names.follow declaration ident).binding? name =
      if name = ident.name then
        some (((names.binding? name).map (·.merge declaration.binding)).getD declaration.binding)
      else names.binding? name := by
    cases declaration <;>
      exact (noteDeclared_binding? _ ident).trans (bind_binding? _ ident.name _ user)
  have nonlocals : (names.follow declaration ident).nonlocals.contains name =
      (names.nonlocals.contains name ||
        decide (declaration = .nonlocal) && decide (name = ident.name)) := by
    cases declaration
    · simp [Names.follow]
    · simp only [Names.follow, noteDeclared_nonlocals, bind_nonlocals, insertNew_contains]
      rfl
  have globals : (names.follow declaration ident).globals.contains name =
      (names.globals.contains name ||
        decide (declaration = .global) && decide (name = ident.name)) := by
    cases declaration
    · simp only [Names.follow, noteDeclared_globals, bind_globals, insertNew_contains]
      rfl
    · simp [Names.follow]
  have uses : (names.follow declaration ident).uses = names.uses := by
    cases declaration <;> simp [Names.follow]
  have params : (names.follow declaration ident).params = names.params := by
    cases declaration <;> simp [Names.follow]
  by_cases same : ident.name = name
  · have declares : Mention.declaration? name (.declare declaration ident) = some declaration := by
      simp [Mention.declaration?, same]
    obtain ⟨isParam, first⟩ := followed same
    have found : (Mentions.declaration? seen name).or (some declaration) = some declaration := by
      rcases first with first | first <;> simp [first]
    refine ⟨?_, ?_, ?_, ?_, ?_⟩
    · rw [binding, tells.binding]
      simp only [Mentions.declaration?_append, Mentions.declaration?_singleton, declares, found]
      rcases first with first | first
      · cases Mentions.binds seen name <;>
          simp [Binding.among, Binding.merge, isParam, first, same]
      · cases declaration <;>
          simp [Binding.among, Binding.merge, Declaration.binding, isParam, first, same]
    · simpa [uses, Mention.isLoadOf] using tells.uses
    · simpa [params] using tells.params
    · rw [nonlocals, tells.nonlocals]
      simp only [Mentions.declaration?_append, Mentions.declaration?_singleton, declares, found]
      rcases first with first | first <;> simp [isParam, first, same]
    · rw [globals, tells.globals]
      simp only [Mentions.declaration?_append, Mentions.declaration?_singleton, declares, found]
      rcases first with first | first <;> simp [isParam, first, same]
  · have silent : Mention.declaration? name (.declare declaration ident) = none := by
      simp [Mention.declaration?, same]
    refine ⟨?_, ?_, ?_, ?_, ?_⟩
    · simpa [binding, Ne.symm same, silent, Mention.binds] using tells.binding
    · simpa [uses, Mention.isLoadOf] using tells.uses
    · simpa [params] using tells.params
    · rw [nonlocals]
      simpa [Ne.symm same, silent] using tells.nonlocals
    · rw [globals]
      simpa [Ne.symm same, silent] using tells.globals

theorem Tells.declare {kind : ScopeKind} (tells : Tells name isParam seen names)
    (user : isReserved name = false) (inside : kind ≠ .moduleScope) (declaration : Declaration)
    (ident : Ident) :
    Tells name isParam (seen ++ [.declare declaration ident])
      (names.declare kind declaration ident) := by
  have isParameter : ident.name = name → names.params.contains ident.name = isParam := by
    rintro rfl
    exact tells.params
  -- A declaration is refused if the other one was followed before, or for a parameter.
  have step : ∀ other : List String, (ident.name = name → other.contains name =
        (!isParam && (Mentions.declaration? seen name).any (· ≠ declaration))) →
      ∀ first second : Names,
        (other.contains ident.name = true → Tells name isParam seen first) →
        (names.params.contains ident.name = true → Tells name isParam seen second) →
        Tells name isParam (seen ++ [.declare declaration ident])
          (if other.contains ident.name then first
            else if names.params.contains ident.name then second
            else names.follow declaration ident) := by
    intro other told first second firstTells secondTells
    split
    · rename_i found
      refine (firstTells found).skip fun same => Or.inr ?_
      have both := told same
      rw [← same, found] at both
      cases declared : Mentions.declaration? seen name with
      | none => simp [same, declared] at both
      | some => rfl
    · rename_i fresh
      split
      · rename_i found
        exact (secondTells found).skip fun same => Or.inl ((isParameter same).symm.trans found)
      · rename_i ordinary
        refine tells.follow user fun same => ?_
        have notParam : isParam = false := by
          rw [← isParameter same]
          exact Bool.eq_false_iff.mpr ordinary
        refine ⟨notParam, ?_⟩
        have both := told same
        rw [← same, Bool.eq_false_iff.mpr fresh, same, notParam] at both
        cases declared : Mentions.declaration? seen name with
        | none => exact Or.inl rfl
        | some found =>
          have equal : found = declaration := by simpa [declared] using both
          exact Or.inr (by rw [equal])
  unfold Names.declare
  cases declaration with
  | «nonlocal» =>
    simp only [inside, if_false]
    refine step names.globals (fun _ => ?_) _ _ (fun _ => tells.fail _ _) fun _ => tells.fail _ _
    rw [tells.globals]
    cases Mentions.declaration? seen name with
    | none => simp
    | some found => cases found <;> simp
  | «global» =>
    refine step names.nonlocals (fun _ => ?_) _ _ (fun _ => tells.fail _ _) fun _ => tells.fail _ _
    rw [tells.nonlocals]
    cases Mentions.declaration? seen name with
    | none => simp
    | some found => cases found <;> simp

theorem Tells.note {kind : ScopeKind} (tells : Tells name isParam seen names)
    (user : isReserved name = false) (inside : kind ≠ .moduleScope) (mention : Mention) :
    Tells name isParam (seen ++ [mention]) (names.note kind mention) := by
  cases mention with
  | load added => exact tells.use added
  | bind added => exact tells.bind user (by simp [Mention.binds, eq_comm]) rfl rfl
  | imported added => exact tells.bind user (by simp [Mention.binds, eq_comm]) rfl rfl
  | function added =>
    have bound := @Tells.bind name isParam seen names tells user (.function added) added
      (by simp [Mention.binds, eq_comm]) rfl rfl
    exact ⟨bound.binding, bound.uses, bound.params, bound.nonlocals, bound.globals⟩
  | lent added =>
    simp only [Names.note, inside, if_false]
    exact tells.bind user (by simp [Mention.binds, eq_comm]) rfl rfl
  | declare declaration ident => exact tells.declare user inside declaration ident

theorem Tells.noteAll {kind : ScopeKind} (user : isReserved name = false)
    (inside : kind ≠ .moduleScope) :
    ∀ (mentions : List Mention) {seen : List Mention} {names : Names},
      Tells name isParam seen names →
      Tells name isParam (seen ++ mentions) (names.noteAll kind mentions)
  | [], seen, _, tells => by
    rw [List.append_nil]
    exact tells
  | first :: rest, seen, names, tells => by
    have later := Tells.noteAll user inside rest (tells.note user inside first)
    rw [List.append_assoc, List.singleton_append] at later
    exact later

theorem addParams_tells (user : isReserved name = false) :
    ∀ (params : List String) {isParam : Bool} {names : Names}, Tells name isParam [] names →
      Tells name (isParam || params.contains name) [] (params.foldl (fun names name =>
        { names with params := insertNew name names.params }.bind name .own) names)
  | [], isParam, names, tells => by simpa using tells
  | first :: rest, isParam, names, tells => by
    have added : Tells name (isParam || decide (name = first)) []
        ({ names with params := insertNew first names.params }.bind first .own) := by
      refine ⟨?_, tells.uses, ?_, ?_, ?_⟩
      · have before : ({ names with params := insertNew first names.params } : Names).binding?
            name = if isParam then some .own else none := tells.binding
        rw [bind_binding? _ first .own user, before]
        by_cases same : name = first <;> cases isParam <;>
          simp [Binding.among, Binding.merge, Mentions.declaration?, Mentions.binds, same]
      · rw [bind_params, insertNew_contains, tells.params]
      · simpa [Mentions.declaration?] using tells.nonlocals
      · simpa [Mentions.declaration?] using tells.globals
    have later := addParams_tells user rest added
    simpa [Bool.or_assoc] using later

/-- What is collected of a definition agrees with its outline. -/
theorem ofOutline_tells (outline : Outline) (inside : outline.kind ≠ .moduleScope)
    (user : isReserved name = false) :
    Tells name (outline.params.contains name) outline.mentions (ofOutline outline) := by
  have started : Tells name false [] {} := ⟨rfl, rfl, rfl, rfl, rfl⟩
  have params := addParams_tells user outline.params started
  exact params.noteAll user inside outline.mentions

end Names
end Unsugar
