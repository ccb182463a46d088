import Unsugar.Proofs.Scope.Correspondence
import Unsugar.Proofs.Scope.RenamedBody
import Unsugar.Scope.Private

/-! Private names. In the bodies of a class, and of the functions in it, renaming them
renames what is bound and what is used alike: a use refers to what it referred to, unless two
names become the same one. -/

namespace Unsugar

/-! ## Private names -/

/-- Whether the private names of a class are reserved names. -/
def reservesPrivate (className : String) : Bool :=
  let front := className.toList.dropWhile (· == '_')
  front == ['d', 'p'] || ['d', 'p', '_'].isPrefixOf front

/-- A name stays as it is, or the name of a class is put in front of a private one. -/
theorem mangle_cases (className name : String) : mangle className name = name ∨
    ∃ first rest below, className.toList.dropWhile (· == '_') = first :: rest ∧
      first ≠ '_' ∧ name.toList = '_' :: '_' :: below ∧ isReserved name = false ∧
      (mangle className name).toList = '_' :: first :: rest ++ '_' :: '_' :: below := by
  have unfolded : mangle className name =
      if isPrivate name && !(className.toList.dropWhile (· == '_')).isEmpty then
        "_" ++ String.ofList (className.toList.dropWhile (· == '_')) ++ name
      else name := rfl
  rw [unfolded]
  split
  · rename_i isChanged
    right
    obtain ⟨«private», named⟩ := Bool.and_eq_true_iff.mp isChanged
    obtain ⟨⟨below, split⟩, ends, _⟩ : ['_', '_'] <+: name.toList ∧
        ['_', '_'].isPrefixOf name.toList.reverse = false ∧ '.' ∉ name.toList := by
      simpa [isPrivate, and_assoc] using «private»
    cases front : className.toList.dropWhile (· == '_') with
    | nil => simp [front] at named
    | cons first rest =>
      have notLine : first ≠ '_' := by
        have head := List.head_dropWhile_not (· == '_') (by simp [front] :
          className.toList.dropWhile (· == '_') ≠ [])
        simpa [front] using head
      have user : isReserved name = false := by
        rw [isReserved, beginsWithText, ← split]
        have other : name ≠ "__dp__" := by
          rintro rfl
          exact absurd ends (by decide)
        simpa [List.isPrefixOf_cons_cons] using other
      exact ⟨first, rest, below, rfl, notLine, split.symm, user, by simp [← split]⟩
  · exact Or.inl rfl

theorem beginsWithText_mangle {className : String} (clear : reservesPrivate className = false)
    (name : String) : beginsWithText "_dp_" (mangle className name) = beginsWithText "_dp_" name := by
  rcases mangle_cases className name with same | ⟨first, rest, below, front, _, written, _, mangled⟩
  · rw [same]
  · rw [reservesPrivate, front] at clear
    rw [beginsWithText, beginsWithText, mangled, written]
    rcases rest with _ | ⟨second, _ | ⟨third, later⟩⟩ <;>
      simp [List.isPrefixOf_cons_cons] at clear ⊢ <;> grind

theorem isReserved_mangle {className : String} (clear : reservesPrivate className = false)
    (name : String) : isReserved (mangle className name) = isReserved name := by
  rw [isReserved, isReserved, beginsWithText_mangle clear]
  congr 1
  rcases mangle_cases className name with same | ⟨_, _, _, _, notLine, _, user, mangled⟩
  · rw [same]
  · -- The name of the class begins with no underscore.
    have other : mangle className name ≠ "__dp__" := by
      intro same
      rw [same, show "__dp__".toList = ['_', '_', 'd', 'p', '_', '_'] from rfl] at mangled
      exact notLine (List.cons.inj (List.cons.inj mangled).2).1.symm
    have unreserved : name ≠ "__dp__" := by
      rintro rfl
      exact absurd user (by decide)
    rw [beq_false_of_ne other, beq_false_of_ne unreserved]

/-! ## Bodies and their classes -/

/-- The body of a function or a class. -/
structure Region where
  /-- The class whose private names the body has; the name is empty outside of classes. -/
  className : String
  kind : ScopeKind
  name : String
  params : List Param
  body : List Stmt

namespace Region

/-- The names of a body, captured names left out. -/
def names (region : Region) : Names :=
  collect region.kind region.params region.body

/-- The name that a private name of a body becomes. -/
def rename (region : Region) (name : String) : String :=
  mangle region.className name

/-- The class whose private names a definition has that stands in a body. -/
def classAround : List Region → String
  | [] => ""
  | region :: _ => region.className

/-- The scope of a body and those around it, that of the module last. -/
def enclosing (outermost : ScopeInfo) : List Region → Enclosing
  | [] => [outermost]
  | region :: around =>
    Scope.child (enclosing outermost around) region.kind region.name region.params region.body ::
      enclosing outermost around

end Region

namespace Stmt

mutual

/-- For each definition in a statement, in source order, its body and those around it. -/
def regions (around : List Region) : Stmt → List (List Region)
  | function _ _ ident params _ body =>
    let region : Region :=
      ⟨Region.classAround around, .functionScope, ident.name, params, body⟩
    (region :: around) :: regionsOfBody (region :: around) body
  | classDef _ _ ident _ body =>
    let region : Region := ⟨ident.name, .classScope, ident.name, [], body⟩
    (region :: around) :: regionsOfBody (region :: around) body
  | conditional _ _ body _ orelse => regionsOfBody around body ++ regionsOfBody around orelse
  | whileLoop _ _ body orelse => regionsOfBody around body ++ regionsOfBody around orelse
  | forLoop _ _ _ body orelse => regionsOfBody around body ++ regionsOfBody around orelse
  | tryBlock _ body handlers orelse final =>
    regionsOfBody around body ++ regionsOfHandlers around handlers ++
      regionsOfBody around orelse ++ regionsOfBody around final
  | withBlock _ _ body => regionsOfBody around body
  | _ => []

def regionsOfBody (around : List Region) : List Stmt → List (List Region)
  | [] => []
  | first :: rest => regions around first ++ regionsOfBody around rest

def regionsOfHandlers (around : List Region) : List Handler → List (List Region)
  | [] => []
  | .mk _ _ _ body :: rest => regionsOfBody around body ++ regionsOfHandlers around rest

end

end Stmt

namespace Scope

theorem chainsOfList_append (outer : Enclosing) (first second : List Scope) :
    chainsOfList outer (first ++ second) = chainsOfList outer first ++ chainsOfList outer second := by
  induction first with
  | nil => rfl
  | cons scope rest induction => rw [List.cons_append, chainsOfList, induction, chainsOfList,
      List.append_assoc]

variable (outermost : ScopeInfo)

mutual

/-- The bodies of the definitions in a statement have its scopes. -/
theorem chainsOfList_ofStmt : ∀ (around : List Region) (stmt : Stmt),
    chainsOfList (Region.enclosing outermost around)
        (ofStmt (Region.enclosing outermost around) stmt) =
      (stmt.regions around).map (Region.enclosing outermost)
  | around, .function _ _ ident params _ body => by
    have inner := chainsOfList_ofBody
      (⟨Region.classAround around, .functionScope, ident.name, params, body⟩ :: around) body
    rw [ofStmt, chainsOfList, chains, chainsOfList, List.append_nil, Stmt.regions, List.map_cons,
      ← inner]
    rfl
  | around, .classDef _ _ ident _ body => by
    have inner := chainsOfList_ofBody
      (⟨ident.name, .classScope, ident.name, [], body⟩ :: around) body
    rw [ofStmt, chainsOfList, chains, chainsOfList, List.append_nil, Stmt.regions, List.map_cons,
      ← inner]
    rfl
  | around, .conditional _ _ body _ orelse | around, .whileLoop _ _ body orelse
  | around, .forLoop _ _ _ body orelse => by
    rw [ofStmt, chainsOfList_append, Stmt.regions, List.map_append, chainsOfList_ofBody around body,
      chainsOfList_ofBody around orelse]
  | around, .tryBlock _ body handlers orelse final => by
    rw [ofStmt, chainsOfList_append, chainsOfList_append, chainsOfList_append, Stmt.regions,
      List.map_append, List.map_append, List.map_append, chainsOfList_ofBody around body,
      chainsOfList_ofHandlers around handlers, chainsOfList_ofBody around orelse,
      chainsOfList_ofBody around final]
  | around, .withBlock _ _ body => chainsOfList_ofBody around body
  | _, .expression .. | _, .assign .. | _, .augAssign .. | _, .annAssign .. | _, .delete ..
  | _, .branch .. | _, .returns .. | _, .raises .. | _, .declare .. | _, .asserts ..
  | _, .imports .. | _, .importFrom .. => rfl

theorem chainsOfList_ofBody : ∀ (around : List Region) (body : List Stmt),
    chainsOfList (Region.enclosing outermost around)
        (ofBody (Region.enclosing outermost around) body) =
      (Stmt.regionsOfBody around body).map (Region.enclosing outermost)
  | _, [] => rfl
  | around, first :: rest => by
    rw [ofBody, chainsOfList_append, Stmt.regionsOfBody, List.map_append,
      chainsOfList_ofStmt around first, chainsOfList_ofBody around rest]

theorem chainsOfList_ofHandlers : ∀ (around : List Region) (handlers : List Handler),
    chainsOfList (Region.enclosing outermost around)
        (ofHandlers (Region.enclosing outermost around) handlers) =
      (Stmt.regionsOfHandlers around handlers).map (Region.enclosing outermost)
  | _, [] => rfl
  | around, .mk _ _ _ body :: rest => by
    rw [ofHandlers, chainsOfList_append, Stmt.regionsOfHandlers, List.map_append,
      chainsOfList_ofBody around body, chainsOfList_ofHandlers around rest]

end

/-- The scopes of a module are its own and those of the bodies in it. -/
theorem chains_ofModule (body : List Stmt) : chains [] (ofModule body) =
    [(ofModule body).info] ::
      (Stmt.regionsOfBody [] body).map (Region.enclosing (ofModule body).info) := by
  rw [← chainsOfList_ofBody]
  rfl

end Scope

/-! ## Renamed bodies -/

namespace Region

/-- The names that stand in a body. -/
def standing (region : Region) : List String :=
  Collector.paramNames region.params ++ Stmt.identifiersOfBody region.body

/-- The names that renaming changes though an import in a body binds them as they stand in
the path of a module, where they stay as they are. -/
def fixedNames (region : Region) : List String :=
  (Stmt.pathNamesOfBody region.body).filter fun name => region.rename name != name

/-- A body whose class makes no reserved names, and whose imports bind no private name
without saying so: the name in the path of a module stays as it is. -/
def isClear (region : Region) : Bool :=
  !reservesPrivate region.className &&
    (Stmt.pathNamesOfBody region.body).all fun name => region.rename name == name

/-- What becomes of a body whose private names are renamed. -/
structure Renamed (source renamed : Region) : Prop where
  kind : renamed.kind = source.kind
  params : Collector.paramNames renamed.params =
    (Collector.paramNames source.params).map source.rename
  /-- The names it binds are those that its names become. -/
  binds : ∀ name, (renamed.names.binding? name).isSome ↔
    ∃ written, source.rename written = name ∧ (source.names.binding? written).isSome
  /-- Each is bound as a name is that became it. -/
  binding : ∀ name binding, renamed.names.binding? name = some binding →
    ∃ written, source.rename written = name ∧ source.names.binding? written = some binding
  /-- A name that no other bound name is confused with is bound as it was. -/
  apart : ∀ written, (∀ other, (source.names.binding? other).isSome →
      source.rename other = source.rename written → other = written) →
    renamed.names.binding? (source.rename written) = source.names.binding? written
  /-- The names it uses became so. -/
  uses : ∀ name ∈ renamed.names.uses,
    ∃ written ∈ source.names.uses, source.rename written = name
  /-- A name that no other one in the body is confused with is used as it was. -/
  kept : ∀ written ∈ source.names.uses, IsApart source.rename source.standing written →
    source.rename written ∈ renamed.names.uses

/-- A body once the private names of its class are renamed. -/
structure IsImage (source renamed : Region) : Prop where
  inside : source.kind ≠ .moduleScope
  kind : renamed.kind = source.kind
  params : renamed.params = Expr.mapLeavesParams (privateNames source.className) source.params
  body : renamed.body =
    Stmt.mapLeavesBody privateNames (privateNames source.className) source.body

variable {source renamed : Region}

theorem fixedNames_of_isClear (clear : source.isClear = true) : source.fixedNames = [] := by
  have still := (Bool.and_eq_true_iff.mp clear).2
  refine List.filter_eq_nil_iff.mpr fun name member => ?_
  simpa using List.all_eq_true.mp still name member

theorem IsImage.paramNames_eq (image : IsImage source renamed) :
    Collector.paramNames renamed.params =
      (Collector.paramNames source.params).map source.rename := by
  rw [image.params]
  exact (Collector.paramNames_hides (privateNames source.className)
    (List.Subset.refl (Expr.identifiersOfParams source.params))).renamed

/-- The names of a body and of its image, as its mentions tell them. -/
theorem IsImage.exists_mentions (image : IsImage source renamed)
    (clear : reservesPrivate source.className = false) :
    ∃ before after, Mentions.Renamed source.rename source.standing source.fixedNames before after ∧
      source.names = Names.ofOutline (.mk source.kind source.name
        (Collector.paramNames source.params) before [] []) ∧
      renamed.names = Names.ofOutline (.mk source.kind source.name
        ((Collector.paramNames source.params).map source.rename) after [] []) := by
  have renames := @Collector.stmts_renames source.kind source.standing source.fixedNames
    privateNames (privateNames source.className) (beginsWithText_mangle clear) source.body
    (List.subset_append_right _ _) fun name member changed =>
      List.mem_filter.mpr ⟨member, bne_iff_ne.mpr changed⟩
  obtain ⟨_, _, before, after, _, mentions, yields, yieldsAfter⟩ := renames
  refine ⟨before, after, mentions, collect_of_notes yields _ _ _ _, ?_⟩
  rw [names, image.kind, image.body, ← image.paramNames_eq]
  exact collect_of_notes yieldsAfter _ _ _ _

section

variable {kind : ScopeKind} {title name written : String} {params standing fixed : List String}
  {before after : List Mention} {rename : String → String} {binding : Binding}

/-- A binding of a renamed name is that of a name that became it. -/
theorem binding?_of_renamed (inside : kind ≠ .moduleScope)
    (reserved : ∀ name, isReserved (rename name) = isReserved name)
    (renamed : Mentions.Renamed rename standing fixed before after) (free : name ∉ fixed)
    (bound : (Names.ofOutline (.mk kind title (params.map rename) after [] [])).binding? name =
      some binding) :
    ∃ written, rename written = name ∧
      (Names.ofOutline (.mk kind title params before [] [])).binding? written = some binding := by
  have first {written : String} {declaration : Declaration}
      (declared : Mentions.firstDeclaration? (Mentions.declared before) written =
        some declaration) : Mentions.declaration? before written = some declaration :=
    (Mentions.declaration?_eq_first before written).trans declared
  rw [Names.ofOutline_binding? inside, Mentions.declaration?_eq_first after] at bound
  by_cases isParam : name ∈ params.map rename
  · obtain ⟨written, member, rfl⟩ := List.mem_map.mp isParam
    refine ⟨written, rfl, ?_⟩
    rw [Names.ofOutline_binding? inside]
    have own : binding = .own := by simpa [Binding.among, isParam] using bound.symm
    simp [Binding.among, member, own]
  · have noParam : ∀ written, rename written = name → written ∉ params := by
      rintro written rfl member
      exact isParam (List.mem_map_of_mem member)
    cases declared : Mentions.firstDeclaration? (Mentions.declared after) name with
    | some declaration =>
      obtain ⟨written, rfl, isFirst⟩ :=
        Mentions.firstDeclaration?_map ((congrArg _ renamed.declared).symm.trans declared)
      refine ⟨written, rfl, ?_⟩
      rw [Names.ofOutline_binding? inside, first isFirst, ← bound, declared, reserved]
      simp [Binding.among, isParam, noParam written rfl]
    | none =>
      rw [declared] at bound
      have isBound : Mentions.binds after name = true ∧ binding = .own := by
        cases binds : Mentions.binds after name <;>
          simp [Binding.among, isParam, binds] at bound ⊢
        exact bound.symm
      obtain ⟨written, rfl, binds⟩ := renamed.bound name free isBound.1
      refine ⟨written, rfl, ?_⟩
      have undeclared : Mentions.declaration? before written = none := by
        rw [Mentions.declaration?_eq_first]
        refine Option.eq_none_iff_forall_ne_some.mpr fun declaration found => ?_
        have later := @Mentions.firstDeclaration?_isSome_map rename written _
          (Option.isSome_of_eq_some found)
        rw [← renamed.declared, declared] at later
        cases later
      rw [Names.ofOutline_binding? inside, undeclared, binds, isBound.2]
      simp [Binding.among, noParam written rfl]

/-- What a bound name becomes is bound. -/
theorem isSome_binding?_renamed (inside : kind ≠ .moduleScope)
    (renamed : Mentions.Renamed rename standing fixed before after) (free : written ∉ fixed)
    (bound : ((Names.ofOutline (.mk kind title params before [] [])).binding? written).isSome) :
    ((Names.ofOutline (.mk kind title (params.map rename) after [] [])).binding?
      (rename written)).isSome := by
  rw [Names.ofOutline_binding? inside, Binding.isSome_among] at bound ⊢
  rw [Mentions.declaration?_eq_first, renamed.declared]
  rw [Mentions.declaration?_eq_first] at bound
  have declared := @Mentions.firstDeclaration?_isSome_map rename written (Mentions.declared before)
  have binds := renamed.binds written free
  have isParam : written ∈ params → rename written ∈ params.map rename := List.mem_map_of_mem
  grind

end

/-- Where a body binds no other name by what a name becomes, nor the name by anything else,
what it becomes is bound as the name is. -/
theorem binding?_eq_of_told {written name : String}
    (binding : ∀ binding, renamed.names.binding? name = some binding →
      ∃ other, source.rename other = name ∧ source.names.binding? other = some binding)
    (bound : (source.names.binding? written).isSome →
      (renamed.names.binding? (source.rename written)).isSome)
    (told : ∀ other, (source.names.binding? other).isSome →
      (source.rename other = name ↔ other = written)) :
    renamed.names.binding? name = source.names.binding? written := by
  cases found : renamed.names.binding? name with
  | some isBound =>
    obtain ⟨other, same, isOther⟩ := binding isBound found
    rw [(told other (Option.isSome_of_eq_some isOther)).mp same] at isOther
    exact isOther.symm
  | none =>
    refine (Option.not_isSome_iff_eq_none.mp fun isWritten => ?_).symm
    have isBound := bound isWritten
    rw [(told written isWritten).mpr rfl, found] at isBound
    cases isBound

theorem IsImage.toRenamed (image : IsImage source renamed) (clear : source.isClear = true) :
    Renamed source renamed := by
  have clearClass := (Bool.not_eq_true' _).mp (Bool.and_eq_true_iff.mp clear).1
  obtain ⟨before, after, mentions, names, namesAfter⟩ := image.exists_mentions clearClass
  rw [fixedNames_of_isClear clear] at mentions
  have binding : ∀ name binding, renamed.names.binding? name = some binding →
      ∃ written, source.rename written = name ∧ source.names.binding? written = some binding := by
    rw [names, namesAfter]
    exact fun name binding =>
      binding?_of_renamed image.inside (isReserved_mangle clearClass) mentions List.not_mem_nil
  have bound : ∀ written, (source.names.binding? written).isSome →
      (renamed.names.binding? (source.rename written)).isSome := by
    rw [names, namesAfter]
    exact fun written => isSome_binding?_renamed image.inside mentions List.not_mem_nil
  have uses : ∀ region : Region, ∀ mentions : List Mention, ∀ params : List String,
      region.names = Names.ofOutline (.mk source.kind source.name params mentions [] []) →
      ∀ name, name ∈ region.names.uses ↔ Mentions.loads mentions name = true := by
    intro region mentions params equal name
    rw [equal, ← List.contains_iff_mem, Names.ofOutline_uses]
    rfl
  constructor
  case kind => exact image.kind
  case params => exact image.paramNames_eq
  case binds =>
    intro name
    constructor
    · intro isBound
      obtain ⟨found, isFound⟩ := Option.isSome_iff_exists.mp isBound
      obtain ⟨written, isName, isWritten⟩ := binding name found isFound
      exact ⟨written, isName, Option.isSome_of_eq_some isWritten⟩
    · rintro ⟨written, rfl, isBound⟩
      exact bound written isBound
  case binding => exact binding
  case apart =>
    intro written alone
    refine binding?_eq_of_told (binding _) (bound written) fun other isBound => ?_
    exact ⟨alone other isBound, fun same => same ▸ rfl⟩
  case uses =>
    intro name used
    obtain ⟨written, isName, loads⟩ := mentions.loads name ((uses _ _ _ namesAfter name).mp used)
    exact ⟨written, (uses _ _ _ names written).mpr loads, isName⟩
  case kept =>
    intro written used alone
    exact (uses _ _ _ namesAfter _).mpr
      (mentions.kept written ((uses _ _ _ names written).mp used) alone)

/-! ## Bodies of a module -/

theorem IsImage.definition {className title other otherClass : String} {kind : ScopeKind}
    {params : List Param} {body : List Stmt} (inside : kind ≠ .moduleScope) :
    IsImage ⟨className, kind, title, params, body⟩
      ⟨otherClass, kind, other, Expr.mapLeavesParams (privateNames className) params,
        Stmt.mapLeavesBody privateNames (privateNames className) body⟩ :=
  ⟨inside, rfl, rfl, rfl⟩

mutual

/-- The bodies in a statement, and their images where it is renamed. -/
theorem regions_images : ∀ {around aroundAfter : List Region} (stmt : Stmt),
    List.Forall₂ IsImage around aroundAfter →
    List.Forall₂ (List.Forall₂ IsImage) (stmt.regions around)
      ((stmt.mapLeaves privateNames (privateNames (classAround around))).regions aroundAfter)
  | _, _, .function _ _ _ _ _ body, images | _, _, .classDef _ _ _ _ body, images =>
    .cons (.cons (.definition nofun) images)
      (regionsOfBody_images body (.cons (.definition nofun) images))
  | _, _, .conditional _ _ body _ orelse, images | _, _, .whileLoop _ _ body orelse, images
  | _, _, .forLoop _ _ _ body orelse, images =>
    List.rel_append (regionsOfBody_images body images) (regionsOfBody_images orelse images)
  | _, _, .tryBlock _ body handlers orelse final, images =>
    List.rel_append (List.rel_append (List.rel_append (regionsOfBody_images body images)
      (regionsOfHandlers_images handlers images)) (regionsOfBody_images orelse images))
        (regionsOfBody_images final images)
  | _, _, .withBlock _ _ body, images => regionsOfBody_images body images
  | _, _, .expression .., _ | _, _, .assign .., _ | _, _, .augAssign .., _ | _, _, .annAssign .., _
  | _, _, .delete .., _ | _, _, .branch .., _ | _, _, .returns .., _ | _, _, .raises .., _
  | _, _, .declare .., _ | _, _, .asserts .., _ | _, _, .imports .., _
  | _, _, .importFrom .., _ => .nil

theorem regionsOfBody_images : ∀ {around aroundAfter : List Region} (body : List Stmt),
    List.Forall₂ IsImage around aroundAfter →
    List.Forall₂ (List.Forall₂ IsImage) (Stmt.regionsOfBody around body)
      (Stmt.regionsOfBody aroundAfter
        (Stmt.mapLeavesBody privateNames (privateNames (classAround around)) body))
  | _, _, [], _ => .nil
  | _, _, first :: rest, images =>
    List.rel_append (regions_images first images) (regionsOfBody_images rest images)

theorem regionsOfHandlers_images : ∀ {around aroundAfter : List Region} (handlers : List Handler),
    List.Forall₂ IsImage around aroundAfter →
    List.Forall₂ (List.Forall₂ IsImage) (Stmt.regionsOfHandlers around handlers)
      (Stmt.regionsOfHandlers aroundAfter
        (Stmt.mapLeavesHandlers privateNames (privateNames (classAround around)) handlers))
  | _, _, [], _ => .nil
  | _, _, .mk _ _ _ body :: rest, images =>
    List.rel_append (regionsOfBody_images body images) (regionsOfHandlers_images rest images)

end

/-! ## Uses and the bodies around them -/

/-- Whether a function around a use of a name binds no other name by what the name becomes,
nor the name by anything else. -/
structure Distinguishes (outer : Region) (written name : String) : Prop where
  clear : reservesPrivate outer.className = false
  imports : written ∉ outer.fixedNames ∧ name ∉ outer.fixedNames
  binds : ∀ other, (outer.names.binding? other).isSome →
    (outer.rename other = name ↔ other = written)

/-- Whether a name that a body uses is not confused with another one: neither in the body
itself, nor where the functions around it bind names. -/
structure IsTold (written : String) (region : Region) (around : List Region) : Prop where
  stands : IsApart region.rename region.standing written
  here : ∀ other, (region.names.binding? other).isSome →
    region.rename other = region.rename written → other = written
  outside : ∀ outer ∈ around, outer.kind = .functionScope →
    outer.Distinguishes written (region.rename written)

/-- A function that distinguishes a name from others binds it as its image binds what the
name becomes. -/
theorem IsImage.binding?_eq (image : IsImage source renamed) {written name : String}
    (told : source.Distinguishes written name) :
    renamed.names.binding? name = source.names.binding? written := by
  obtain ⟨before, after, mentions, names, namesAfter⟩ := image.exists_mentions told.clear
  refine binding?_eq_of_told ?_ ?_ told.binds
  · rw [names, namesAfter]
    exact fun binding => binding?_of_renamed image.inside (isReserved_mangle told.clear) mentions
      told.imports.2
  · rw [names, namesAfter]
    exact isSome_binding?_renamed image.inside mentions told.imports.1

variable {outermost outermostAfter : ScopeInfo}

/-- What becomes of a name is taken from the same one of the scopes around a body as the name
is, if the functions there distinguish it. -/
theorem enclosing_agree (isModule : outermost.kind = .moduleScope)
    (isModuleAfter : outermostAfter.kind = .moduleScope) {written name : String} :
    ∀ {around aroundAfter : List Region}, List.Forall₂ IsImage around aroundAfter →
    (∀ outer ∈ around, outer.kind = .functionScope → outer.Distinguishes written name) →
    (enclosing outermostAfter aroundAfter).ownerPlace? name =
        (enclosing outermost around).ownerPlace? written ∧
      (enclosing outermostAfter aroundAfter).captures name =
        (enclosing outermost around).captures written := by
  intro around aroundAfter images told
  induction images with
  | nil => simp [enclosing, Enclosing.ownerPlace?, Enclosing.captures, isModule, isModuleAfter]
  | @cons region image around aroundAfter isImage images induction =>
    obtain ⟨places, captures⟩ := induction
      fun outer member => told outer (List.mem_cons_of_mem _ member)
    have toldHere := told region List.mem_cons_self
    obtain ⟨className, kind, title, params, body⟩ := region
    obtain ⟨otherClass, otherKind, otherTitle, otherParams, otherBody⟩ := image
    obtain rfl : otherKind = kind := isImage.kind
    cases otherKind with
    | moduleScope => exact absurd rfl isImage.inside
    | classScope => exact ⟨congrArg (Option.map (· + 1)) places, captures⟩
    | functionScope =>
      have same : (collect .functionScope otherParams otherBody).binding? name =
          (collect .functionScope params body).binding? written :=
        isImage.binding?_eq (toldHere rfl)
      rw [enclosing, enclosing, Enclosing.ownerPlace?_child, Enclosing.ownerPlace?_child,
        Enclosing.captures_child, Enclosing.captures_child, same, places, captures]
      exact ⟨rfl, rfl⟩

/-- What becomes of the bodies around a use, and of the use. -/
structure RenamedAlike (outermost outermostAfter : ScopeInfo) (source renamed : List Region) :
    Prop where
  bodies : List.Forall₂ (fun source renamed => source.isClear = true → Renamed source renamed)
    source renamed
  /-- A use of a name, and what becomes of it, refer to the same binding. -/
  refers : ∀ region around image aroundAfter,
    source = region :: around → renamed = image :: aroundAfter →
    region.isClear = true → ∀ written ∈ region.names.uses, IsTold written region around →
      region.rename written ∈ image.names.uses ∧
      ((enclosing outermostAfter renamed).head?.bind (·.binding? (region.rename written)) =
        (enclosing outermost source).head?.bind (·.binding? written)) ∧
      (enclosing outermostAfter aroundAfter).ownerPlace? (region.rename written) =
        (enclosing outermost around).ownerPlace? written

theorem renamedAlike (isModule : outermost.kind = .moduleScope)
    (isModuleAfter : outermostAfter.kind = .moduleScope) {source renamed : List Region}
    (images : List.Forall₂ IsImage source renamed) :
    RenamedAlike outermost outermostAfter source renamed := by
  constructor
  case bodies => exact images.imp fun _ _ image => image.toRenamed
  case refers =>
    rintro region around image aroundAfter rfl rfl clear written used told
    obtain ⟨isImage, imagesAround⟩ := List.forall₂_cons.mp images
    have alike := isImage.toRenamed clear
    have usedAfter := alike.kept written used told.stands
    obtain ⟨places, captures⟩ :=
      enclosing_agree isModule isModuleAfter imagesAround told.outside
    have reserved := isReserved_mangle
      ((Bool.not_eq_true' _).mp (Bool.and_eq_true_iff.mp clear).1) written
    refine ⟨usedAfter, ?_, places⟩
    have before : (Scope.child (enclosing outermost around) region.kind region.name region.params
        region.body).binding? written = _ := Names.capture_binding? region.names _ written
    have after : (Scope.child (enclosing outermostAfter aroundAfter) image.kind image.name
        image.params image.body).binding? (region.rename written) = _ :=
      Names.capture_binding? image.names _ (region.rename written)
    rw [enclosing, enclosing, List.head?_cons, List.head?_cons, Option.bind_some,
      Option.bind_some, before, after, alike.apart written told.here,
      List.contains_iff_mem.mpr usedAfter, List.contains_iff_mem.mpr used, captures]
    rw [rename, reserved]

end Region

/-- In each body, renaming private names renames the names it binds, and its uses alike. Of
the bodies around a use only the functions matter for what it refers to. -/
theorem manglePrivate_renames_alike (body : List Stmt) :
    List.Forall₂ (Region.RenamedAlike (Scope.ofModule body).info
        (Scope.ofModule (manglePrivate body)).info)
      (Stmt.regionsOfBody [] body) (Stmt.regionsOfBody [] (manglePrivate body)) :=
  (Region.regionsOfBody_images body .nil).imp fun _ _ images =>
    Region.renamedAlike rfl rfl images

/-- The body of `again`, which returns `__step`. -/
def againBody : List Stmt :=
  [.returns .unknown (some (.ofName "__step"))]

/-- The body of `grow`, which imports `__clock` and defines `again`. -/
def growBody : List Stmt :=
  [.imports .unknown [⟨.unknown, "__clock", none⟩],
    .function [] .unknown ⟨.unknown, "again"⟩ [] none againBody]

/-- The body of `class Box:`, with a method `grow(self, __step)`. -/
def boxBody : List Stmt :=
  [.function [] .unknown ⟨.unknown, "grow"⟩ [.plain "self", .plain "__step"] none growBody]

def boxModule : List Stmt :=
  [.classDef [] .unknown ⟨.unknown, "Box"⟩ [] boxBody]

theorem again_isTold :
    Region.IsTold "__step" ⟨"Box", .functionScope, "again", [], againBody⟩
      [⟨"Box", .functionScope, "grow", [.plain "self", .plain "__step"], growBody⟩,
        ⟨"Box", .classScope, "Box", [], boxBody⟩] := by
  let again : Region := ⟨"Box", .functionScope, "again", [], againBody⟩
  constructor
  case stands =>
    have each : ∀ other ∈ again.standing,
        again.rename other = again.rename "__step" → other = "__step" := by decide
    exact each
  case here =>
    have each : ∀ other ∈ again.names.bindings.map Prod.fst,
        again.rename other = again.rename "__step" → other = "__step" := by decide
    exact fun other bound => each other (Names.mem_keys bound)
  case outside =>
    intro outer member isFunction
    rcases List.mem_cons.mp member with rfl | member
    · let grow : Region :=
        ⟨"Box", .functionScope, "grow", [.plain "self", .plain "__step"], growBody⟩
      have each : ∀ other ∈ grow.names.bindings.map Prod.fst,
          (grow.rename other = "_Box__step" ↔ other = "__step") := by decide
      exact ⟨by decide, by decide, fun other bound => each other (Names.mem_keys bound)⟩
    · rw [List.mem_singleton.mp member] at isFunction
      cases isFunction

/-- The parameter of the method becomes `_Box__step`, and so does its use in `again`, though
the method imports a private name too. -/
theorem boxModule_renamed_alike :
    ∃ again around image aroundImage, again :: around ∈ Stmt.regionsOfBody [] boxModule ∧
      image :: aroundImage ∈ Stmt.regionsOfBody [] (manglePrivate boxModule) ∧
      again.isClear = true ∧ (∃ grow ∈ around, grow.isClear = false) ∧
      Region.Renamed again image ∧ "_Box__step" ∈ image.names.uses ∧
      (Region.enclosing (Scope.ofModule boxModule).info around).ownerPlace? "__step" = some 0 ∧
      (Region.enclosing (Scope.ofModule (manglePrivate boxModule)).info
        aroundImage).ownerPlace? "_Box__step" = some 0 := by
  have alike := manglePrivate_renames_alike boxModule
  obtain ⟨_, later⟩ := List.forall₂_cons.mp alike
  obtain ⟨_, later⟩ := List.forall₂_cons.mp later
  obtain ⟨renamed, _⟩ := List.forall₂_cons.mp later
  have clear : (⟨"Box", .functionScope, "again", [], againBody⟩ : Region).isClear = true := by
    decide
  have bodies := (List.forall₂_cons.mp renamed.bodies).1 clear
  obtain ⟨used, _, places⟩ :=
    renamed.refers _ _ _ _ rfl rfl clear "__step" (by decide) again_isTold
  have owned : (Region.enclosing (Scope.ofModule boxModule).info
      [⟨"Box", .functionScope, "grow", [.plain "self", .plain "__step"], growBody⟩,
        ⟨"Box", .classScope, "Box", [], boxBody⟩]).ownerPlace? "__step" = some 0 := by decide
  exact ⟨_, _, _, _, List.mem_cons_of_mem _ (List.mem_cons_of_mem _ List.mem_cons_self),
    List.mem_cons_of_mem _ (List.mem_cons_of_mem _ List.mem_cons_self), clear,
    ⟨_, List.mem_cons_self, by decide⟩, bodies, used, owned, places.trans owned⟩

/-- `class Box:` with `global _Box__size` and `__size = 1`. -/
def sharedImage : List Stmt :=
  [.classDef [] .unknown ⟨.unknown, "Box"⟩ []
    [.declare .unknown .global [⟨.unknown, "_Box__size"⟩], .store "__size" (.ofNat 1)]]

/-- Two names of a body may become the same one. Then a name of the class itself is bound as
the other one is, in the module. -/
theorem sharedImage_not_kept :
    ¬ List.Forall₂ (fun source renamed : List Region =>
        ∀ region ∈ source.head?, ∀ image ∈ renamed.head?, ∀ written,
          image.names.binding? (region.rename written) = region.names.binding? written)
      (Stmt.regionsOfBody [] sharedImage) (Stmt.regionsOfBody [] (manglePrivate sharedImage)) := by
  intro alike
  have kept := (List.forall₂_cons.mp alike).1 _ rfl _ rfl "__size"
  revert kept
  decide

end Unsugar
