import Unsugar.Proofs.Scope.Collected
import Unsugar.Proofs.Scope.Owner

/-! Cells are exactly where they are needed. A name that a scope takes from outside is
held in a cell by the function that looking outward finds, and a cell is held only for a
name that some scope inside takes from there. -/

namespace Unsugar

/-! ## Tables of names -/

theorem setEntry_keys {α : Type} (name : String) (value : α) :
    ∀ entries : List (String × α),
      (setEntry name value entries).map (·.1) = insertNew name (entries.map (·.1))
  | [] => rfl
  | (key, old) :: rest => by
    have below := setEntry_keys name value rest
    unfold insertNew at below ⊢
    by_cases same : key = name
    · simp [setEntry, same]
    · have other : name ≠ key := fun equal => same equal.symm
      by_cases found : name ∈ rest.map (·.1)
      · simp_all [setEntry]
      · simp_all [setEntry]

theorem insertNew_nodup {names : List String} (name : String) (unique : names.Nodup) :
    (insertNew name names).Nodup := by
  unfold insertNew
  split
  · exact unique
  · rename_i absent
    rw [List.nodup_append]
    refine ⟨unique, by simp, fun found member added isAdded => ?_⟩
    rintro rfl
    rw [List.mem_singleton.mp isAdded] at member
    exact absent (by simpa using member)

/-- In a table that has each key once, an entry is what its key is looked up to. -/
theorem mem_iff_lookup {α : Type} {name : String} {value : α} :
    ∀ {entries : List (String × α)}, (entries.map (·.1)).Nodup →
      ((name, value) ∈ entries ↔ entries.lookup name = some value)
  | [], _ => by simp
  | (key, old) :: rest, unique => by
    obtain ⟨absent, unique⟩ := List.nodup_cons.mp unique
    have below : (name, value) ∈ rest ↔ rest.lookup name = some value := mem_iff_lookup unique
    by_cases same : name = key
    · subst same
      have elsewhere : (name, value) ∉ rest :=
        fun member => absent (List.mem_map.mpr ⟨(name, value), member, rfl⟩)
      simp [elsewhere, eq_comm]
    · simp [List.lookup_cons, beq_false_of_ne same, same, below]

namespace Names

/-! ## What is collected -/

/-- What is sure of the names of a body: each is bound in one way, and a name that lives
outside is declared so, is not reserved, and is not that of a module. -/
structure Orderly (kind : ScopeKind) (names : Names) : Prop where
  keys : (names.bindings.map (·.1)).Nodup
  uses : names.uses.Nodup
  outside : ∀ name, names.binding? name = some .nonlocal →
    name ∈ names.nonlocals ∧ isReserved name = false ∧ kind ≠ .moduleScope

/-- A binding makes a name nonlocal only if it says so, and never a reserved name. -/
theorem nonlocal_of_bind {names : Names} {added name : String} {binding : Binding}
    (found : (names.bind added binding).binding? name = some .nonlocal) :
    names.binding? name = some .nonlocal ∨
      name = added ∧ binding = .nonlocal ∧ isReserved name = false := by
  rw [bind, binding?, setEntry_lookup] at found
  split at found
  · rename_i same
    subst same
    cases reserved : isReserved name with
    | true =>
      cases old : names.binding? name with
      | none => simp [reserved, old] at found
      | some before => cases before <;> simp_all [Binding.merge]
    | false =>
      cases old : names.binding? name with
      | none => simp_all
      | some before => cases before <;> simp_all [Binding.merge]
  · exact Or.inl found

namespace Orderly

variable {kind : ScopeKind} {names : Names}

theorem bind (orderly : Orderly kind names) (name : String) (binding : Binding)
    (declared : binding = .nonlocal → name ∈ names.nonlocals ∧ kind ≠ .moduleScope) :
    Orderly kind (names.bind name binding) where
  keys := by
    have keys := setEntry_keys name
      (((names.binding? name).map (·.merge (if isReserved name then .own else binding))).getD
        (if isReserved name then .own else binding)) names.bindings
    rw [Names.bind]
    cases bound : names.binding? name with
    | none =>
      rw [bound] at keys
      exact keys ▸ insertNew_nodup name orderly.keys
    | some old =>
      rw [bound] at keys
      exact keys ▸ insertNew_nodup name orderly.keys
  uses := orderly.uses
  outside other found := by
    rcases nonlocal_of_bind found with before | ⟨rfl, stated, user⟩
    · exact orderly.outside other before
    · exact ⟨(declared stated).1, user, (declared stated).2⟩

theorem noteDeclared (orderly : Orderly kind names) (ident : Ident) :
    Orderly kind (names.noteDeclared ident) := by
  unfold Names.noteDeclared
  split
  · exact orderly
  · exact ⟨orderly.keys, orderly.uses, orderly.outside⟩

theorem declare (orderly : Orderly kind names) (declaration : Declaration) (ident : Ident) :
    Orderly kind (names.declare kind declaration ident) := by
  have failed (complaint : ScopeComplaint) : Orderly kind (names.fail ident.position complaint) :=
    ⟨orderly.keys, orderly.uses, orderly.outside⟩
  cases declaration with
  | «nonlocal» =>
    unfold Names.declare
    refine iteInduction (fun _ => failed _) fun inside => ?_
    refine iteInduction (fun _ => failed _) fun _ => iteInduction (fun _ => failed _) fun _ => ?_
    have declared : ident.name ∈ insertNew ident.name names.nonlocals := by
      have contains := insertNew_contains ident.name ident.name names.nonlocals
      simpa using contains
    have listed : Orderly kind
        { names with nonlocals := insertNew ident.name names.nonlocals } := by
      refine ⟨orderly.keys, orderly.uses, fun name found => ?_⟩
      obtain ⟨member, rest⟩ := orderly.outside name found
      have contains := insertNew_contains ident.name name names.nonlocals
      exact ⟨by simpa [member] using contains, rest⟩
    exact (listed.bind _ _ fun _ => ⟨declared, inside⟩).noteDeclared ident
  | global =>
    unfold Names.declare
    refine iteInduction (fun _ => failed _) fun _ => iteInduction (fun _ => failed _) fun _ => ?_
    have listed : Orderly kind { names with globals := insertNew ident.name names.globals } :=
      ⟨orderly.keys, orderly.uses, orderly.outside⟩
    exact (listed.bind _ _ fun stated => by cases stated).noteDeclared ident

theorem kept (kind : ScopeKind) : Kept kind (Orderly kind) where
  bind _ name orderly := orderly.bind name .own fun stated => by cases stated
  use _ name orderly := ⟨orderly.keys, insertNew_nodup name orderly.uses, orderly.outside⟩
  define _ _ orderly := ⟨orderly.keys, orderly.uses, orderly.outside⟩
  declare _ declaration ident orderly := orderly.declare declaration ident

end Orderly

theorem collect_orderly (kind : ScopeKind) (params : List Param) (body : List Stmt) :
    Orderly kind (collect kind params body) :=
  collect_keeps (Orderly.kept kind) params body ⟨.nil, .nil, fun _ found => by cases found⟩
    fun _ _ orderly => ⟨orderly.keys, orderly.uses, orderly.outside⟩

end Names

namespace Scope

/-! ## Scopes of a tree -/

/-- A scope of a tree, with the scopes around it, the nearest first. -/
inductive Within (root : Scope) : List Scope → Scope → Prop where
  | root : Within root [] root
  | child {chain : List Scope} {parent scope : Scope} (above : Within root chain parent)
      (member : scope ∈ parent.children) : Within root (parent :: chain) scope

/-- A scope as it is built from a body, among the scopes around it. -/
inductive Built : Enclosing → Scope → Prop where
  | module (body : List Stmt) : Built [] (ofModule body)
  | definition (outer : Enclosing) (kind : ScopeKind) (name : String) (params : List Param)
      (body : List Stmt) (inside : kind ≠ .moduleScope) :
      Built outer (mk (child outer kind name params body)
        (ofBody (child outer kind name params body :: outer) body))

mutual

theorem ofStmt_built (outer : Enclosing) :
    ∀ statement : Stmt, ∀ scope ∈ ofStmt outer statement, Built outer scope
  | .function _ _ ident params _ body, scope, member => by
    rw [ofStmt, List.mem_singleton] at member
    rw [member]
    exact .definition outer .functionScope ident.name params body nofun
  | .classDef _ _ ident _ body, scope, member => by
    rw [ofStmt, List.mem_singleton] at member
    rw [member]
    exact .definition outer .classScope ident.name [] body nofun
  | .conditional _ _ body _ orelse, scope, member
  | .whileLoop _ _ body orelse, scope, member
  | .forLoop _ _ _ body orelse, scope, member => by
    rw [ofStmt, List.mem_append] at member
    rcases member with member | member
    · exact ofBody_built outer body scope member
    · exact ofBody_built outer orelse scope member
  | .tryBlock _ body handlers orelse final, scope, member => by
    simp only [ofStmt, List.mem_append] at member
    rcases member with ((member | member) | member) | member
    · exact ofBody_built outer body scope member
    · exact ofHandlers_built outer handlers scope member
    · exact ofBody_built outer orelse scope member
    · exact ofBody_built outer final scope member
  | .withBlock _ _ body, scope, member => by
    rw [ofStmt] at member
    exact ofBody_built outer body scope member
  | .expression .., _, member | .assign .., _, member | .augAssign .., _, member
  | .annAssign .., _, member | .delete .., _, member | .branch .., _, member
  | .returns .., _, member | .raises .., _, member | .declare .., _, member
  | .asserts .., _, member | .imports .., _, member | .importFrom .., _, member => by
    simp [ofStmt] at member

theorem ofBody_built (outer : Enclosing) :
    ∀ body : List Stmt, ∀ scope ∈ ofBody outer body, Built outer scope
  | [], _, member => by simp [ofBody] at member
  | first :: rest, scope, member => by
    rw [ofBody, List.mem_append] at member
    rcases member with member | member
    · exact ofStmt_built outer first scope member
    · exact ofBody_built outer rest scope member

theorem ofHandlers_built (outer : Enclosing) :
    ∀ handlers : List Handler, ∀ scope ∈ ofHandlers outer handlers, Built outer scope
  | [], _, member => by simp [ofHandlers] at member
  | .mk _ _ _ body :: rest, scope, member => by
    rw [ofHandlers, List.mem_append] at member
    rcases member with member | member
    · exact ofBody_built outer body scope member
    · exact ofHandlers_built outer rest scope member

end

theorem Built.child {outer : Enclosing} {parent scope : Scope} (built : Built outer parent)
    (member : scope ∈ parent.children) : Built (parent.info :: outer) scope := by
  cases built with
  | module body => exact ofBody_built _ body scope member
  | definition _ _ _ _ body _ => exact ofBody_built _ body scope member

theorem Within.built {body : List Stmt} {chain : List Scope} {scope : Scope}
    (within : Within (ofModule body) chain scope) : Built (chain.map info) scope := by
  induction within with
  | root => exact .module body
  | child _ member above => exact above.child member

/-- What is sure of the names of a scope among the scopes around it. -/
structure Placed (outer : Enclosing) (info : ScopeInfo) : Prop where
  keys : (info.names.bindings.map (·.1)).Nodup
  /-- A name that lives outside is declared so or captured. -/
  outside : ∀ name, info.binding? name = some .nonlocal →
    isReserved name = false ∧ info.kind ≠ .moduleScope ∧
      (name ∈ info.names.nonlocals ∨ outer.captures name = true)

/-- Capturing adds the free names that the scopes around a body capture. -/
theorem child_placed (outer : Enclosing) {kind : ScopeKind} (name : String) (params : List Param)
    (body : List Stmt) (inside : kind ≠ .moduleScope) :
    Placed outer (child outer kind name params body) := by
  have orderly := Names.collect_orderly kind params body
  generalize listed : (collect kind params body).uses.filter (fun name =>
    ((collect kind params body).binding? name).isNone && !isReserved name &&
      outer.captures name) = captured
  have bindings : (child outer kind name params body).names.bindings =
      (collect kind params body).bindings ++ captured.map (·, .nonlocal) := by
    rw [← listed]
    rfl
  have captures : ∀ other ∈ captured, (collect kind params body).binding? other = none ∧
      isReserved other = false ∧ outer.captures other = true := by
    intro other member
    rw [← listed] at member
    simpa [and_assoc] using (List.mem_filter.mp member).2
  constructor
  · rw [bindings, List.map_append, List.map_map]
    refine List.nodup_append.mpr ⟨orderly.keys, ?_, ?_⟩
    · have unique : captured.Nodup := listed ▸ orderly.uses.filter _
      simpa [Function.comp_def] using unique
    · -- What is captured is not bound by the body itself.
      intro key bound other member
      rintro rfl
      obtain ⟨entry, isEntry, rfl⟩ := List.mem_map.mp bound
      obtain ⟨free, isFree, same⟩ := List.mem_map.mp member
      have absent := (captures free isFree).1
      have found := (mem_iff_lookup orderly.keys).mp isEntry
      rw [show free = entry.1 from same, Names.binding?, found] at absent
      cases absent
  · intro other found
    have lookedUp : ((collect kind params body).bindings ++ captured.map (·, Binding.nonlocal)).lookup
        other = some .nonlocal := bindings ▸ found
    rw [List.lookup_append] at lookedUp
    cases before : (collect kind params body).bindings.lookup other with
    | some binding =>
      rw [before] at lookedUp
      obtain ⟨declared, user, -⟩ := orderly.outside other (before.trans lookedUp)
      exact ⟨user, inside, Or.inl declared⟩
    | none =>
      have entry : (other, Binding.nonlocal) ∈ captured.map (·, Binding.nonlocal) := by
        rw [before, Option.none_or] at lookedUp
        obtain ⟨front, back, split, -⟩ := List.lookup_eq_some_iff.mp lookedUp
        exact split ▸ List.mem_append_right front List.mem_cons_self
      obtain ⟨free, isFree, same⟩ := List.mem_map.mp entry
      obtain ⟨-, user, captured⟩ := captures free isFree
      obtain rfl : free = other := congrArg Prod.fst same
      exact ⟨user, inside, Or.inr captured⟩

theorem Built.placed {outer : Enclosing} {scope : Scope} (built : Built outer scope) :
    Placed outer scope.info := by
  cases built with
  | module body =>
    have orderly := Names.collect_orderly .moduleScope [] body
    exact ⟨orderly.keys, fun name found => absurd rfl (orderly.outside name found).2.2⟩
  | definition _ _ name params body inside => exact child_placed outer name params body inside

end Scope

/-! ## Looking outward -/

namespace Enclosing

variable {name : String}

/-- Looking outward passes a scope that hands the name on, and ends at any other. -/
theorem owner?_cons (scope : ScopeInfo) (outer : Enclosing) :
    Enclosing.owner? name (scope :: outer) =
      if Scope.handsOn scope name = true then outer.owner? name
      else if scope.kind = .functionScope ∧ scope.binding? name = some .own then some scope
      else none := by
  rw [owner?, Scope.handsOn]
  cases kind : scope.kind with
  | moduleScope => simp
  | classScope => simp
  | functionScope =>
    cases binding : scope.binding? name with
    | none => simp
    | some bound => cases bound <;> simp

theorem exists_of_owner? {owner : ScopeInfo} : ∀ {outer : Enclosing},
    outer.owner? name = some owner → ∃ below above, outer = below ++ owner :: above ∧
      owner.kind = .functionScope ∧ owner.binding? name = some .own ∧
      ∀ scope ∈ below, Scope.handsOn scope name = true
  | [], found => by cases found
  | scope :: outer, found => by
    rw [owner?_cons] at found
    split at found
    · rename_i passes
      obtain ⟨below, above, rfl, function, own, between⟩ := exists_of_owner? found
      refine ⟨scope :: below, above, rfl, function, own, ?_⟩
      simpa using ⟨passes, between⟩
    · split at found
      · rename_i holder
        cases found
        exact ⟨[], outer, rfl, holder.1, holder.2, by simp⟩
      · cases found

theorem owner?_append {owner : ScopeInfo} {above : Enclosing} (function : owner.kind = .functionScope)
    (own : owner.binding? name = some .own) : ∀ {below : Enclosing},
    (∀ scope ∈ below, Scope.handsOn scope name = true) →
    Enclosing.owner? name (below ++ owner :: above) = some owner
  | [], _ => by
    have stops : Scope.handsOn owner name = false := by simp [Scope.handsOn, function, own]
    rw [List.nil_append, owner?_cons, stops, if_neg Bool.false_ne_true, if_pos ⟨function, own⟩]
  | scope :: below, passes => by
    rw [List.cons_append, owner?_cons, if_pos (passes scope List.mem_cons_self)]
    exact owner?_append function own fun between member =>
      passes between (List.mem_cons_of_mem _ member)

/-- The scopes around a body, each of which takes from outside only names that have an
owner there. -/
def Resolved : Enclosing → Prop
  | [] => True
  | scope :: outer =>
    (∀ name, scope.binding? name = some .nonlocal → (owner? name outer).isSome = true) ∧
      Resolved outer

/-- A captured name has an owner: the nearest function that has a binding for it either
binds it as its own or takes it from there. -/
theorem owner?_of_captures : ∀ {outer : Enclosing}, outer.Resolved →
    outer.captures name = true → (outer.owner? name).isSome = true
  | [], _, captured => by cases captured
  | scope :: outer, resolved, captured => by
    unfold captures at captured
    unfold owner?
    cases kind : scope.kind with
    | moduleScope => simp [kind] at captured
    | classScope =>
      simp only [kind] at captured
      exact owner?_of_captures resolved.2 captured
    | functionScope =>
      simp only [kind] at captured
      cases binding : scope.binding? name with
      | none =>
        simp only [binding] at captured
        exact owner?_of_captures resolved.2 captured
      | some bound =>
        cases bound with
        | own => rfl
        | global => simp [binding] at captured
        | «nonlocal» => exact resolved.1 name binding

end Enclosing

namespace Scope

variable {name : String} {root : Scope}

theorem errors_of_mem {outer : Enclosing} {scope : Scope} : ∀ {scopes : List Scope},
    errorsOfList outer scopes = [] → scope ∈ scopes → scope.errors outer = []
  | [], _, member => by cases member
  | first :: rest, valid, member => by
    rw [errorsOfList, List.append_eq_nil_iff] at valid
    rcases List.mem_cons.mp member with rfl | member
    · exact valid.1
    · exact errors_of_mem valid.2 member

theorem Within.errors {chain : List Scope} {scope : Scope} (valid : root.errors [] = [])
    (within : Within root chain scope) : scope.errors (chain.map info) = [] := by
  induction within with
  | root => exact valid
  | @child _ parent _ _ member above =>
    obtain ⟨info, children⟩ := parent
    rw [Scope.errors, List.append_eq_nil_iff, List.append_eq_nil_iff] at above
    exact errors_of_mem above.1.2 member

/-- A scope without errors has an owner for each name that it declares nonlocal. -/
theorem owner?_of_declared {outer : Enclosing} {scope : Scope} (valid : scope.errors outer = [])
    (inside : scope.info.kind ≠ .moduleScope) (declared : name ∈ scope.info.names.nonlocals) :
    (outer.owner? name).isSome = true := by
  obtain ⟨info, children⟩ := scope
  rw [errors, List.append_eq_nil_iff] at valid
  have unbound := valid.2
  simp only [Scope.info] at inside declared
  rw [Scope.unbound, if_neg inside, List.map_eq_nil_iff, List.filter_eq_nil_iff] at unbound
  have owned := unbound name (mem_sortNames.mpr declared)
  simpa [Option.isSome_iff_ne_none] using owned

theorem Within.resolved {body : List Stmt} {chain : List Scope} {scope : Scope}
    (valid : (ofModule body).errors [] = []) (within : Within (ofModule body) chain scope) :
    Enclosing.Resolved ((scope :: chain).map info) := by
  have here {chain scope} (within : Within (ofModule body) chain scope)
      (above : Enclosing.Resolved (chain.map info)) :
      Enclosing.Resolved ((scope :: chain).map info) := by
    refine ⟨fun name found => ?_, above⟩
    obtain ⟨-, inside, declared | captured⟩ := within.built.placed.outside name found
    · exact owner?_of_declared (within.errors valid) inside declared
    · exact Enclosing.owner?_of_captures above captured
  induction within with
  | root => exact here .root trivial
  | child above member resolved => exact here (.child above member) resolved

/-! ## Cells -/

theorem mem_taken {outer : Enclosing} {info : ScopeInfo} (placed : Placed outer info) :
    name ∈ taken info ↔ info.binding? name = some .nonlocal := by
  have entry : name ∈ taken info ↔ (name, Binding.nonlocal) ∈ info.names.bindings := by
    rw [taken, List.mem_filterMap]
    constructor
    · rintro ⟨⟨key, binding⟩, member, isKey⟩
      obtain ⟨rfl, rfl⟩ : binding = .nonlocal ∧ key = name := by simpa using isKey
      exact member
    · exact fun member => ⟨(name, .nonlocal), member, rfl⟩
  exact entry.trans (mem_iff_lookup placed.keys)

theorem mem_demandsOfList : ∀ {scopes : List Scope},
    name ∈ demandsOfList scopes ↔ ∃ scope ∈ scopes, name ∈ scope.demands
  | [] => by simp [demandsOfList]
  | first :: rest => by
    have below : name ∈ demandsOfList rest ↔ ∃ scope ∈ rest, name ∈ scope.demands :=
      mem_demandsOfList
    simp [demandsOfList, below]

theorem mem_demands {scope : Scope} : name ∈ scope.demands ↔
    name ∈ taken scope.info ∨
      name ∈ demandsOfList scope.children ∧ handsOn scope.info name = true := by
  obtain ⟨info, children⟩ := scope
  rw [demands, List.mem_append, List.mem_filter]
  rfl

theorem mem_cells {scope : Scope} : name ∈ scope.cells ↔
    scope.info.kind = .functionScope ∧ scope.info.binding? name = some .own ∧
      name ∈ demandsOfList scope.children := by
  obtain ⟨info, children⟩ := scope
  rw [cells]
  split
  · rename_i function
    simp [mem_sortNames, function, Scope.info, Scope.children, and_comm]
  · rename_i other
    simp [other, Scope.info]

/-- What a scope asks for reaches every scope around it, as long as those in between hand
it on. -/
theorem Within.demanded {chain : List Scope} {scope : Scope} (within : Within root chain scope)
    (asked : name ∈ scope.demands) : ∀ {below above : List Scope} {owner : Scope},
    chain = below ++ owner :: above → (∀ between ∈ below, handsOn between.info name = true) →
    name ∈ demandsOfList owner.children := by
  induction within with
  | root =>
    intro below above owner split
    simp at split
  | @child chain parent scope _ member induction =>
    have here : name ∈ demandsOfList parent.children := mem_demandsOfList.mpr ⟨scope, member, asked⟩
    intro below above owner split passes
    cases below with
    | nil =>
      obtain ⟨rfl, rfl⟩ := List.cons.inj split
      exact here
    | cons first rest =>
      obtain ⟨rfl, rest⟩ := List.cons.inj split
      have asked : name ∈ parent.demands :=
        mem_demands.mpr (Or.inr ⟨here, passes parent List.mem_cons_self⟩)
      exact induction asked rest fun between member =>
        passes between (List.mem_cons_of_mem _ member)

mutual

/-- A name that a scope asks for is taken by that scope or by one inside it, from where
every scope in between hands it on. -/
theorem exists_taker : ∀ (scope : Scope) (chain : List Scope), Within root chain scope →
    name ∈ scope.demands → ∃ below taker, Within root (below ++ chain) taker ∧
      name ∈ taken taker.info ∧ ∀ between ∈ below, handsOn between.info name = true
  | mk info children, chain, within, asked => by
    rcases mem_demands.mp asked with takes | ⟨inside, passes⟩
    · exact ⟨[], mk info children, within, takes, by simp⟩
    · obtain ⟨below, taker, inner, takes, between⟩ :=
        exists_takerOfList children (mk info children) chain within (fun _ => id) inside
      refine ⟨below ++ [mk info children], taker, by simpa using inner, takes, ?_⟩
      simpa [or_imp, forall_and] using ⟨between, passes⟩

theorem exists_takerOfList : ∀ (scopes : List Scope) (parent : Scope) (chain : List Scope),
    Within root chain parent → (∀ scope ∈ scopes, scope ∈ parent.children) →
    name ∈ demandsOfList scopes → ∃ below taker, Within root (below ++ parent :: chain) taker ∧
      name ∈ taken taker.info ∧ ∀ between ∈ below, handsOn between.info name = true
  | [], _, _, _, _, asked => by simp [demandsOfList] at asked
  | first :: rest, parent, chain, within, members, asked => by
    rw [demandsOfList, List.mem_append] at asked
    rcases asked with asked | asked
    · exact exists_taker first (parent :: chain) (.child within (members first List.mem_cons_self))
        asked
    · exact exists_takerOfList rest parent chain within
        (fun scope member => members scope (List.mem_cons_of_mem _ member)) asked

end

/-- The function that holds a name for a scope inside it, with the scopes in between and
those around it: looking outward from the scope ends there, where the name is in a cell. -/
structure Holder (name : String) (below : List Scope) (owner : Scope) (above : List Scope) :
    Prop where
  found : Enclosing.owner? name ((below ++ owner :: above).map info) = some owner.info
  function : owner.info.kind = .functionScope
  own : owner.info.binding? name = some .own
  cell : name ∈ owner.cells
  nearest : ∀ between ∈ below, between.info.kind = .functionScope →
    between.info.binding? name ≠ some .own ∧ between.info.binding? name ≠ some .global

theorem Holder.of_handsOn {below above : List Scope} {owner : Scope} (cell : name ∈ owner.cells)
    (between : ∀ scope ∈ below, handsOn scope.info name = true) : Holder name below owner above := by
  obtain ⟨function, own, -⟩ := mem_cells.mp cell
  refine ⟨?_, function, own, cell, fun scope member isFunction => ?_⟩
  · rw [List.map_append, List.map_cons]
    refine Enclosing.owner?_append function own fun info member => ?_
    obtain ⟨scope, isScope, rfl⟩ := List.mem_map.mp member
    exact between scope isScope
  · have passes := between scope member
    constructor <;> intro binding <;> simp [handsOn, isFunction, binding] at passes

/-- In a module without errors, each name that a scope takes from outside is held in a
cell by a function around it, and each cell is for a name that a scope inside takes from
there. -/
theorem cells_sound_and_exact (body : List Stmt) (valid : (ofModule body).errors [] = []) :
    (∀ chain scope name, Within (ofModule body) chain scope →
      scope.info.binding? name = some .nonlocal →
      isReserved name = false ∧
        ∃ below owner above, chain = below ++ owner :: above ∧ Holder name below owner above) ∧
    (∀ chain owner name, Within (ofModule body) chain owner → name ∈ owner.cells →
      ∃ below scope, Within (ofModule body) (below ++ owner :: chain) scope ∧
        scope.info.binding? name = some .nonlocal ∧ Holder name below owner chain) := by
  constructor
  · intro chain scope name within outside
    refine ⟨(within.built.placed.outside name outside).1, ?_⟩
    -- Without errors there is an owner, and the scopes passed on the way to it hand the name on.
    obtain ⟨info, found⟩ := Option.isSome_iff_exists.mp ((within.resolved valid).1 name outside)
    obtain ⟨passed, beyond, split, function, own, between⟩ := Enclosing.exists_of_owner? found
    obtain ⟨below, back, rfl, rfl, tail⟩ := List.map_eq_append_iff.mp split
    obtain ⟨owner, above, rfl, rfl, rfl⟩ := List.map_eq_cons_iff.mp tail
    have passes : ∀ scope ∈ below, handsOn scope.info name = true :=
      fun scope member => between scope.info (List.mem_map_of_mem member)
    have asked : name ∈ scope.demands :=
      mem_demands.mpr (Or.inl ((mem_taken within.built.placed).mpr outside))
    have cell := mem_cells.mpr ⟨function, own, within.demanded asked rfl passes⟩
    exact ⟨below, owner, above, rfl, .of_handsOn cell passes⟩
  · intro chain owner name within cell
    obtain ⟨-, -, asked⟩ := mem_cells.mp cell
    obtain ⟨below, scope, inside, takes, between⟩ :=
      exists_takerOfList owner.children owner chain within (fun _ => id) asked
    exact ⟨below, scope, inside, (mem_taken inside.built.placed).mp takes, .of_handsOn cell between⟩

/-- A method that counts in a variable of the function around its class. -/
def methodCounter : List Stmt :=
  [.function [] .unknown ⟨.unknown, "f"⟩ [] none
    [.store "total" (.ofNat 0),
     .classDef [] .unknown ⟨.unknown, "C"⟩ []
      [.function [] .unknown ⟨.unknown, "count"⟩ [.plain "self"] none
        [.declare .unknown .nonlocal [⟨.unknown, "total"⟩], .store "total" (.ofNat 1)]]]]

theorem methodCounter_cells :
    (ofModule methodCounter).errors [] = [] ∧
      ∃ chain method, Within (ofModule methodCounter) chain method ∧
        (method :: chain).map (·.info.name) = ["count", "C", "f", ""] ∧
        ∃ below owner above, chain = below ++ owner :: above ∧ Holder "total" below owner above := by
  have valid : (ofModule methodCounter).errors [] = [] := by decide +kernel
  have top : Within (ofModule methodCounter) [] (ofModule methodCounter) := .root
  have within := ((top.child List.mem_cons_self).child List.mem_cons_self).child List.mem_cons_self
  exact ⟨valid, _, _, within, rfl,
    ((cells_sound_and_exact methodCounter valid).1 _ _ "total" within rfl).2⟩

end Scope
end Unsugar
