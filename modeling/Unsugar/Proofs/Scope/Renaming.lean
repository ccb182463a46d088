import Unsugar.Proofs.Scope.Order
import Unsugar.Proofs.Tree.Identifier
import Unsugar.Tree.Leaves

/-! What becomes of the names of a body when the names in it are written anew. The
declarations and the names that are bound are rewritten one by one. A use is too, unless a
lambda or a comprehension around it hides the new name: then another name that stands in
the body has become the same one. -/

namespace Unsugar

/-! ## Mentions -/

/-- Whether no other one of the names that stand in a body becomes the same name. -/
def IsApart (rename : String → String) (standing : List String) (written : String) : Prop :=
  ∀ other ∈ standing, rename other = rename written → other = written

/-- What the mentions of a body become when its names are renamed, but for the `fixed` ones
that it binds: those are bound by the names that they have. -/
structure Mentions.Renamed (rename : String → String) (standing fixed : List String)
    (before after : List Mention) : Prop where
  declared : Mentions.declared after =
    (Mentions.declared before).map fun (declaration, name) => (declaration, rename name)
  binds : ∀ written ∉ fixed, Mentions.binds before written = true →
    Mentions.binds after (rename written) = true
  bound : ∀ name ∉ fixed, Mentions.binds after name = true →
    ∃ written, rename written = name ∧ Mentions.binds before written = true
  loads : ∀ name, Mentions.loads after name = true →
    ∃ written, rename written = name ∧ Mentions.loads before written = true
  /-- A use is kept, unless its name is confused with another one. -/
  kept : ∀ written, Mentions.loads before written = true → IsApart rename standing written →
    Mentions.loads after (rename written) = true

namespace Mentions.Renamed

variable {rename : String → String} {standing fixed : List String}

theorem nil : Renamed rename standing fixed [] [] where
  declared := rfl
  binds := by simp [Mentions.binds]
  bound := by simp [Mentions.binds]
  loads := by simp [Mentions.loads]
  kept := by simp [Mentions.loads]

theorem append {before after moreBefore moreAfter : List Mention}
    (first : Renamed rename standing fixed before after)
    (second : Renamed rename standing fixed moreBefore moreAfter) :
    Renamed rename standing fixed (before ++ moreBefore) (after ++ moreAfter) where
  declared := by
    rw [declared_append, declared_append, List.map_append, first.declared, second.declared]
  binds written free binds := by
    rw [binds_append, Bool.or_eq_true] at binds ⊢
    exact binds.imp (first.binds written free) (second.binds written free)
  bound name free binds := by
    rw [binds_append, Bool.or_eq_true] at binds
    rcases binds with binds | binds
    · obtain ⟨written, isName, binds⟩ := first.bound name free binds
      exact ⟨written, isName, by simp [binds]⟩
    · obtain ⟨written, isName, binds⟩ := second.bound name free binds
      exact ⟨written, isName, by simp [binds]⟩
  loads name found := by
    rw [loads_append, Bool.or_eq_true] at found
    rcases found with found | found
    · obtain ⟨written, isName, used⟩ := first.loads name found
      exact ⟨written, isName, by simp [used]⟩
    · obtain ⟨written, isName, used⟩ := second.loads name found
      exact ⟨written, isName, by simp [used]⟩
  kept written used apart := by
    rw [loads_append, Bool.or_eq_true] at used ⊢
    exact used.imp (first.kept written · apart) (second.kept written · apart)

theorem load (name : String) :
    Renamed rename standing fixed [.load name] [.load (rename name)] where
  declared := rfl
  binds := by simp [Mention.binds]
  bound := by simp [Mention.binds]
  loads := by simp [Mention.isLoadOf]
  kept := by simp +contextual [Mention.isLoadOf]

/-- A use that is hidden afterwards. -/
theorem hiddenLoad {name : String} (confused : ¬ IsApart rename standing name) :
    Renamed rename standing fixed [.load name] [] where
  declared := rfl
  binds := by simp [Mentions.binds, Mention.binds]
  bound := by simp [Mentions.binds]
  loads := by simp [Mentions.loads]
  kept := by
    intro written used apart
    have same : name = written := by simpa [Mention.isLoadOf] using used
    exact absurd apart (same ▸ confused)

theorem bind (name : String) :
    Renamed rename standing fixed [.bind name] [.bind (rename name)] where
  declared := rfl
  binds := by simp +contextual [Mention.binds]
  bound := by simp [Mention.binds]
  loads := by simp [Mention.isLoadOf]
  kept := by simp [Mention.isLoadOf]

/-- A name that is bound as it was. -/
theorem fixedBind {name : String} (isFixed : name ∈ fixed) :
    Renamed rename standing fixed [.bind name] [.bind name] where
  declared := rfl
  binds written free binds := by
    have same : name = written := by simpa [Mention.binds] using binds
    exact absurd (same ▸ isFixed) free
  bound other free binds := by
    have same : name = other := by simpa [Mention.binds] using binds
    exact absurd (same ▸ isFixed) free
  loads := by simp [Mention.isLoadOf]
  kept := by simp [Mention.isLoadOf]

theorem function (name : String) :
    Renamed rename standing fixed [.function name] [.function (rename name)] where
  declared := rfl
  binds := by simp +contextual [Mention.binds]
  bound := by simp [Mention.binds]
  loads := by simp [Mention.isLoadOf]
  kept := by simp [Mention.isLoadOf]

theorem declare (declaration : Declaration) {before after : Ident}
    (renamed : after.name = rename before.name) :
    Renamed rename standing fixed [.declare declaration before] [.declare declaration after] where
  declared := by simp [Mentions.declared, renamed]
  binds := by simp [Mention.binds]
  bound := by simp [Mention.binds]
  loads := by simp [Mention.isLoadOf]
  kept := by simp [Mention.isLoadOf]

theorem flatMap {α : Type} {before after : α → List Mention} {items : List α}
    (each : ∀ item ∈ items, Renamed rename standing fixed (before item) (after item)) :
    Renamed rename standing fixed (items.flatMap before) (items.flatMap after) := by
  induction items with
  | nil => exact nil
  | cons first rest induction =>
    rw [List.flatMap_cons, List.flatMap_cons]
    exact (each first (by simp)).append (induction fun item member => each item (by simp [member]))

end Mentions.Renamed

/-! ## Collectors -/

namespace Collector

variable {α β γ δ : Type} {kind : ScopeKind} {rename : String → String}
  {standing fixed : List String}

/-- A collector gives a value and notes the mentions of a list, whatever was noted before. -/
def Yields (kind : ScopeKind) (value : α) (mentions : List Mention) (collector : Collector α) :
    Prop :=
  ∀ names, collector.run names = (value, names.noteAll kind mentions)

theorem Yields.bind {value : α} {result : β} {first second : List Mention}
    {collector : Collector α} {next : α → Collector β} (before : Yields kind value first collector)
    (after : Yields kind result second (next value)) :
    Yields kind result (first ++ second) (collector >>= next) := by
  intro names
  have step : (collector >>= next).run names =
      (next (collector.run names).1).run (collector.run names).2 := rfl
  rw [step, before names, after, Names.noteAll, Names.noteAll, Names.noteAll, List.foldl_append]

/-- Two collectors that go through the same part of a body, the second once its names are
renamed. -/
def Renames (kind : ScopeKind) (rename : String → String) (standing fixed : List String)
    (related : α → β → Prop) (before : Collector α) (after : Collector β) : Prop :=
  ∃ value result mentions renamed, related value result ∧
    Mentions.Renamed rename standing fixed mentions renamed ∧
    Yields kind value mentions before ∧ Yields kind result renamed after

/-- What is hidden around an expression, and what is hidden once names are renamed. -/
structure Hides (rename : String → String) (standing hidden after : List String) : Prop where
  renamed : after = hidden.map rename
  stand : ∀ name ∈ hidden, name ∈ standing

namespace Renames

variable {related : α → β → Prop} {others : γ → δ → Prop}

theorem pure {value : α} {result : β} (values : related value result) :
    Renames kind rename standing fixed related (Pure.pure value) (Pure.pure result) :=
  ⟨value, result, [], [], values, .nil, fun _ => rfl, fun _ => rfl⟩

theorem seq {before : Collector α} {after : Collector β} {next : α → Collector γ}
    {later : β → Collector δ} (first : Renames kind rename standing fixed related before after)
    (rest : ∀ value result, related value result →
      Renames kind rename standing fixed others (next value) (later result)) :
    Renames kind rename standing fixed others (before >>= next) (after >>= later) := by
  obtain ⟨value, result, mentions, renamed, values, here, yields, yieldsAfter⟩ := first
  obtain ⟨last, lastAfter, more, moreRenamed, lasts, there, ends, endsAfter⟩ :=
    rest value result values
  exact ⟨last, lastAfter, mentions ++ more, renamed ++ moreRenamed, lasts, here.append there,
    yields.bind ends, yieldsAfter.bind endsAfter⟩

theorem binds (name : String) :
    Renames kind rename standing fixed Eq (Collector.bind name) (Collector.bind (rename name)) :=
  ⟨(), (), _, _, rfl, .bind name, fun _ => rfl, fun _ => rfl⟩

/-- A name that is bound as it was, whether renaming would change it or not. -/
theorem bindsStill {name : String} (still : rename name ≠ name → name ∈ fixed) :
    Renames kind rename standing fixed Eq (Collector.bind name) (Collector.bind name) := by
  by_cases same : rename name = name
  · have renames : Renames kind rename standing fixed Eq (Collector.bind name)
        (Collector.bind (rename name)) := .binds name
    rwa [same] at renames
  · exact ⟨(), (), _, _, rfl, .fixedBind (still same), fun _ => rfl, fun _ => rfl⟩

theorem uses (name : String) :
    Renames kind rename standing fixed Eq (use name) (use (rename name)) :=
  ⟨(), (), _, _, rfl, .load name, fun _ => rfl, fun _ => rfl⟩

theorem defines (name : String) : Renames kind rename standing fixed Eq
    (do
      Collector.bind name
      modify fun names => { names with functions := insertNew name names.functions })
    (do
      Collector.bind (rename name)
      modify fun names => { names with functions := insertNew (rename name) names.functions }) :=
  ⟨(), (), _, _, rfl, .function name, fun _ => rfl, fun _ => rfl⟩

theorem declares (declaration : Declaration) {idents : List Ident} {renamed : Ident → Ident}
    (each : ∀ ident, (renamed ident).name = rename ident.name) :
    Renames kind rename standing fixed Eq
      (modify fun names => idents.foldl (Names.declare kind declaration) names)
      (modify fun names => (idents.map renamed).foldl (Names.declare kind declaration) names) := by
  refine ⟨(), (), idents.flatMap fun ident => [.declare declaration ident],
    idents.flatMap fun ident => [.declare declaration (renamed ident)], rfl,
    .flatMap fun ident _ => .declare declaration (each ident), fun names => ?_, fun names => ?_⟩
  · rw [← List.map_eq_flatMap, Names.noteAll, List.foldl_map]
    rfl
  · rw [← List.map_eq_flatMap, Names.noteAll, List.foldl_map]
    exact congrArg (Prod.mk ()) List.foldl_map

theorem forM {change : α → β} {items : List α} {before : α → Collector Unit}
    {after : β → Collector Unit}
    (each : ∀ item ∈ items, Renames kind rename standing fixed Eq (before item)
      (after (change item))) :
    Renames kind rename standing fixed Eq (items.forM before) ((items.map change).forM after) := by
  induction items with
  | nil => exact pure rfl
  | cons first rest induction =>
    exact (each first (by simp)).seq fun _ _ _ =>
      induction fun item member => each item (by simp [member])

/-- A use of a name, where it is not hidden, and what follows. -/
theorem useUnlessHidden {hidden after : List String} (hides : Hides rename standing hidden after)
    (name : String) {next : Collector α} {later : Collector β}
    (rest : Renames kind rename standing fixed related next later) :
    Renames kind rename standing fixed related
      (if !hidden.contains name then use name >>= fun _ => next else next)
      (if !after.contains (rename name) then use (rename name) >>= fun _ => later else later) := by
  cases isHidden : hidden.contains name with
  | true =>
    have hiddenAfter : after.contains (rename name) = true := by
      rw [hides.renamed, List.contains_iff_mem]
      exact List.mem_map_of_mem (List.contains_iff_mem.mp isHidden)
    rw [hiddenAfter]
    exact rest
  | false =>
    cases isHiddenAfter : after.contains (rename name) with
    | false => exact (uses name).seq fun _ _ _ => rest
    | true =>
      -- Another name hides the use afterwards.
      have confused : ¬ IsApart rename standing name := by
        intro apart
        rw [hides.renamed, List.contains_iff_mem] at isHiddenAfter
        obtain ⟨other, isMember, same⟩ := List.mem_map.mp isHiddenAfter
        rw [apart other (hides.stand other isMember) same] at isMember
        rw [List.contains_iff_mem.mpr isMember] at isHidden
        cases isHidden
      obtain ⟨value, result, mentions, renamed, values, there, yields, yieldsAfter⟩ := rest
      have used : Yields kind () [.load name] (use name) := fun _ => rfl
      exact ⟨value, result, [.load name] ++ mentions, [] ++ renamed, values,
        (Mentions.Renamed.hiddenLoad confused).append there, used.bind yields, yieldsAfter⟩

end Renames

/-! ## Names of targets -/

/-- The name that an expression is. -/
def written? : Node → Option String
  | .expr (.name _ id) => some id
  | _ => none

/-- The names among the nodes of a walk. -/
def writtenAmong (visits : List Visit) : List String :=
  visits.filterMap fun visit => written? visit.node

theorem namesIn_eq_writtenAmong (expr : Expr) :
    namesIn expr = writtenAmong (expr.walk (fun _ => true) 0) := by
  rw [namesIn, Expr.nodes, List.filterMap_map]
  rfl

/-- The names in an expression stand in it. -/
theorem namesIn_subset (expr : Expr) : namesIn expr ⊆ expr.identifiers := by
  intro name found
  rw [namesIn_eq_writtenAmong, writtenAmong, List.mem_filterMap] at found
  obtain ⟨visit, isMember, isName⟩ := found
  rw [← expr.names_walk 0, Visit.names, List.mem_flatMap]
  refine ⟨visit, isMember, ?_⟩
  unfold written? at isName
  split at isName
  · rename_i isExpr
    rw [isExpr, Context.namesOf]
    exact List.mem_singleton.mpr (Option.some.inj isName).symm
  · cases isName

@[simp] theorem writtenAmong_nil : writtenAmong [] = [] := rfl

@[simp] theorem writtenAmong_append (first second : List Visit) :
    writtenAmong (first ++ second) = writtenAmong first ++ writtenAmong second :=
  List.filterMap_append

@[simp] theorem writtenAmong_visit (depth : Nat) (node : Node) (below : List Visit) :
    writtenAmong (node.visit (fun _ => true) depth below) =
      (written? node).toList ++ writtenAmong below := by
  cases found : written? node <;> simp [writtenAmong, Node.visit, found]

@[simp] theorem writtenAmong_ident (depth : Nat) (ident : Ident) :
    writtenAmong (ident.walk depth) = [ident.name] := rfl

section

variable (leaves : LeafMap)

open Unsugar.Expr

@[simp] theorem writtenAmong_identOption (depth : Nat) (ident : Option Ident) :
    writtenAmong (Ident.walkOption depth (ident.map leaves.ident)) =
      (writtenAmong (Ident.walkOption depth ident)).map leaves.name := by
  cases ident <;> rfl

mutual

theorem writtenAmong_walk : ∀ (expr : Expr) (depth : Nat),
    writtenAmong ((expr.mapLeaves leaves).walk (fun _ => true) depth) =
      (writtenAmong (expr.walk (fun _ => true) depth)).map leaves.name
  | .name .., _ => rfl
  | .literal .., _ => rfl
  | .fstring _ _ parts, _ => by simp [walk, mapLeaves, written?, writtenAmong_walkList parts]
  | .field _ value _ spec, _ => by
    simp [walk, mapLeaves, written?, writtenAmong_walk value, writtenAmong_walkOption spec]
  | .call callee arguments _, _ => by
    simp [walk, mapLeaves, written?, writtenAmong_walk callee, writtenAmong_walkList arguments]
  | .keyword _ _ value, _ | .starred _ _ value, _ | .member value _ _, _ | .unary _ _ value, _ => by
    simp [walk, mapLeaves, written?, writtenAmong_walk value]
  | .subscript left right _, _ | .binary left _ _ right, _ | .logical left _ _ right, _
  | .entry left right, _ => by
    simp [walk, mapLeaves, written?, writtenAmong_walk left, writtenAmong_walk right]
  | .slice _ lower upper step, _ => by
    simp [walk, mapLeaves, written?, writtenAmong_walkOption lower, writtenAmong_walkOption upper,
      writtenAmong_walkOption step]
  | .compare left _ rights, _ => by
    simp [walk, mapLeaves, written?, writtenAmong_walk left, writtenAmong_walkList rights]
  | .conditional test whenTrue whenFalse, _ => by
    simp [walk, mapLeaves, written?, writtenAmong_walk test, writtenAmong_walk whenTrue,
      writtenAmong_walk whenFalse]
  | .lambda _ params body, _ => by
    simp [walk, mapLeaves, written?, writtenAmong_walkParams params, writtenAmong_walk body]
  | .list _ items _, _ | .tuple _ items _, _ | .set _ items _, _ | .dict _ items _, _ => by
    simp [walk, mapLeaves, written?, writtenAmong_walkList items]
  | .comprehension _ _ body clauses _, _ => by
    simp [walk, mapLeaves, written?, writtenAmong_walk body, writtenAmong_walkClauses clauses]
  | .named target value, _ => by
    simp [walk, mapLeaves, written?, writtenAmong_walk value, LeafMap.ident]
  | .yield _ _ value, _ => by simp [walk, mapLeaves, written?, writtenAmong_walkOption value]

theorem writtenAmong_walkOption : ∀ (value : Option Expr) (depth : Nat),
    writtenAmong (walkOption (fun _ => true) depth (mapLeavesOption leaves value)) =
      (writtenAmong (walkOption (fun _ => true) depth value)).map leaves.name
  | none, _ => rfl
  | some value, _ => writtenAmong_walk value _

theorem writtenAmong_walkList : ∀ (items : List Expr) (depth : Nat),
    writtenAmong (walkList (fun _ => true) depth (mapLeavesList leaves items)) =
      (writtenAmong (walkList (fun _ => true) depth items)).map leaves.name
  | [], _ => rfl
  | first :: rest, _ => by
    simp [walkList, mapLeavesList, writtenAmong_walk first, writtenAmong_walkList rest]

theorem writtenAmong_walkParams : ∀ (params : List Param) (depth : Nat),
    writtenAmong (walkParams (fun _ => true) depth (mapLeavesParams leaves params)) =
      (writtenAmong (walkParams (fun _ => true) depth params)).map leaves.name
  | [], _ => rfl
  | .mk _ _ _ hint default :: rest, _ => by
    simp [walkParams, walkParam, mapLeavesParams, mapLeavesParam, written?,
      writtenAmong_walkOption hint, writtenAmong_walkOption default, writtenAmong_walkParams rest]

theorem writtenAmong_walkClauses : ∀ (clauses : List Clause) (depth : Nat),
    writtenAmong (walkClauses (fun _ => true) depth (mapLeavesClauses leaves clauses)) =
      (writtenAmong (walkClauses (fun _ => true) depth clauses)).map leaves.name
  | [], _ => rfl
  | .loop _ target iterable :: rest, _ => by
    simp [walkClauses, walkClause, mapLeavesClauses, mapLeavesClause, written?,
      writtenAmong_walk target, writtenAmong_walk iterable, writtenAmong_walkClauses rest]
  | .filter _ test :: rest, _ => by
    simp [walkClauses, walkClause, mapLeavesClauses, mapLeavesClause, written?,
      writtenAmong_walk test, writtenAmong_walkClauses rest]

end

end

/-! ## Expressions -/

section

variable (leaves : LeafMap)

theorem namesIn_hides {target : Expr} (stands : target.identifiers ⊆ standing) :
    Hides leaves.name standing (namesIn target) (namesIn (target.mapLeaves leaves)) := by
  refine ⟨?_, fun name found => stands (namesIn_subset target found)⟩
  rw [namesIn_eq_writtenAmong, namesIn_eq_writtenAmong, writtenAmong_walk]

theorem paramNames_hides {params : List Param} (stands : Expr.identifiersOfParams params ⊆ standing) :
    Hides leaves.name standing (paramNames params)
      (paramNames (Expr.mapLeavesParams leaves params)) := by
  induction params with
  | nil => exact ⟨rfl, by simp [paramNames]⟩
  | cons first rest induction =>
    obtain ⟨_, _, ident, _, _⟩ := first
    have ⟨inFirst, inRest⟩ := List.append_subset.mp stands
    have later := induction inRest
    cases ident with
    | none => exact later
    | some ident =>
      have here : ident.name ∈ standing := inFirst (by simp [Ident.identifiers])
      exact ⟨congrArg (leaves.name ident.name :: ·) later.renamed,
        List.forall_mem_cons.mpr ⟨here, later.stand⟩⟩

theorem Hides.append {first second after more : List String}
    (hides : Hides rename standing first after) (others : Hides rename standing second more) :
    Hides rename standing (first ++ second) (after ++ more) := by
  refine ⟨by rw [hides.renamed, others.renamed, List.map_append], fun name member => ?_⟩
  exact (List.mem_append.mp member).elim (hides.stand name) (others.stand name)

theorem Hides.nil : Hides rename standing [] [] := ⟨rfl, by simp⟩

open Unsugar.Expr (identifiersOfOption identifiersOfList identifiersOfParams identifiersOfClauses
  mapLeavesOption mapLeavesList mapLeavesParams mapLeavesClauses)

mutual

theorem free_renames (exports : Bool) : ∀ {hidden after : List String} (value : Expr),
    value.identifiers ⊆ standing → Hides leaves.name standing hidden after →
      Renames kind leaves.name standing fixed (Hides leaves.name standing)
        (free exports hidden value) (free exports after (value.mapLeaves leaves))
  | hidden, after, .name _ id, _, hides => by
    rw [free, Expr.mapLeaves, free]
    exact .useUnlessHidden hides id (.pure hides)
  | hidden, after, .named target value, stands, hides => by
    have ⟨isTarget, below⟩ := List.cons_subset.mp stands
    rw [free, Expr.mapLeaves, free]
    split
    · have hidesTarget : Hides leaves.name standing (target.name :: hidden)
          ((leaves.ident target).name :: after) :=
        ⟨by rw [hides.renamed]; rfl, List.forall_mem_cons.mpr ⟨isTarget, hides.stand⟩⟩
      exact (Renames.binds target.name).seq fun _ _ _ => free_renames exports value below hidesTarget
    · exact .useUnlessHidden hides target.name (free_renames exports value below hides)
  | hidden, after, .lambda _ params body, stands, hides =>
    have ⟨inParams, inBody⟩ := List.append_subset.mp stands
    (freeDefaults_renames exports params inParams hides).seq fun _ _ hidesAfter =>
      (free_renames false body inBody ((paramNames_hides leaves inParams).append hides)).seq
        fun _ _ _ => .pure hidesAfter
  | hidden, after, .literal .., _, hides => .pure hides
  | hidden, after, .fstring _ _ parts, stands, hides => freeList_renames exports parts stands hides
  | hidden, after, .field _ value _ spec, stands, hides =>
    have ⟨inValue, inSpec⟩ := List.append_subset.mp stands
    (free_renames exports value inValue hides).seq fun _ _ hides =>
      freeOption_renames exports spec inSpec hides
  | hidden, after, .call callee arguments _, stands, hides =>
    have ⟨inCallee, inArguments⟩ := List.append_subset.mp stands
    (free_renames exports callee inCallee hides).seq fun _ _ hides =>
      freeList_renames exports arguments inArguments hides
  | hidden, after, .keyword _ _ value, stands, hides => free_renames exports value stands hides
  | hidden, after, .starred _ _ value, stands, hides => free_renames exports value stands hides
  | hidden, after, .member object _ _, stands, hides => free_renames exports object stands hides
  | hidden, after, .subscript object key _, stands, hides =>
    have ⟨inObject, inKey⟩ := List.append_subset.mp stands
    (free_renames exports object inObject hides).seq fun _ _ hides =>
      free_renames exports key inKey hides
  | hidden, after, .slice _ lower upper step, stands, hides =>
    have ⟨inBounds, inStep⟩ := List.append_subset.mp stands
    have ⟨inLower, inUpper⟩ := List.append_subset.mp inBounds
    (freeOption_renames exports lower inLower hides).seq fun _ _ hides =>
      (freeOption_renames exports upper inUpper hides).seq fun _ _ hides =>
        freeOption_renames exports step inStep hides
  | hidden, after, .binary left _ _ right, stands, hides =>
    have ⟨inLeft, inRight⟩ := List.append_subset.mp stands
    (free_renames exports left inLeft hides).seq fun _ _ hides =>
      free_renames exports right inRight hides
  | hidden, after, .logical left _ _ right, stands, hides =>
    have ⟨inLeft, inRight⟩ := List.append_subset.mp stands
    (free_renames exports left inLeft hides).seq fun _ _ hides =>
      free_renames exports right inRight hides
  | hidden, after, .compare left _ rights, stands, hides =>
    have ⟨inLeft, inRights⟩ := List.append_subset.mp stands
    (free_renames exports left inLeft hides).seq fun _ _ hides =>
      freeList_renames exports rights inRights hides
  | hidden, after, .unary _ _ operand, stands, hides => free_renames exports operand stands hides
  | hidden, after, .conditional test whenTrue whenFalse, stands, hides =>
    have ⟨inBoth, inFalse⟩ := List.append_subset.mp stands
    have ⟨inTest, inTrue⟩ := List.append_subset.mp inBoth
    (free_renames exports test inTest hides).seq fun _ _ hides =>
      (free_renames exports whenTrue inTrue hides).seq fun _ _ hides =>
        free_renames exports whenFalse inFalse hides
  | hidden, after, .list _ items _, stands, hides => freeList_renames exports items stands hides
  | hidden, after, .tuple _ items _, stands, hides => freeList_renames exports items stands hides
  | hidden, after, .set _ items _, stands, hides => freeList_renames exports items stands hides
  | hidden, after, .dict _ items _, stands, hides => freeList_renames exports items stands hides
  | hidden, after, .entry key value, stands, hides =>
    have ⟨inKey, inValue⟩ := List.append_subset.mp stands
    (free_renames exports key inKey hides).seq fun _ _ hides =>
      free_renames exports value inValue hides
  | hidden, after, .comprehension _ _ body clauses _, stands, hides =>
    have ⟨inBody, inClauses⟩ := List.append_subset.mp stands
    (free_renames exports body inBody hides).seq fun _ _ hides =>
      freeClauses_renames exports clauses inClauses hides
  | hidden, after, .yield _ _ value, stands, hides =>
    freeOption_renames exports value stands hides

theorem freeOption_renames (exports : Bool) : ∀ {hidden after : List String} (value : Option Expr),
    identifiersOfOption value ⊆ standing → Hides leaves.name standing hidden after →
      Renames kind leaves.name standing fixed (Hides leaves.name standing)
        (freeOption exports hidden value) (freeOption exports after (mapLeavesOption leaves value))
  | _, _, none, _, hides => .pure hides
  | _, _, some value, stands, hides => free_renames exports value stands hides

theorem freeList_renames (exports : Bool) : ∀ {hidden after : List String} (items : List Expr),
    identifiersOfList items ⊆ standing → Hides leaves.name standing hidden after →
      Renames kind leaves.name standing fixed (Hides leaves.name standing)
        (freeList exports hidden items) (freeList exports after (mapLeavesList leaves items))
  | _, _, [], _, hides => .pure hides
  | _, _, first :: rest, stands, hides =>
    have ⟨inFirst, inRest⟩ := List.append_subset.mp stands
    (free_renames exports first inFirst hides).seq fun _ _ hides =>
      freeList_renames exports rest inRest hides

theorem freeDefaults_renames (exports : Bool) :
    ∀ {hidden after : List String} (params : List Param),
    identifiersOfParams params ⊆ standing → Hides leaves.name standing hidden after →
      Renames kind leaves.name standing fixed (Hides leaves.name standing)
        (freeDefaults exports hidden params)
        (freeDefaults exports after (mapLeavesParams leaves params))
  | _, _, [], _, hides => .pure hides
  | _, _, .mk _ _ _ _ default :: rest, stands, hides =>
    have ⟨inFirst, inRest⟩ := List.append_subset.mp stands
    have ⟨_, inDefault⟩ := List.append_subset.mp inFirst
    (freeOption_renames exports default inDefault hides).seq fun _ _ hides =>
      freeDefaults_renames exports rest inRest hides

theorem freeClauses_renames (exports : Bool) :
    ∀ {hidden after : List String} (clauses : List Clause),
    identifiersOfClauses clauses ⊆ standing → Hides leaves.name standing hidden after →
      Renames kind leaves.name standing fixed (Hides leaves.name standing)
        (freeClauses exports hidden clauses)
        (freeClauses exports after (mapLeavesClauses leaves clauses))
  | _, _, [], _, hides => .pure hides
  | _, _, .loop _ target iterable :: rest, stands, hides =>
    have ⟨inFirst, inRest⟩ := List.append_subset.mp stands
    have ⟨inTarget, inIterable⟩ := List.append_subset.mp inFirst
    (free_renames exports target inTarget hides).seq fun _ _ hides =>
      (free_renames exports iterable inIterable hides).seq fun _ _ hides =>
        freeClauses_renames exports rest inRest hides
  | _, _, .filter _ test :: rest, stands, hides =>
    have ⟨inTest, inRest⟩ := List.append_subset.mp stands
    (free_renames exports test inTest hides).seq fun _ _ hides =>
      freeClauses_renames exports rest inRest hides

end

theorem laterClauses_renames : ∀ {hidden after : List String} (clauses : List Clause),
    identifiersOfClauses clauses ⊆ standing → Hides leaves.name standing hidden after →
      Renames kind leaves.name standing fixed (Hides leaves.name standing)
        (laterClauses hidden clauses) (laterClauses after (mapLeavesClauses leaves clauses))
  | _, _, [], _, hides => .pure hides
  | _, _, .loop _ _ iterable :: rest, stands, hides =>
    have ⟨inFirst, inRest⟩ := List.append_subset.mp stands
    have ⟨inTarget, inIterable⟩ := List.append_subset.mp inFirst
    (free_renames leaves true iterable inIterable hides).seq fun _ _ hides =>
      laterClauses_renames rest inRest ((namesIn_hides leaves inTarget).append hides)
  | _, _, .filter _ test :: rest, stands, hides =>
    have ⟨inTest, inRest⟩ := List.append_subset.mp stands
    (free_renames leaves true test inTest hides).seq fun _ _ hides =>
      laterClauses_renames rest inRest hides

theorem laterClauses_drop_renames {hidden after : List String} {clauses : List Clause}
    (stands : identifiersOfClauses clauses ⊆ standing)
    (hides : Hides leaves.name standing hidden after) :
    Renames kind leaves.name standing fixed (Hides leaves.name standing)
      (laterClauses hidden (clauses.drop 1))
      (laterClauses after ((mapLeavesClauses leaves clauses).drop 1)) := by
  cases clauses with
  | nil => exact .pure hides
  | cons first rest =>
    refine laterClauses_renames leaves rest ?_ hides
    cases first <;> exact (List.append_subset.mp stands).2

mutual

theorem expr_renames : ∀ value : Expr, value.identifiers ⊆ standing →
    Renames kind leaves.name standing fixed Eq (expr value) (expr (value.mapLeaves leaves))
  | .name _ id, _ => .uses id
  | .named target value, stands =>
    have ⟨_, inValue⟩ := List.cons_subset.mp stands
    (expr_renames value inValue).seq fun _ _ _ => .binds target.name
  | .lambda _ params body, stands =>
    have ⟨inParams, inBody⟩ := List.append_subset.mp stands
    (defaults_renames params inParams).seq fun _ _ _ =>
      (free_renames leaves false body inBody (paramNames_hides leaves inParams)).seq
        fun _ _ _ => .pure rfl
  | .fstring _ _ parts, stands =>
    (freeList_renames leaves true parts stands .nil).seq fun _ _ _ => .pure rfl
  | .comprehension _ _ body clauses _, stands =>
    have ⟨inBody, inClauses⟩ := List.append_subset.mp stands
    (firstClause_renames clauses inClauses).seq fun _ _ hides =>
      (laterClauses_drop_renames leaves inClauses hides).seq fun _ _ hides =>
        (free_renames leaves true body inBody hides).seq fun _ _ _ => .pure rfl
  | .literal .., _ => .pure rfl
  | .field _ value _ spec, stands =>
    have ⟨inValue, inSpec⟩ := List.append_subset.mp stands
    (expr_renames value inValue).seq fun _ _ _ => optional_renames spec inSpec
  | .call callee arguments _, stands =>
    have ⟨inCallee, inArguments⟩ := List.append_subset.mp stands
    (expr_renames callee inCallee).seq fun _ _ _ => exprs_renames arguments inArguments
  | .keyword _ _ value, stands => expr_renames value stands
  | .starred _ _ value, stands => expr_renames value stands
  | .member object _ _, stands => expr_renames object stands
  | .subscript object key _, stands =>
    have ⟨inObject, inKey⟩ := List.append_subset.mp stands
    (expr_renames object inObject).seq fun _ _ _ => expr_renames key inKey
  | .slice _ lower upper step, stands =>
    have ⟨inBounds, inStep⟩ := List.append_subset.mp stands
    have ⟨inLower, inUpper⟩ := List.append_subset.mp inBounds
    (optional_renames lower inLower).seq fun _ _ _ =>
      (optional_renames upper inUpper).seq fun _ _ _ => optional_renames step inStep
  | .binary left _ _ right, stands =>
    have ⟨inLeft, inRight⟩ := List.append_subset.mp stands
    (expr_renames left inLeft).seq fun _ _ _ => expr_renames right inRight
  | .logical left _ _ right, stands =>
    have ⟨inLeft, inRight⟩ := List.append_subset.mp stands
    (expr_renames left inLeft).seq fun _ _ _ => expr_renames right inRight
  | .compare left _ rights, stands =>
    have ⟨inLeft, inRights⟩ := List.append_subset.mp stands
    (expr_renames left inLeft).seq fun _ _ _ => exprs_renames rights inRights
  | .unary _ _ operand, stands => expr_renames operand stands
  | .conditional test whenTrue whenFalse, stands =>
    have ⟨inBoth, inFalse⟩ := List.append_subset.mp stands
    have ⟨inTest, inTrue⟩ := List.append_subset.mp inBoth
    (expr_renames test inTest).seq fun _ _ _ =>
      (expr_renames whenTrue inTrue).seq fun _ _ _ => expr_renames whenFalse inFalse
  | .list _ items _, stands => exprs_renames items stands
  | .tuple _ items _, stands => exprs_renames items stands
  | .set _ items _, stands => exprs_renames items stands
  | .dict _ items _, stands => exprs_renames items stands
  | .entry key value, stands =>
    have ⟨inKey, inValue⟩ := List.append_subset.mp stands
    (expr_renames key inKey).seq fun _ _ _ => expr_renames value inValue
  | .yield _ _ value, stands => optional_renames value stands

theorem optional_renames : ∀ value : Option Expr, identifiersOfOption value ⊆ standing →
    Renames kind leaves.name standing fixed Eq (optional value)
      (optional (mapLeavesOption leaves value))
  | none, _ => .pure rfl
  | some value, stands => expr_renames value stands

theorem exprs_renames : ∀ items : List Expr, identifiersOfList items ⊆ standing →
    Renames kind leaves.name standing fixed Eq (exprs items) (exprs (mapLeavesList leaves items))
  | [], _ => .pure rfl
  | first :: rest, stands =>
    have ⟨inFirst, inRest⟩ := List.append_subset.mp stands
    (expr_renames first inFirst).seq fun _ _ _ => exprs_renames rest inRest

theorem defaults_renames : ∀ params : List Param, identifiersOfParams params ⊆ standing →
    Renames kind leaves.name standing fixed Eq (defaults params)
      (defaults (mapLeavesParams leaves params))
  | [], _ => .pure rfl
  | .mk _ _ _ _ default :: rest, stands =>
    have ⟨inFirst, inRest⟩ := List.append_subset.mp stands
    have ⟨_, inDefault⟩ := List.append_subset.mp inFirst
    (optional_renames default inDefault).seq fun _ _ _ => defaults_renames rest inRest

theorem firstClause_renames : ∀ clauses : List Clause, identifiersOfClauses clauses ⊆ standing →
    Renames kind leaves.name standing fixed (Hides leaves.name standing) (firstClause clauses)
      (firstClause (mapLeavesClauses leaves clauses))
  | .loop _ _ iterable :: _, stands =>
    have ⟨inFirst, _⟩ := List.append_subset.mp stands
    have ⟨inTarget, inIterable⟩ := List.append_subset.mp inFirst
    (expr_renames iterable inIterable).seq fun _ _ _ => .pure (namesIn_hides leaves inTarget)
  | .filter _ test :: _, stands =>
    have ⟨inTest, _⟩ := List.append_subset.mp stands
    free_renames leaves true test inTest .nil
  | [], _ => .pure .nil

end

mutual

theorem target_renames : ∀ value : Expr, value.identifiers ⊆ standing →
    Renames kind leaves.name standing fixed Eq (target value) (target (value.mapLeaves leaves))
  | .name _ id, _ => .binds id
  | .tuple _ items _, stands => targets_renames items stands
  | .list _ items _, stands => targets_renames items stands
  | .starred _ _ value, stands => target_renames value stands
  | .member object _ _, stands => expr_renames leaves object stands
  | .subscript object key _, stands =>
    have ⟨inObject, inKey⟩ := List.append_subset.mp stands
    (expr_renames leaves object inObject).seq fun _ _ _ => expr_renames leaves key inKey
  | .literal .., _ | .fstring .., _ | .field .., _ | .call .., _ | .keyword .., _ | .slice .., _
  | .binary .., _ | .logical .., _ | .compare .., _ | .unary .., _ | .conditional .., _
  | .lambda .., _ | .set .., _ | .dict .., _ | .entry .., _ | .comprehension .., _
  | .named .., _ | .yield .., _ => .pure rfl

theorem targets_renames : ∀ items : List Expr, identifiersOfList items ⊆ standing →
    Renames kind leaves.name standing fixed Eq (targets items)
      (targets (mapLeavesList leaves items))
  | [], _ => .pure rfl
  | first :: rest, stands =>
    have ⟨inFirst, inRest⟩ := List.append_subset.mp stands
    (target_renames first inFirst).seq fun _ _ _ => targets_renames rest inRest

end

end

end Collector
end Unsugar
