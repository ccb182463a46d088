import Unsugar.Proofs.Tree.Renamed

/-! When two renamed trees are the same: exactly if they are once all names are forgotten,
and the names in them are the same, one by one in the order of a walk. -/

namespace Unsugar

open Collector (written? writtenAmong writtenAmong_append writtenAmong_visit)

/-- Forgets what a name is. -/
def blank : String → String := fun _ => ""

theorem map_blank_eq_iff {lefts rights : List String} :
    lefts.map blank = rights.map blank ↔ lefts.length = rights.length := by
  change lefts.map (Function.const String "") = rights.map (Function.const String "") ↔ _
  rw [List.map_const, List.map_const]
  exact ⟨fun same => by simpa using congrArg List.length same, fun same => by rw [same]⟩

/-- A test of two renamed trees looks at their names only to compare them, one by one. -/
def ComparesNames (test : (String → String) → (String → String) → Bool)
    (lefts rights : List Visit) : Prop :=
  ∀ rename other, test rename other = true ↔ test blank blank = true ∧
    (writtenAmong lefts).map rename = (writtenAmong rights).map other

namespace ComparesNames

variable {test next : (String → String) → (String → String) → Bool}
  {lefts rights more others : List Visit}

theorem length_eq (compares : ComparesNames test lefts rights) (shapes : test blank blank = true) :
    (writtenAmong lefts).length = (writtenAmong rights).length :=
  map_blank_eq_iff.mp ((compares blank blank).mp shapes).2

theorem never : ComparesNames (fun _ _ => false) lefts rights := fun _ _ => by simp

theorem always : ComparesNames (fun _ _ => true) [] [] := fun _ _ => by simp

/-- Tests of parts that follow each other. -/
theorem and (first : ComparesNames test lefts rights) (second : ComparesNames next more others) :
    ComparesNames (fun rename other => test rename other && next rename other) (lefts ++ more)
      (rights ++ others) := by
  intro rename other
  simp only [Bool.and_eq_true, writtenAmong_append, List.map_append]
  constructor
  · rintro ⟨here, there⟩
    obtain ⟨shape, names⟩ := (first rename other).mp here
    obtain ⟨shapes, later⟩ := (second rename other).mp there
    exact ⟨⟨shape, shapes⟩, by rw [names, later]⟩
  · rintro ⟨⟨shape, shapes⟩, names⟩
    -- Equal shapes have equally many names, so the lists part where the trees do.
    have lengths : ((writtenAmong lefts).map rename).length =
        ((writtenAmong rights).map other).length := by
      rw [List.length_map, List.length_map, first.length_eq shape]
    obtain ⟨here, there⟩ := List.append_inj names lengths
    exact ⟨(first rename other).mpr ⟨shape, here⟩, (second rename other).mpr ⟨shapes, there⟩⟩

/-- A condition on what renaming leaves alone. -/
theorem when (condition : Bool) (compares : ComparesNames test lefts rights) :
    ComparesNames (fun rename other => condition && test rename other) lefts rights := by
  cases condition with
  | true => simpa using compares
  | false => simpa using never

theorem andWhen (condition : Bool) (compares : ComparesNames test lefts rights) :
    ComparesNames (fun rename other => test rename other && condition) lefts rights := by
  simpa only [Bool.and_comm] using compares.when condition

/-- Nodes that are no names themselves. -/
theorem node {left right : Node} (leftOther : written? left = none)
    (rightOther : written? right = none) {depth level : Nat}
    (compares : ComparesNames test lefts rights) :
    ComparesNames test (left.visit (fun _ => true) depth lefts)
      (right.visit (fun _ => true) level rights) := by
  intro rename other
  rw [compares rename other, writtenAmong_visit, writtenAmong_visit, leftOther, rightOther]
  rfl

theorem name {left right : String} {position place : Position} {depth level : Nat} :
    ComparesNames (fun rename other => rename left == other right)
      [⟨depth, .expr (.name position left)⟩] [⟨level, .expr (.name place right)⟩] := by
  intro rename other
  simp [writtenAmong, written?, blank]

theorem identOption {left right : Option Ident} {depth level : Nat} :
    ComparesNames (fun rename other => sameOption Ident.same
        (left.map (LeafMap.naming rename).ident) (right.map (LeafMap.naming other).ident))
      (Ident.walkOption depth left) (Ident.walkOption level right) := by
  cases left with
  | none =>
    cases right with
    | none => exact always
    | some => exact never
  | some =>
    cases right with
    | none => exact never
    | some => exact name

/-- Lists are compared item by item. -/
theorem items {α : Type} {change : (String → String) → α → α} {same : α → α → Bool}
    {walk : Nat → α → List Visit} {depth level : Nat}
    (each : ∀ left right, ComparesNames
      (fun rename other => same (change rename left) (change other right))
      (walk depth left) (walk level right)) :
    ∀ left right : List α, ComparesNames
      (fun rename other => sameList same (left.map (change rename)) (right.map (change other)))
      (left.flatMap (walk depth)) (right.flatMap (walk level))
  | [], [] => always
  | [], _ :: _ => never
  | _ :: _, [] => never
  | left :: lefts, right :: rights => by
    simp only [List.map_cons, List.flatMap_cons, sameList]
    exact (each left right).and (items each lefts rights)

end ComparesNames

namespace Expr

mutual

theorem same_comparesNames : ∀ (left right : Expr) {depth level : Nat},
    ComparesNames
      (fun rename other => (left.mapLeaves (.naming rename)).same (right.mapLeaves (.naming other)))
      (left.walk (fun _ => true) depth) (right.walk (fun _ => true) level)
  | .name .., right, _, _ => by
    cases right
    case name => exact .name
    all_goals exact .never
  | .literal .., right, _, _ => by
    cases right
    case literal => exact .node rfl rfl (.andWhen _ .always)
    all_goals exact .never
  | .fstring _ _ lefts, right, _, _ => by
    cases right
    case fstring => exact .node rfl rfl (sameItems_comparesNames lefts _)
    all_goals exact .never
  | .field _ left _ leftSpec, right, _, _ => by
    cases right
    case field =>
      exact .node rfl rfl (((same_comparesNames left _).andWhen _).and
        (sameOptional_comparesNames leftSpec _))
    all_goals exact .never
  | .call left lefts _, right, _, _ => by
    cases right
    case call =>
      exact .node rfl rfl ((same_comparesNames left _).and (sameItems_comparesNames lefts _))
    all_goals exact .never
  | .keyword _ _ left, right, _, _ => by
    cases right
    case keyword => exact .node rfl rfl ((same_comparesNames left _).when _)
    all_goals exact .never
  | .starred _ _ left, right, _, _ => by
    cases right
    case starred => exact .node rfl rfl ((same_comparesNames left _).when _)
    all_goals exact .never
  | .member left _ leftId, right, _, _ => by
    cases right
    case member _ _ rightId =>
      exact .node rfl rfl ((same_comparesNames left _).andWhen (leftId == rightId))
    all_goals exact .never
  | .subscript left leftKey _, right, _, _ => by
    cases right
    case subscript =>
      exact .node rfl rfl ((same_comparesNames left _).and (same_comparesNames leftKey _))
    all_goals exact .never
  | .slice _ leftLower leftUpper leftStep, right, _, _ => by
    cases right
    case slice =>
      exact .node rfl rfl (((sameOptional_comparesNames leftLower _).and
        (sameOptional_comparesNames leftUpper _)).and (sameOptional_comparesNames leftStep _))
    all_goals exact .never
  | .binary left _ _ leftRight, right, _, _ => by
    cases right
    case binary =>
      exact .node rfl rfl (((same_comparesNames left _).andWhen _).and
        (same_comparesNames leftRight _))
    all_goals exact .never
  | .logical left _ _ leftRight, right, _, _ => by
    cases right
    case logical =>
      exact .node rfl rfl (((same_comparesNames left _).andWhen _).and
        (same_comparesNames leftRight _))
    all_goals exact .never
  | .compare left _ lefts, right, _, _ => by
    cases right
    case compare =>
      exact .node rfl rfl (((same_comparesNames left _).andWhen _).and
        (sameItems_comparesNames lefts _))
    all_goals exact .never
  | .unary _ _ left, right, _, _ => by
    cases right
    case unary => exact .node rfl rfl ((same_comparesNames left _).when _)
    all_goals exact .never
  | .conditional leftTest leftTrue leftFalse, right, _, _ => by
    cases right
    case conditional =>
      exact .node rfl rfl (((same_comparesNames leftTest _).and
        (same_comparesNames leftTrue _)).and (same_comparesNames leftFalse _))
    all_goals exact .never
  | .lambda _ leftParams left, right, _, _ => by
    cases right
    case lambda =>
      exact .node rfl rfl ((sameParams_comparesNames leftParams _).and (same_comparesNames left _))
    all_goals exact .never
  | .list _ lefts _, right, _, _ => by
    cases right
    case list => exact .node rfl rfl (sameItems_comparesNames lefts _)
    all_goals exact .never
  | .tuple _ lefts _, right, _, _ => by
    cases right
    case tuple => exact .node rfl rfl (sameItems_comparesNames lefts _)
    all_goals exact .never
  | .set _ lefts _, right, _, _ => by
    cases right
    case set => exact .node rfl rfl (sameItems_comparesNames lefts _)
    all_goals exact .never
  | .dict _ lefts _, right, _, _ => by
    cases right
    case dict => exact .node rfl rfl (sameItems_comparesNames lefts _)
    all_goals exact .never
  | .entry leftKey left, right, _, _ => by
    cases right
    case entry =>
      exact .node rfl rfl ((same_comparesNames leftKey _).and (same_comparesNames left _))
    all_goals exact .never
  | .comprehension _ _ left leftClauses _, right, _, _ => by
    cases right
    case comprehension =>
      exact .node rfl rfl (((same_comparesNames left _).when _).and
        (sameClauses_comparesNames leftClauses _))
    all_goals exact .never
  | .named _ left, right, _, _ => by
    cases right
    case named => exact .node rfl rfl (ComparesNames.name.and (same_comparesNames left _))
    all_goals exact .never
  | .yield _ _ left, right, _, _ => by
    cases right
    case yield => exact .node rfl rfl ((sameOptional_comparesNames left _).when _)
    all_goals exact .never
termination_by structural left => left

theorem sameOptional_comparesNames : ∀ (left right : Option Expr) {depth level : Nat},
    ComparesNames (fun rename other => sameOptional (mapLeavesOption (.naming rename) left)
        (mapLeavesOption (.naming other) right))
      (walkOption (fun _ => true) depth left) (walkOption (fun _ => true) level right)
  | none, none, _, _ => .always
  | none, some _, _, _ => .never
  | some _, none, _, _ => .never
  | some left, some right, _, _ => same_comparesNames left right
termination_by structural left => left

theorem sameItems_comparesNames : ∀ (lefts rights : List Expr) {depth level : Nat},
    ComparesNames (fun rename other =>
        sameItems (mapLeavesList (.naming rename) lefts) (mapLeavesList (.naming other) rights))
      (walkList (fun _ => true) depth lefts) (walkList (fun _ => true) level rights)
  | [], [], _, _ => .always
  | [], _ :: _, _, _ => .never
  | _ :: _, [], _, _ => .never
  | left :: lefts, right :: rights, _, _ =>
    (same_comparesNames left right).and (sameItems_comparesNames lefts rights)
termination_by structural lefts => lefts

theorem sameParams_comparesNames : ∀ (lefts rights : List Param) {depth level : Nat},
    ComparesNames (fun rename other => sameParams (mapLeavesParams (.naming rename) lefts)
        (mapLeavesParams (.naming other) rights))
      (walkParams (fun _ => true) depth lefts) (walkParams (fun _ => true) level rights)
  | [], [], _, _ => .always
  | [], _ :: _, _, _ => .never
  | _ :: _, [], _, _ => .never
  | .mk _ _ _ leftHint leftDefault :: lefts, .mk _ _ _ rightHint rightDefault :: rights, _, _ =>
    (ComparesNames.node rfl rfl (((ComparesNames.identOption.when _).and
      (sameOptional_comparesNames leftHint rightHint)).and
      (sameOptional_comparesNames leftDefault rightDefault))).and
      (sameParams_comparesNames lefts rights)
termination_by structural lefts => lefts

theorem sameClauses_comparesNames : ∀ (lefts rights : List Clause) {depth level : Nat},
    ComparesNames (fun rename other => sameClauses (mapLeavesClauses (.naming rename) lefts)
        (mapLeavesClauses (.naming other) rights))
      (walkClauses (fun _ => true) depth lefts) (walkClauses (fun _ => true) level rights)
  | [], [], _, _ => .always
  | [], _ :: _, _, _ => .never
  | _ :: _, [], _, _ => .never
  | .loop _ leftTarget left :: lefts, .loop _ rightTarget right :: rights, _, _ =>
    (ComparesNames.node rfl rfl ((same_comparesNames leftTarget rightTarget).and
      (same_comparesNames left right))).and (sameClauses_comparesNames lefts rights)
  | .loop .. :: _, .filter .. :: _, _, _ => .never
  | .filter .. :: _, .loop .. :: _, _, _ => .never
  | .filter _ left :: lefts, .filter _ right :: rights, _, _ =>
    (ComparesNames.node rfl rfl (same_comparesNames left right)).and
      (sameClauses_comparesNames lefts rights)
termination_by structural lefts => lefts

end

end Expr

namespace ComparesNames

variable {depth level : Nat}

theorem imported (left right : Alias) :
    ComparesNames (fun rename other =>
        ((LeafMap.naming rename).item left).same ((LeafMap.naming other).item right))
      (left.walk (fun _ => true) depth) (right.walk (fun _ => true) level) :=
  .node rfl rfl (identOption.when (left.path == right.path))

theorem withItem (left right : WithItem) :
    ComparesNames (fun rename other =>
        (left.mapLeaves (.naming rename)).same (right.mapLeaves (.naming other)))
      (left.walk (fun _ => true) depth) (right.walk (fun _ => true) level) :=
  (left.manager.same_comparesNames right.manager).and
    (Expr.sameOptional_comparesNames left.target right.target)

end ComparesNames

namespace Stmt

open Unsugar.Expr (sameOptional_comparesNames sameItems_comparesNames sameParams_comparesNames)

mutual

theorem same_comparesNames : ∀ (left right : Stmt) {depth level : Nat},
    ComparesNames (fun rename other =>
        (left.mapLeaves (fun _ => .naming rename) (.naming rename)).same
          (right.mapLeaves (fun _ => .naming other) (.naming other)))
      (left.walk (fun _ => true) depth) (right.walk (fun _ => true) level)
  | .expression left, right, _, _ => by
    cases right
    case expression => exact .node rfl rfl (left.same_comparesNames _)
    all_goals exact .never
  | .assign leftTargets left, right, _, _ => by
    cases right
    case assign =>
      exact .node rfl rfl ((sameItems_comparesNames leftTargets _).and (left.same_comparesNames _))
    all_goals exact .never
  | .augAssign leftTarget _ left, right, _, _ => by
    cases right
    case augAssign =>
      exact .node rfl rfl (((leftTarget.same_comparesNames _).andWhen _).and
        (left.same_comparesNames _))
    all_goals exact .never
  | .annAssign leftTarget leftHint left, right, _, _ => by
    cases right
    case annAssign =>
      exact .node rfl rfl (((leftTarget.same_comparesNames _).and
        (leftHint.same_comparesNames _)).and (sameOptional_comparesNames left _))
    all_goals exact .never
  | .delete _ lefts, right, _, _ => by
    cases right
    case delete => exact .node rfl rfl (sameItems_comparesNames lefts _)
    all_goals exact .never
  | .branch _ left, right, _, _ => by
    cases right
    case branch => exact .node rfl rfl (.andWhen _ .always)
    all_goals exact .never
  | .returns _ left, right, _, _ => by
    cases right
    case returns => exact .node rfl rfl (sameOptional_comparesNames left _)
    all_goals exact .never
  | .raises _ left leftCause, right, _, _ => by
    cases right
    case raises =>
      exact .node rfl rfl ((sameOptional_comparesNames left _).and
        (sameOptional_comparesNames leftCause _))
    all_goals exact .never
  | .declare _ _ lefts, right, _, _ => by
    cases right
    case declare =>
      exact .node rfl rfl ((ComparesNames.items (fun _ _ => .name) lefts _).when _)
    all_goals exact .never
  | .asserts _ left leftMessage, right, _, _ => by
    cases right
    case asserts =>
      exact .node rfl rfl ((left.same_comparesNames _).and
        (sameOptional_comparesNames leftMessage _))
    all_goals exact .never
  | .imports _ lefts, right, _, _ => by
    cases right
    case imports => exact .node rfl rfl (.items .imported lefts _)
    all_goals exact .never
  | .importFrom _ _ _ lefts _, right, _, _ => by
    cases right
    case importFrom => exact .node rfl rfl ((ComparesNames.items .imported lefts _).when _)
    all_goals exact .never
  | .conditional _ leftTest lefts _ leftElse, right, _, _ => by
    cases right
    case conditional =>
      exact .node rfl rfl (((leftTest.same_comparesNames _).and
        (sameBody_comparesNames lefts _)).and (sameBody_comparesNames leftElse _))
    all_goals exact .never
  | .whileLoop _ leftTest lefts leftElse, right, _, _ => by
    cases right
    case whileLoop =>
      exact .node rfl rfl (((leftTest.same_comparesNames _).and
        (sameBody_comparesNames lefts _)).and (sameBody_comparesNames leftElse _))
    all_goals exact .never
  | .forLoop _ leftTarget left lefts leftElse, right, _, _ => by
    cases right
    case forLoop =>
      exact .node rfl rfl ((((leftTarget.same_comparesNames _).and
        (left.same_comparesNames _)).and (sameBody_comparesNames lefts _)).and
        (sameBody_comparesNames leftElse _))
    all_goals exact .never
  | .tryBlock _ lefts leftHandlers leftElse leftFinal, right, _, _ => by
    cases right
    case tryBlock =>
      exact .node rfl rfl ((((sameBody_comparesNames lefts _).and
        (sameHandlers_comparesNames leftHandlers _)).and (sameBody_comparesNames leftElse _)).and
        (sameBody_comparesNames leftFinal _))
    all_goals exact .never
  | .withBlock _ leftItems lefts, right, _, _ => by
    cases right
    case withBlock =>
      exact .node rfl rfl ((ComparesNames.items .withItem leftItems _).and
        (sameBody_comparesNames lefts _))
    all_goals exact .never
  | .function leftDecorators _ _ leftParams leftResult lefts, right, _, _ => by
    cases right
    case function =>
      exact .node rfl rfl (((((sameItems_comparesNames leftDecorators _).and
        ComparesNames.name).and (sameParams_comparesNames leftParams _)).and
        (sameOptional_comparesNames leftResult _)).and (sameBody_comparesNames lefts _))
    all_goals exact .never
  | .classDef leftDecorators _ _ leftBases lefts, right, _, _ => by
    cases right
    case classDef =>
      exact .node rfl rfl ((((sameItems_comparesNames leftDecorators _).and
        ComparesNames.name).and (sameItems_comparesNames leftBases _)).and
        (sameBody_comparesNames lefts _))
    all_goals exact .never

theorem sameBody_comparesNames : ∀ (lefts rights : List Stmt) {depth level : Nat},
    ComparesNames (fun rename other =>
        sameBody (mapLeavesBody (fun _ => .naming rename) (.naming rename) lefts)
          (mapLeavesBody (fun _ => .naming other) (.naming other) rights))
      (walkBody (fun _ => true) depth lefts) (walkBody (fun _ => true) level rights)
  | [], [], _, _ => .always
  | [], _ :: _, _, _ => .never
  | _ :: _, [], _, _ => .never
  | left :: lefts, right :: rights, _, _ =>
    (same_comparesNames left right).and (sameBody_comparesNames lefts rights)

theorem sameHandlers_comparesNames : ∀ (lefts rights : List Handler) {depth level : Nat},
    ComparesNames (fun rename other =>
        sameHandlers (mapLeavesHandlers (fun _ => .naming rename) (.naming rename) lefts)
          (mapLeavesHandlers (fun _ => .naming other) (.naming other) rights))
      (walkHandlers (fun _ => true) depth lefts) (walkHandlers (fun _ => true) level rights)
  | [], [], _, _ => .always
  | [], .mk .. :: _, _, _ => .never
  | .mk .. :: _, [], _, _ => .never
  | .mk _ leftType _ leftBody :: lefts, .mk _ rightType _ rightBody :: rights, _, _ =>
    (ComparesNames.node rfl rfl (((sameOptional_comparesNames leftType rightType).and
      ComparesNames.identOption).and (sameBody_comparesNames leftBody rightBody))).and
      (sameHandlers_comparesNames lefts rights)

end

/-- Two renamed bodies are the same exactly if they are once all names are forgotten, and the
new names are the same, in the order in which the names occur. -/
theorem sameBody_naming_iff (left right : List Stmt) (rename other : String → String) :
    sameBody (mapAllLeaves { name := rename } left) (mapAllLeaves { name := other } right) = true ↔
      sameBody (mapAllLeaves { name := blank } left) (mapAllLeaves { name := blank } right) = true ∧
      (writtenAmong (walkBody (fun _ => true) 0 left)).map rename =
        (writtenAmong (walkBody (fun _ => true) 0 right)).map other :=
  sameBody_comparesNames left right rename other

end Stmt
end Unsugar
