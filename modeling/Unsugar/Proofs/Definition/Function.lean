import Unsugar.Proofs.Definition.Descent

/-! Functions under generated names. A function of the source gets a reserved name, and
its own name is bound by an assignment instead; what the body around it loads, binds and
declares stays the same, but for the names that the function declares nonlocal. -/

namespace Unsugar
namespace Definition

variable {name : String} {shape : Shape}

/-! ## Decorators -/

/-- Decorators that are saved mention what they mentioned. -/
structure Saves (name : String) (decorators : List Expr) (saved : List Stmt × List Expr) :
    Prop where
  plain : Expr.arePlain saved.2 = true
  aheadPlain : ∀ shape, Stmt.arePlain shape saved.1 = true
  nonlocals : Stmt.topNonlocals saved.1 = []
  outlines : Stmt.outlinesOfBody saved.1 = []
  told : ∃ loaded, Mentions.Says name (Stmt.mentionsOfBody saved.1) loaded false ∧
    (loaded || (Expr.namesOfList saved.2).contains name) =
      (Expr.namesOfList decorators).contains name

theorem Saves.kept {first : Expr} {rest : List Expr} {saved : List Stmt × List Expr}
    (plain : first.isPlain = true) (saves : Saves name rest saved) :
    Saves name (first :: rest) (saved.1, first :: saved.2) where
  plain := by simp [plain, saves.plain]
  aheadPlain := saves.aheadPlain
  nonlocals := saves.nonlocals
  outlines := saves.outlines
  told := by
    obtain ⟨loaded, told, same⟩ := saves.told
    refine ⟨loaded, told, ?_⟩
    rw [Expr.namesOfList_cons, Expr.namesOfList_cons, List.contains_append, List.contains_append,
      ← same]
    exact Bool.or_left_comm _ _ _

theorem Saves.moved {first : Expr} {rest : List Expr} {saved : List Stmt × List Expr}
    {temporary : String} (user : isReserved name = false)
    (reserved : isReserved temporary = true) (plain : first.isPlain = true)
    (saves : Saves name rest saved) :
    Saves name (first :: rest) (.store temporary first :: saved.1, .ofName temporary :: saved.2) where
  plain := by simp [saves.plain]
  aheadPlain shape := by simp [plain, saves.aheadPlain]
  nonlocals := saves.nonlocals
  outlines := saves.outlines
  told := by
    obtain ⟨loaded, told, same⟩ := saves.told
    have different : name ≠ temporary := ne_of_isReserved user reserved
    have here : Mentions.Says name (Stmt.mentions (.store temporary first))
        (first.names.contains name) false := by
      simpa [Stmt.loads] using
        (Mentions.Says.load first.names).append (.bind_reserved user reserved)
    refine ⟨_, here.append told, ?_⟩
    simp only [Expr.namesOfList_cons, Expr.names_ofName, List.contains_append, ← same]
    simp [different, Bool.or_assoc]

theorem saveDecorators_gives (user : isReserved name = false) :
    ∀ decorators : List Expr, Expr.arePlain decorators = true →
      Desugar.Gives (fun _ => False) (Saves name decorators) (saveDecorators decorators) := by
  intro decorators plain
  induction decorators with
  | nil => exact .pure ⟨rfl, fun _ => rfl, rfl, rfl, false, .nil, rfl⟩
  | cons first rest induction =>
    have parts := Bool.and_eq_true_iff.mp plain
    have others := induction parts.2
    rw [saveDecorators]
    split
    · exact others.bind fun saved saves => .pure (saves.kept parts.1)
    · refine (Desugar.Gives.fresh "dec").bind fun temporary reserved => ?_
      exact others.bind fun saved saves => .pure (saves.moved user reserved parts.1)

@[simp] theorem names_decorate (decorators : List Expr) (value : Expr) :
    (decorate decorators value).names = Expr.namesOfList decorators ++ value.names := by
  induction decorators with
  | nil => rfl
  | cons first rest induction =>
    have step : decorate (first :: rest) value = .apply first [decorate rest value] := rfl
    simp [step, induction]

@[simp] theorem isPlain_decorate (decorators : List Expr) (value : Expr) :
    (decorate decorators value).isPlain = (Expr.arePlain decorators && value.isPlain) := by
  induction decorators with
  | nil => rfl
  | cons first rest induction =>
    have step : decorate (first :: rest) value = .apply first [decorate rest value] := rfl
    simp [step, induction, Bool.and_assoc]

/-- A definition becomes a function under a generated name, and an assignment to the name
it had. -/
theorem Saves.define {relation : Bool → Outline → Outline → Prop} {inClass loaded : Bool}
    {before : Stmt} {decorators : List Expr} {saved : List Stmt × List Expr} {position : Position}
    {ident : Ident} {params : List Param} {result : Option Expr} {body : List Stmt} {value : Expr}
    {title : String} (user : isReserved name = false) (saves : Saves name decorators saved)
    (silent : Stmt.topNonlocals [before] = [])
    (told : Mentions.Says name before.mentions
      ((Expr.namesOfList decorators).contains name || loaded) (decide (title = name)))
    (reserved : isReserved ident.name = true)
    (plain : Stmt.isPlain shape (.function [] position ident params result body) = true)
    (valuePlain : value.isPlain = true)
    (loads : ((Expr.namesOfParams params).contains name || value.names.contains name) = loaded)
    (asked : (Stmt.topNonlocals body).contains name = true →
      before.outlines.any (·.nonlocals.contains name) = true)
    (all : Outline.AllThroughout relation inClass before.outlines
      (Stmt.outlines (.function [] position ident params result body))) :
    BodyGrows shape relation name inClass false [before] (saved.1 ++
      [.function [] position ident params result body, .store title (decorate saved.2 value),
        .drop ident.name]) := by
  refine ⟨⟨?_, ?_⟩, by rw [Stmt.topNonlocals_append, saves.nonlocals, silent]; rfl⟩
  · simp [saves.aheadPlain, saves.plain, plain, valuePlain]
  · simp only [Stmt.mentionsOfBody_append, Stmt.outlinesOfBody_append, Stmt.mentionsOfBody,
      Stmt.mentions_store, Stmt.mentions_drop, Stmt.mentions, Stmt.outlinesOfBody, saves.outlines,
      List.append_nil, List.nil_append]
    obtain ⟨ahead, aheadTold, same⟩ := saves.told
    have stored := (@Mentions.Says.load name (decorate saved.2 value).names).append (.bind title)
    have told' := aheadTold.append ((Mentions.Says.functionMentions [] ident.name params body).append
      (stored.append (.bind_reserved user reserved)))
    have notGenerated : ident.name ≠ name := (ne_of_isReserved user reserved).symm
    refine .of_told told told' ?_ ?_ ?_ all
    · intro _ _
      rw [names_decorate, List.contains_append, ← same, ← loads]
      cases ahead <;> cases (Expr.namesOfList saved.2).contains name <;> simp
    · intro bound
      simp [of_decide_eq_true bound]
    · intro bound
      simp only [notGenerated, decide_false, Bool.false_or, Bool.or_false, Bool.or_eq_true,
        Bool.and_eq_true] at bound
      rcases bound with ⟨_, found⟩ | named
      · exact Or.inr (asked found)
      · exact Or.inl named

/-! ## Functions -/

/-- The name of the function that a definition becomes. -/
def Renames (before : Outline) (title : String) : Prop :=
  if before.kind = .functionScope ∧ isReserved before.name = false then
    ∃ number, title = numberedName ("fn_" ++ before.name) number
  else title = before.name

/-- A definition and its counterpart once functions are renamed. -/
structure Renamed (name : String) (inClass : Bool) (before after : Outline) : Prop where
  keeps : Outline.Keeps name inClass before after
  kind : after.kind = before.kind
  title : Renames before after.name

theorem updated_told {generated qualname title : String} (user : isReserved name = false)
    (reserved : isReserved generated = true) :
    (updated generated qualname title).names.contains name = false := by
  have notGenerated : name ≠ generated := ne_of_isReserved user reserved
  have notSupport : name ≠ supportModule := ne_of_isReserved user rfl
  simp [updated, notGenerated, notSupport]

theorem nameFunction_gives (generated title qualname : String) :
    Desugar.Gives (fun _ => False) (fun _ => True) (nameFunction generated title qualname) :=
  fun _ _ => ⟨trivial, rfl⟩

/-- The shape of a module whose functions are renamed. -/
abbrev renamed : Shape := ⟨true, true⟩

/-- The counterpart of a function has the same parameters and a counterpart of its body. -/
theorem function_renamed {inClass : Bool} {body after : List Stmt} {title title' : String}
    {params : List String}
    (grows : BodyGrows renamed (Renamed name) name inClass false body after)
    (titled : if isReserved title = false then
        ∃ number, title' = numberedName ("fn_" ++ title) number else title' = title) :
    Outline.AllThroughout (Renamed name) inClass
      [.mk .functionScope title params (Stmt.mentionsOfBody body) (Stmt.topNonlocals body)
        (Stmt.outlinesOfBody body)]
      [.mk .functionScope title' params (Stmt.mentionsOfBody after) (Stmt.topNonlocals after)
        (Stmt.outlinesOfBody after)] := by
  refine ⟨_, [], rfl, ⟨⟨BodyGrows.function_keeps grows title title' (by simp), rfl, ?_⟩, ?_⟩, rfl⟩
  · simpa [Renames, Outline.kind, Outline.name] using titled
  · have same : (inClass || decide (ScopeKind.functionScope = .classScope)) = inClass := by simp
    rw [same]
    exact grows.linked.inner

theorem generatedFunction_gives {inClass : Bool} {head : FunctionHead} {body after : List Stmt}
    (qualname : String) (next : Option Stmt) (user : isReserved name = false)
    (reserved : isReserved head.ident.name = true)
    (plain : (head.withBody body).isPlain Stmt.lowered = true)
    (grows : BodyGrows renamed (Renamed name) name inClass false body after) :
    Desugar.Gives (fun _ => False)
      (BodyGrows renamed (Renamed name) name inClass false [head.withBody body])
      (generatedFunction head after qualname next) := by
  have parts : ((Expr.arePlain head.decorators = true ∧ head.params.all Param.isPlain = true) ∧
      head.result.isNone = true) ∧ Stmt.arePlain Stmt.lowered body = true := by
    simpa [FunctionHead.withBody, Stmt.isPlain] using plain
  have base : BodyGrows renamed (Renamed name) name inClass false [head.withBody body]
      [head.withBody after] := by
    refine .function ?_ grows.nonlocals (fun _ _ => rfl)
      (function_renamed grows (by simp [reserved]))
    simp [Stmt.isPlain, reserved, parts, grows.plain, renamed]
  rw [generatedFunction]
  split
  · exact .pure base
  · refine (nameFunction_gives _ _ _).bind fun _ _ => .pure ?_
    refine BodyGrows.congruence.append base
      (.added (by simp [updated]) rfl rfl ?_)
    have loads := @Mentions.Says.load name (updated head.ident.name qualname
      (displayName head.ident.name)).names
    rw [updated_told user reserved] at loads
    exact .of_told .nil (loads.append (.bind_reserved user reserved)) (fun _ _ => rfl) id Or.inl rfl

theorem sourceFunction_gives {inClass : Bool} {head : FunctionHead} {body after : List Stmt}
    (qualname : String) (user : isReserved name = false)
    (written : isReserved head.ident.name = false)
    (plain : (head.withBody body).isPlain Stmt.lowered = true)
    (grows : BodyGrows renamed (Renamed name) name inClass false body after) :
    Desugar.Gives (fun _ => False)
      (BodyGrows renamed (Renamed name) name inClass false [head.withBody body])
      (sourceFunction head after qualname) := by
  have parts : ((Expr.arePlain head.decorators = true ∧ head.params.all Param.isPlain = true) ∧
      head.result.isNone = true) ∧ Stmt.arePlain Stmt.lowered body = true := by
    simpa [FunctionHead.withBody, Stmt.isPlain] using plain
  rw [sourceFunction]
  refine (Desugar.Gives.fresh_numbered _).bind ?_
  rintro generated ⟨number, numbered⟩
  have reserved : isReserved generated = true := by simp [numbered]
  refine (nameFunction_gives _ _ _).bind fun _ _ => ?_
  refine (saveDecorators_gives user head.decorators parts.1.1.1).bind fun saved saves => ?_
  refine (Desugar.Gives.note _).bind fun _ _ => .pure ?_
  have told : Mentions.Says name (head.withBody body).mentions
      ((Expr.namesOfList head.decorators).contains name ||
        (Expr.namesOfParams head.params).contains name) (decide (head.ident.name = name)) := by
    have unmarked : beginsWithText "_dp_" head.ident.name = false :=
      (Bool.or_eq_false_iff.mp written).1
    have mentions := @Mentions.Says.functionMentions name head.decorators head.ident.name
      head.params body
    rw [unmarked, Bool.false_and, Bool.or_false] at mentions
    exact mentions
  have plain' : Stmt.isPlain renamed (.function [] head.position ⟨head.ident.position, generated⟩
      head.params head.result after) = true := by
    simp [Stmt.isPlain, parts, grows.plain, reserved, renamed]
  refine saves.define user rfl told reserved plain' rfl ?_ ?_
    (function_renamed grows (by simp [written, numbered]))
  · rw [updated_told user reserved, Bool.or_false]
  · intro asked
    rw [grows.nonlocals] at asked
    rw [FunctionHead.withBody, Stmt.outlines, List.any_cons, List.any_nil, Bool.or_false]
    exact asked

theorem functionPass_descends : Descends functionPass :=
  ⟨fun _ => rfl, fun _ _ => rfl, fun _ _ => rfl, fun _ _ _ => rfl, fun _ _ => rfl⟩

theorem functionPass_leaves (user : isReserved name = false) :
    Leaves functionPass Stmt.lowered renamed (Renamed name) name where
  function inClass around opened next head body after scopes plain grows := by
    refine .bind (.leave opened) ?_
    rintro _ _ rfl
    split
    · rename_i reserved
      exact .lift (generatedFunction_gives _ next user reserved plain grows) fun _ grows => ⟨rfl, grows⟩
    · rename_i written
      exact .lift (sourceFunction_gives _ user (Bool.eq_false_iff.mpr written) plain grows)
        fun _ grows => ⟨rfl, grows⟩
  classDef inClass around opened head body after scopes outline plain outlined fits grows := by
    have parts : (Expr.arePlain head.decorators = true ∧ Expr.arePlain head.bases = true) ∧
        Stmt.arePlain Stmt.lowered body = true := by
      simpa [ClassHead.withBody, Stmt.isPlain] using plain
    refine .bind (.leave opened) ?_
    rintro _ _ rfl
    refine .pure ⟨rfl, ⟨?_, ?_⟩, rfl⟩
    · simp [ClassHead.withBody, Stmt.isPlain, parts, grows.plain, renamed]
    · simp only [ClassHead.withBody, Stmt.mentionsOfBody, Stmt.mentions, Stmt.outlinesOfBody,
        Stmt.outlines, List.append_nil]
      have all : Outline.AllThroughout (Renamed name) inClass
          [.mk .classScope head.ident.name [] (Stmt.mentionsOfBody body) (Stmt.topNonlocals body)
            (Stmt.outlinesOfBody body)]
          [.mk .classScope head.ident.name [] (Stmt.mentionsOfBody after) (Stmt.topNonlocals after)
            (Stmt.outlinesOfBody after)] := by
        refine ⟨_, [], rfl, ⟨⟨BodyGrows.class_keeps grows inClass head.ident.name, rfl, ?_⟩, ?_⟩, rfl⟩
        · simp [Renames, Outline.kind, Outline.name]
        · have inside : (inClass || decide (ScopeKind.classScope = .classScope)) = true := by simp
          rw [inside]
          exact grows.linked.inner
      exact ⟨rfl, rfl, fun _ _ => rfl, fun _ => ⟨id, Or.inl⟩, all⟩

end Definition
end Unsugar
