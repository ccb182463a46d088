import Unsugar.Proofs.Lowering.Form

/-! Lowering leaves the lowered form as it is: it gives back what it was given, sets
nothing aside, and takes no step on the way. -/

namespace Unsugar
namespace Lowering

variable {form : Form}

/-! ## Operands -/

theorem operandsAfter_pure (items : List Expr) :
    ∀ done : List Expr, operandsAfter done (items.map pure) = pure (done ++ items) := by
  induction items with
  | nil =>
    intro done
    rw [List.append_nil]
    rfl
  | cons first rest induction =>
    intro done
    have nothing : (modify (· ++ ([] : List Deferred)) : Lowering Unit) = pure () := by
      funext ahead
      exact congrArg (fun kept => (pure ((), kept) : Desugar _)) (List.append_nil ahead)
    calc operandsAfter done (pure first :: rest.map pure)
        = (modify (· ++ ([] : List Deferred)) >>= fun _ =>
            operandsAfter (done ++ [first]) (rest.map pure)) := rfl
      _ = pure (done ++ [first] ++ rest) := by rw [nothing, pure_bind, induction]
      _ = pure (done ++ first :: rest) := by rw [List.append_assoc, List.singleton_append]

theorem operands_pure (items : List Expr) : operands (items.map pure) = pure items :=
  operandsAfter_pure items []

theorem supporting_pure (id : String) (items : List Expr) :
    supporting id (items.map pure) = pure (.supportCall id items) := by
  rw [supporting, operands_pure, pure_bind]

theorem lift_pure {α : Type} (value : α) :
    (liftM (pure value : Desugar α) : Lowering α) = pure value := rfl

theorem flush_pure (stmt : Stmt) : flush (pure stmt) = pure [stmt] := rfl

theorem isUnpacked_lowerItems (env : Env) :
    ∀ items : List Expr, (lowerItems env items).any Item.isUnpacked = items.any isStarred := by
  intro items
  induction items with
  | nil => rfl
  | cons first rest restEqual =>
    cases first <;> simp [lowerItems, Item.isUnpacked, isStarred, restEqual]

theorem memberOf_pure {env : Env} (agrees : env.options = form.options) {object : Expr}
    {position : Position} {id : String} (kept : form.keepsMember object = true) :
    memberOf env object position id (pure object) = pure (.member object position id) := by
  have stays : (env.options.lowerAttributes && !object.isReservedPath) = false := by
    cases reserved : object.isReservedPath <;> simp_all [Form.keepsMember]
  unfold memberOf
  rw [stays]
  exact pure_bind _ _

/-! ## Expressions -/

/-- A display that has no unpacked items is left as it is. -/
theorem display_pure {env : Env} {items : List Expr} {build : List Expr → Expr}
    {other : Lowering Expr} (plain : items.any isStarred = false)
    (settled : (lowerItems env items).map Item.argument = items.map pure) :
    (if (lowerItems env items).any Item.isUnpacked then other
      else do return build (← operands ((lowerItems env items).map Item.argument))) =
      pure (build items) := by
  rw [isUnpacked_lowerItems, plain, settled, operands_pure]
  exact pure_bind _ _

mutual

theorem lower_of_isLowered (env : Env) (agrees : env.options = form.options) :
    ∀ expr : Expr, expr.isLowered form = true → lower env expr = pure expr
  | .name .., _ => rfl
  | .literal .., _ => rfl
  | .call callee arguments closing, lowered => by
    have parts := Bool.and_eq_true_iff.mp lowered
    have items := lowerItems_of_areLowered env agrees arguments parts.2
    have calleeSettled := lower_of_isLowered env agrees callee parts.1
    change (operands (lower env callee :: (lowerItems env arguments).map Item.argument) >>= _) = _
    rw [items, calleeSettled, ← List.map_cons, operands_pure, pure_bind]
  | .keyword _ _ value, lowered => by
    change (lower env value >>= _) = _
    rw [lower_of_isLowered env agrees value lowered, pure_bind]
  | .starred _ _ value, lowered => by
    change (lower env value >>= _) = _
    rw [lower_of_isLowered env agrees value lowered, pure_bind]
  | .member object _ _, lowered => by
    have parts := Bool.and_eq_true_iff.mp lowered
    change memberOf env object _ _ (lower env object) = _
    rw [lower_of_isLowered env agrees object parts.2]
    exact memberOf_pure agrees parts.1
  | .list opening items closing, lowered => by
    have parts : items.any isStarred = false ∧ Expr.areLowered form items = true := by
      simpa only [Expr.isLowered, Bool.and_eq_true, Bool.not_eq_true'] using lowered
    exact display_pure parts.1 (lowerItems_of_areLowered env agrees items parts.2)
  | .tuple opening items closing, lowered => by
    have parts : items.any isStarred = false ∧ Expr.areLowered form items = true := by
      simpa only [Expr.isLowered, Bool.and_eq_true, Bool.not_eq_true'] using lowered
    exact display_pure parts.1 (lowerItems_of_areLowered env agrees items parts.2)
  | .set opening items closing, lowered => by
    have parts : items.any isStarred = false ∧ Expr.areLowered form items = true := by
      simpa only [Expr.isLowered, Bool.and_eq_true, Bool.not_eq_true'] using lowered
    exact display_pure parts.1 (lowerItems_of_areLowered env agrees items parts.2)
  | .dict opening items closing, lowered => by
    have parts : items.any isStarred = false ∧ Expr.areLowered form items = true := by
      simpa only [Expr.isLowered, Bool.and_eq_true, Bool.not_eq_true'] using lowered
    exact display_pure parts.1 (lowerItems_of_areLowered env agrees items parts.2)
  | .entry key value, lowered => by
    have parts := Bool.and_eq_true_iff.mp lowered
    have settled := operands_pure [key, value]
    change (operands [lower env key, lower env value] >>= _) = _
    rw [lower_of_isLowered env agrees key parts.1, lower_of_isLowered env agrees value parts.2]
    exact congrArg (· >>= _) settled
  | .yield _ _ value, lowered => by
    change (lowerOption env value >>= _) = _
    rw [lowerOption_of_isLowered env agrees value lowered, pure_bind]

theorem lowerOption_of_isLowered (env : Env) (agrees : env.options = form.options) :
    ∀ value : Option Expr, Expr.isLoweredOption form value = true →
      lowerOption env value = pure value
  | none, _ => rfl
  | some value, lowered => by
    change (lower env value >>= _) = _
    rw [lower_of_isLowered env agrees value lowered, pure_bind]

theorem lowerItems_of_areLowered (env : Env) (agrees : env.options = form.options) :
    ∀ items : List Expr, Expr.areLowered form items = true →
      (lowerItems env items).map Item.argument = items.map pure
  | [], _ => rfl
  | first :: rest, lowered => by
    have parts := Bool.and_eq_true_iff.mp lowered
    have restSettled := lowerItems_of_areLowered env agrees rest parts.2
    have firstSettled := lower_of_isLowered env agrees first parts.1
    have argument : (lowerItems env (first :: rest)).map Item.argument =
        lower env first :: (lowerItems env rest).map Item.argument := by
      cases first <;> rfl
    rw [argument, firstSettled, restSettled, List.map_cons]

end

theorem lower_of_isReservedPath (env : Env) {object : Expr}
    (reserved : object.isReservedPath = true) : lower env object = pure object :=
  @lower_of_isLowered ⟨env.options, true⟩ env rfl object
    (Expr.isLowered_of_isReservedPath reserved)

theorem lowerParams_of_isLowered (env : Env) (agrees : env.options = form.options) :
    ∀ params : List Param, params.all (·.isLowered form) = true →
      lowerParams env params = pure params
  | [], _ => rfl
  | .mk _ _ _ _ value :: rest, lowered => by
    have parts := Bool.and_eq_true_iff.mp lowered
    rw [lowerParams, lowerOption_of_isLowered env agrees value parts.1, pure_bind,
      lowerParams_of_isLowered env agrees rest parts.2, pure_bind]

theorem mapM_lower_of_areLowered {env : Env} (agrees : env.options = form.options) :
    ∀ {items : List Expr}, Expr.areLowered form items = true →
      items.mapM (lower env) = pure items
  | [], _ => List.mapM_nil
  | first :: rest, lowered => by
    have parts := Bool.and_eq_true_iff.mp lowered
    rw [List.mapM_cons, lower_of_isLowered env agrees first parts.1, pure_bind,
      mapM_lower_of_areLowered agrees parts.2, pure_bind]

/-! ## Statements -/

theorem lowerStmt_member {env : Env} (agrees : env.options = form.options) {object value : Expr}
    {position : Position} {id : String}
    (lowered : (Stmt.assign [.member object position id] value).isLowered form = true) :
    lowerStmt env (.assign [.member object position id] value) =
      pure [.assign [.member object position id] value] := by
  have parts : (form.keepsMember object = true ∧ object.isLowered form = true) ∧
      value.isLowered form = true := by
    simpa [Stmt.isLowered] using lowered
  have stays : (env.options.lowerAttributes && !object.isReservedPath) = false := by
    cases reserved : object.isReservedPath <;> simp_all [Form.keepsMember]
  change assignTo env (.member object position id) value (lower env value) = _
  rw [assignTo, stays, Expr.needsStatements_of_isLowered parts.1.2,
    lower_of_isLowered env agrees value parts.2, lower_of_isLowered env agrees object parts.1.2]
  rfl

theorem lowerStmt_delete {env : Env} {position start : Position} {object : Expr} {id : String}
    (reserved : object.isReservedPath = true) :
    lowerStmt env (.delete position [.member object start id]) =
      pure [.delete position [.member object start id]] := by
  change delete env position [.member object start id] = _
  have deletions : deleteTargets env position [.member object start id] =
      .ok [flush do return .delete position [.member (← lower env object) start id]] := by
    simp [deleteTargets, deleteTarget, reserved, bind, Except.bind, pure, Except.pure]
  rw [lower_of_isReservedPath env reserved] at deletions
  unfold delete
  simp only [deletions, isSimpleDeletion, reserved]
  rfl

theorem lowerStmt_importFrom {env : Env} (agrees : env.options = form.options)
    {position closing : Position} {source : String} {level : Nat} {names : List Alias}
    (kept : form.keepsImport source level names = true) :
    lowerStmt env (.importFrom position source level names closing) =
      pure [.importFrom position source level names closing] := by
  change importMembers env position source level names closing = _
  unfold importMembers
  cases star : names.any (·.path == "*") with
  | true =>
    have allowed : env.options.importStar = .allowed := by
      simpa [Form.keepsImport, star, agrees] using kept
    rw [allowed]
  | false =>
    have future : (source == "__future__" && level == 0 && !env.options.lowerFutureImports) =
        true := by
      simpa [Form.keepsImport, star, agrees] using kept
    simp only [future, if_true]

theorem any_isTyped_of_areLowered :
    ∀ {handlers : List Handler}, Stmt.areHandlersLowered form handlers = true →
      handlers.any isTyped = false
  | [], _ => rfl
  | .mk _ none _ _ :: rest, lowered => by
    have parts := Bool.and_eq_true_iff.mp lowered
    simp [isTyped, Handler.type, any_isTyped_of_areLowered parts.2]

mutual

theorem lowerStmt_of_isLowered (env : Env) (agrees : env.options = form.options) :
    ∀ stmt : Stmt, stmt.isLowered form = true → lowerStmt env stmt = pure [stmt]
  | .expression value, lowered => by
    change flush (lower env value >>= _) = _
    rw [lower_of_isLowered env agrees value lowered, pure_bind, flush_pure]
  | .assign _ value, lowered => by
    obtain ⟨valueLowered, ⟨_, _, rfl⟩ | ⟨_, _, _, rfl, _⟩⟩ := Stmt.assign_of_isLowered lowered
    · change flush (lower env value >>= _) = _
      rw [lower_of_isLowered env agrees value valueLowered, pure_bind, flush_pure]
    · exact lowerStmt_member agrees lowered
  | .delete _ _, lowered => by
    obtain ⟨_, _, rfl⟩ | ⟨_, _, _, rfl, _⟩ := Stmt.delete_of_isLowered lowered
    · rfl
    · exact lowerStmt_delete lowered
  | .branch .., _ => rfl
  | .returns _ result, lowered => by
    change flush (lowerOption env result >>= _) = _
    rw [lowerOption_of_isLowered env agrees result lowered, pure_bind, flush_pure]
  | .raises position exception none, lowered => by
    have unfolded : lowerStmt env (.raises position exception none) =
        flush (lowerOption env exception >>= fun exception =>
          return .raises position exception none) := by
      cases exception <;> rfl
    rw [unfolded, lowerOption_of_isLowered env agrees exception lowered, pure_bind, flush_pure]
  | .declare .., _ => rfl
  | .importFrom .., lowered => lowerStmt_importFrom agrees lowered
  | .conditional _ test body _ orelse, lowered => by
    have parts : (test.isLowered form = true ∧ Stmt.areLowered form body = true) ∧
        Stmt.areLowered form orelse = true := by
      simpa [Stmt.isLowered] using lowered
    rw [lowerStmt, lower_of_isLowered env agrees test parts.1.1,
      lowerBody_of_areLowered env agrees body parts.1.2,
      lowerBody_of_areLowered env agrees orelse parts.2, pure_bind, lift_pure, pure_bind,
      lift_pure, pure_bind, flush_pure]
  | .whileLoop _ test body orelse, lowered => by
    have parts : (test.isLowered form = true ∧ Stmt.areLowered form body = true) ∧
        Stmt.areLowered form orelse = true := by
      simpa [Stmt.isLowered] using lowered
    rw [lowerStmt, Expr.needsStatements_of_isLowered parts.1.1,
      lower_of_isLowered env agrees test parts.1.1,
      lowerBody_of_areLowered env agrees body parts.1.2,
      lowerBody_of_areLowered env agrees orelse parts.2, pure_bind, lift_pure, pure_bind,
      lift_pure, pure_bind, flush_pure]
    rfl
  | .tryBlock _ body handlers orelse final, lowered => by
    have parts : ((Stmt.areLowered form body = true ∧
        Stmt.areHandlersLowered form handlers = true) ∧ Stmt.areLowered form orelse = true) ∧
        Stmt.areLowered form final = true := by
      simpa [Stmt.isLowered] using lowered
    rw [lowerStmt, any_isTyped_of_areLowered parts.1.1.2,
      lowerBody_of_areLowered env agrees body parts.1.1.1,
      lowerHandlers_of_areLowered env agrees handlers parts.1.1.2,
      lowerBody_of_areLowered env agrees orelse parts.1.2,
      lowerBody_of_areLowered env agrees final parts.2, pure_bind, pure_bind, pure_bind, pure_bind]
    rfl
  | .function decorators _ ident params result body, lowered => by
    have parts : ((form.keepsHints params result = true ∧
        Expr.areLowered form decorators = true) ∧ params.all (·.isLowered form) = true) ∧
        Stmt.areLowered form body = true := by
      simpa only [Stmt.isLowered, Bool.and_eq_true] using lowered
    rw [lowerStmt, mapM_lower_of_areLowered agrees parts.1.1.2, pure_bind,
      lowerParams_of_isLowered env agrees params parts.1.2, pure_bind,
      lowerBody_of_areLowered { env with frame := .functionFrame ident.name } agrees body parts.2,
      lift_pure, pure_bind, flush_pure]
  | .classDef decorators _ _ bases body, lowered => by
    have parts : (Expr.areLowered form decorators = true ∧ Expr.areLowered form bases = true) ∧
        Stmt.areLowered form body = true := by
      simpa only [Stmt.isLowered, Bool.and_eq_true] using lowered
    rw [lowerStmt, mapM_lower_of_areLowered agrees parts.1.1, pure_bind,
      mapM_lower_of_areLowered agrees parts.1.2, pure_bind,
      lowerBody_of_areLowered { env with frame := .classFrame } agrees body parts.2,
      lift_pure, pure_bind, flush_pure]

theorem lowerBody_of_areLowered (env : Env) (agrees : env.options = form.options) :
    ∀ body : List Stmt, Stmt.areLowered form body = true → lowerBody env body = pure body
  | [], _ => rfl
  | first :: rest, lowered => by
    have parts := Bool.and_eq_true_iff.mp lowered
    change (lowerStmt env first >>= _) = _
    rw [lowerStmt_of_isLowered env agrees first parts.1, pure_bind,
      lowerBody_of_areLowered env agrees rest parts.2, pure_bind, List.singleton_append]

theorem lowerHandlers_of_areLowered (env : Env) (agrees : env.options = form.options) :
    ∀ handlers : List Handler, Stmt.areHandlersLowered form handlers = true →
      lowerHandlers env handlers = pure handlers
  | [], _ => rfl
  | .mk _ type ident body :: rest, lowered => by
    have parts : ((type = none ∧ ident = none) ∧ Stmt.areLowered form body = true) ∧
        Stmt.areHandlersLowered form rest = true := by
      simpa [Stmt.areHandlersLowered] using lowered
    rw [lowerHandlers, lowerBody_of_areLowered env agrees body parts.1.2, pure_bind,
      lowerHandlers_of_areLowered env agrees rest parts.2, pure_bind, parts.1.1.1, parts.1.1.2]

end

end Lowering
end Unsugar
