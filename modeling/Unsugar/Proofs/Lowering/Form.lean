import Unsugar.Lowering.Statement

/-! The form of a lowered module: what no rule applies to any more. -/

namespace Unsugar

/-- What a lowered module may hold depends on the options, and on whether its
functions still have type hints. -/
structure Form where
  options : Options
  hinted : Bool

namespace Form

/-- Whether the attributes of an object are left as they are. -/
def keepsMember (form : Form) (object : Expr) : Bool :=
  !form.options.lowerAttributes || object.isReservedPath

/-- Whether an import of members is left as it is. -/
def keepsImport (form : Form) (source : String) (level : Nat) (names : List Alias) : Bool :=
  if names.any (·.path == "*") then form.options.importStar = .allowed
  else source == "__future__" && level == 0 && !form.options.lowerFutureImports

/-- Whether a function may have the hints it has. -/
def keepsHints (form : Form) (params : List Param) (result : Option Expr) : Bool :=
  form.hinted || params.all (·.hint.isNone) && result.isNone

theorem keepsHints_congr {form : Form} {params others : List Param} {result : Option Expr}
    (same : others.map Param.hint = params.map Param.hint) :
    form.keepsHints others result = form.keepsHints params result := by
  have all : others.all (·.hint.isNone) = params.all (·.hint.isNone) := by
    simpa [List.all_map, Function.comp_def] using congrArg (List.all · Option.isNone) same
  rw [keepsHints, keepsHints, all]

end Form

namespace Expr

mutual

/-- Whether no rule applies to an expression or to a part of it. -/
def isLowered (form : Form) : Expr → Bool
  | .name .. => true
  | literal .. => true
  | call callee arguments _ => isLowered form callee && areLowered form arguments
  | keyword _ _ value => isLowered form value
  | starred _ _ value => isLowered form value
  | member object _ _ => form.keepsMember object && isLowered form object
  | list _ items _ => !items.any Lowering.isStarred && areLowered form items
  | tuple _ items _ => !items.any Lowering.isStarred && areLowered form items
  | set _ items _ => !items.any Lowering.isStarred && areLowered form items
  | dict _ items _ => !items.any Lowering.isStarred && areLowered form items
  | entry key value => isLowered form key && isLowered form value
  | yield _ _ value => isLoweredOption form value
  | _ => false

def isLoweredOption (form : Form) : Option Expr → Bool
  | none => true
  | some value => isLowered form value

def areLowered (form : Form) : List Expr → Bool
  | [] => true
  | first :: rest => isLowered form first && areLowered form rest

end

end Expr

namespace Param

@[simp] theorem withoutHint_hint (param : Param) : param.withoutHint.hint = none := by
  cases param
  rfl

@[simp] theorem withoutHint_default (param : Param) :
    param.withoutHint.default = param.default := by
  cases param
  rfl

/-- Whether the default of a parameter is lowered. -/
def isLowered (form : Form) (param : Param) : Bool :=
  Expr.isLoweredOption form param.default

end Param

namespace Stmt

mutual

/-- Whether no rule applies to a statement or to a part of it. -/
def isLowered (form : Form) : Stmt → Bool
  | expression value => value.isLowered form
  | assign [.name ..] value => value.isLowered form
  | assign [.member object _ _] value =>
    form.keepsMember object && object.isLowered form && value.isLowered form
  | delete _ [.name ..] => true
  | delete _ [.member object _ _] => object.isReservedPath
  | branch .. => true
  | returns _ result => Expr.isLoweredOption form result
  | raises _ exception none => Expr.isLoweredOption form exception
  | declare .. => true
  | importFrom _ source level names _ => form.keepsImport source level names
  | conditional _ test body _ orelse =>
    test.isLowered form && areLowered form body && areLowered form orelse
  | whileLoop _ test body orelse =>
    test.isLowered form && areLowered form body && areLowered form orelse
  | tryBlock _ body handlers orelse final =>
    areLowered form body && areHandlersLowered form handlers && areLowered form orelse &&
      areLowered form final
  | function decorators _ _ params result body =>
    form.keepsHints params result && Expr.areLowered form decorators &&
      params.all (·.isLowered form) && areLowered form body
  | classDef decorators _ _ bases body =>
    Expr.areLowered form decorators && Expr.areLowered form bases && areLowered form body
  | _ => false

def areLowered (form : Form) : List Stmt → Bool
  | [] => true
  | first :: rest => isLowered form first && areLowered form rest

def areHandlersLowered (form : Form) : List Handler → Bool
  | [] => true
  | .mk _ type ident body :: rest =>
    type.isNone && ident.isNone && areLowered form body && areHandlersLowered form rest

end

end Stmt

/-! ## Hints -/

namespace Stmt

mutual

/-- Whether all functions in a statement may have the hints they have. -/
def hintsFit (form : Form) : Stmt → Bool
  | conditional _ _ body _ orelse => hintsFitBody form body && hintsFitBody form orelse
  | whileLoop _ _ body orelse => hintsFitBody form body && hintsFitBody form orelse
  | forLoop _ _ _ body orelse => hintsFitBody form body && hintsFitBody form orelse
  | tryBlock _ body handlers orelse final =>
    hintsFitBody form body && hintsFitHandlers form handlers && hintsFitBody form orelse &&
      hintsFitBody form final
  | withBlock _ _ body => hintsFitBody form body
  | function _ _ _ params result body => form.keepsHints params result && hintsFitBody form body
  | classDef _ _ _ _ body => hintsFitBody form body
  | _ => true

def hintsFitBody (form : Form) : List Stmt → Bool
  | [] => true
  | first :: rest => hintsFit form first && hintsFitBody form rest

def hintsFitHandlers (form : Form) : List Handler → Bool
  | [] => true
  | .mk _ _ _ body :: rest => hintsFitBody form body && hintsFitHandlers form rest

end

variable {form : Form}

mutual

theorem hintsFit_of_hinted (hinted : form.hinted = true) : ∀ stmt : Stmt, hintsFit form stmt = true
  | .conditional _ _ body _ orelse => by
    simp [hintsFit, hintsFitBody_of_hinted hinted body, hintsFitBody_of_hinted hinted orelse]
  | .whileLoop _ _ body orelse => by
    simp [hintsFit, hintsFitBody_of_hinted hinted body, hintsFitBody_of_hinted hinted orelse]
  | .forLoop _ _ _ body orelse => by
    simp [hintsFit, hintsFitBody_of_hinted hinted body, hintsFitBody_of_hinted hinted orelse]
  | .tryBlock _ body handlers orelse final => by
    simp [hintsFit, hintsFitBody_of_hinted hinted body, hintsFitHandlers_of_hinted hinted handlers,
      hintsFitBody_of_hinted hinted orelse, hintsFitBody_of_hinted hinted final]
  | .withBlock _ _ body => hintsFitBody_of_hinted hinted body
  | .function _ _ _ _ _ body => by
    simp [hintsFit, Form.keepsHints, hinted, hintsFitBody_of_hinted hinted body]
  | .classDef _ _ _ _ body => hintsFitBody_of_hinted hinted body
  | .expression .. | .assign .. | .augAssign .. | .annAssign .. | .delete .. | .branch ..
  | .returns .. | .raises .. | .declare .. | .asserts .. | .imports .. | .importFrom .. => rfl

theorem hintsFitBody_of_hinted (hinted : form.hinted = true) :
    ∀ body : List Stmt, hintsFitBody form body = true
  | [] => rfl
  | first :: rest => by
    simp [hintsFitBody, hintsFit_of_hinted hinted first, hintsFitBody_of_hinted hinted rest]

theorem hintsFitHandlers_of_hinted (hinted : form.hinted = true) :
    ∀ handlers : List Handler, hintsFitHandlers form handlers = true
  | [] => rfl
  | .mk _ _ _ body :: rest => by
    simp [hintsFitHandlers, hintsFitBody_of_hinted hinted body, hintsFitHandlers_of_hinted hinted rest]

end

end Stmt

/-! ## Lists -/

namespace Expr

variable {form : Form}

theorem areLowered_iff {items : List Expr} :
    areLowered form items = true ↔ ∀ item ∈ items, item.isLowered form = true := by
  induction items with
  | nil => simp [areLowered]
  | cons first rest induction => simp [areLowered, induction]

end Expr

namespace Stmt

variable {form : Form}

theorem areLowered_iff {body : List Stmt} :
    areLowered form body = true ↔ ∀ stmt ∈ body, stmt.isLowered form = true := by
  induction body with
  | nil => simp [areLowered]
  | cons first rest induction => simp [areLowered, induction]

@[simp] theorem areLowered_append {first second : List Stmt} :
    areLowered form (first ++ second) = (areLowered form first && areLowered form second) := by
  induction first with
  | nil => simp [areLowered]
  | cons stmt rest induction => simp [areLowered, induction, Bool.and_assoc]

end Stmt

/-! ## Reserved paths -/

namespace Expr

variable {form : Form}

theorem isLowered_of_isReservedPath {object : Expr} (reserved : object.isReservedPath = true) :
    object.isLowered form = true := by
  cases object with
  | name => rfl
  | member inner =>
    have below : inner.isReservedPath = true := reserved
    simp [isLowered, Form.keepsMember, below, isLowered_of_isReservedPath below]
  | _ => cases reserved

end Expr

/-! ## Generated trees -/

@[simp] theorem isReserved_supportModule : isReserved supportModule = true := by decide

namespace Expr

variable {form : Form}

@[simp] theorem isLowered_ofName (name : String) : (ofName name).isLowered form = true := rfl

@[simp] theorem isLowered_ofText (text : String) : (ofText text).isLowered form = true := rfl

@[simp] theorem isLowered_ofBool (value : Bool) : (ofBool value).isLowered form = true := rfl

@[simp] theorem isLowered_ofNat (value : Nat) : (ofNat value).isLowered form = true := rfl

@[simp] theorem isLowered_absent : absent.isLowered form = true := rfl

@[simp] theorem isLowered_support (id : String) : (support id).isLowered form = true :=
  isLowered_of_isReservedPath isReserved_supportModule

@[simp] theorem isLowered_builtin (id : String) : (builtin id).isLowered form = true :=
  isLowered_of_isReservedPath isReserved_supportModule

@[simp] theorem isLowered_apply (callee : Expr) (arguments : List Expr) :
    (apply callee arguments).isLowered form =
      (callee.isLowered form && areLowered form arguments) := rfl

@[simp] theorem isLowered_supportCall (id : String) (arguments : List Expr) :
    (supportCall id arguments).isLowered form = areLowered form arguments := by
  simp [supportCall]

@[simp] theorem areLowered_nil : areLowered form [] = true := rfl

@[simp] theorem areLowered_cons (first : Expr) (rest : List Expr) :
    areLowered form (first :: rest) = (first.isLowered form && areLowered form rest) := rfl

end Expr

namespace Stmt

variable {form : Form}

@[simp] theorem isLowered_store (name : String) (value : Expr) :
    (store name value).isLowered form = value.isLowered form := rfl

@[simp] theorem isLowered_perform (id : String) (arguments : List Expr) :
    (perform id arguments).isLowered form = Expr.areLowered form arguments :=
  Expr.isLowered_supportCall id arguments

@[simp] theorem isLowered_pass : pass.isLowered form = true := rfl

@[simp] theorem isLowered_drop (name : String) : (drop name).isLowered form = true := rfl

@[simp] theorem isLowered_conditional (position elsePosition : Position) (test : Expr)
    (body orelse : List Stmt) :
    (conditional position test body elsePosition orelse).isLowered form =
      (test.isLowered form && areLowered form body && areLowered form orelse) := rfl

@[simp] theorem isLowered_choose (test : Expr) (body orelse : List Stmt) :
    (choose test body orelse).isLowered form =
      (test.isLowered form && areLowered form body && areLowered form orelse) := rfl

@[simp] theorem areLowered_nil : areLowered form [] = true := rfl

@[simp] theorem areLowered_cons (first : Stmt) (rest : List Stmt) :
    areLowered form (first :: rest) = (first.isLowered form && areLowered form rest) := rfl

/-- A lowered assignment binds one name or one attribute. -/
theorem assign_of_isLowered {targets : List Expr} {value : Expr}
    (lowered : (assign targets value).isLowered form = true) :
    value.isLowered form = true ∧ ((∃ position id, targets = [.name position id]) ∨
      ∃ object position id, targets = [.member object position id] ∧
        form.keepsMember object = true ∧ object.isLowered form = true) := by
  rcases targets with _ | ⟨target, _ | ⟨_, _⟩⟩
  · cases lowered
  · cases target with
    | name position id => exact ⟨lowered, .inl ⟨position, id, rfl⟩⟩
    | member object position id =>
      simp only [isLowered, Bool.and_eq_true] at lowered
      exact ⟨lowered.2, .inr ⟨object, position, id, rfl, lowered.1⟩⟩
    | _ => cases lowered
  · cases target <;> cases lowered

/-- A lowered deletion deletes one name, or one attribute of something generated. -/
theorem delete_of_isLowered {position : Position} {targets : List Expr}
    (lowered : (delete position targets).isLowered form = true) :
    (∃ start id, targets = [.name start id]) ∨
      ∃ object start id, targets = [.member object start id] ∧ object.isReservedPath = true := by
  rcases targets with _ | ⟨target, _ | ⟨_, _⟩⟩
  · cases lowered
  · cases target with
    | name start id => exact .inl ⟨start, id, rfl⟩
    | member object start id => exact .inr ⟨object, start, id, rfl, lowered⟩
    | _ => cases lowered
  · cases target <;> cases lowered

end Stmt

/-! ## Lowered expressions need no statements -/

namespace Expr

/-- Whether a node of a tree needs statements ahead of it. -/
def nodeNeedsStatements : Node → Bool
  | .expr (logical ..) => true
  | .expr (compare _ ops _) => 1 < ops.length
  | .expr (conditional ..) => true
  | .expr (named ..) => true
  | .expr (lambda ..) => true
  | .expr (comprehension ..) => true
  | _ => false

theorem needsStatements_eq (expr : Expr) :
    expr.needsStatements = (expr.walk (fun _ => true) 0).any (nodeNeedsStatements ·.node) := by
  rw [needsStatements, nodes, List.any_map]
  rfl

private theorem any_visit {depth : Nat} {node : Node} {below : List Visit}
    (here : nodeNeedsStatements node = false)
    (inside : below.any (nodeNeedsStatements ·.node) = false) :
    (node.visit (fun _ => true) depth below).any (nodeNeedsStatements ·.node) = false := by
  simp [Node.visit, here, inside]

private theorem any_append {first second : List Visit}
    (left : first.any (nodeNeedsStatements ·.node) = false)
    (right : second.any (nodeNeedsStatements ·.node) = false) :
    (first ++ second).any (nodeNeedsStatements ·.node) = false := by
  rw [List.any_append, left, right]
  rfl

variable {form : Form}

mutual

theorem walk_any_of_isLowered : ∀ (expr : Expr) (depth : Nat), expr.isLowered form = true →
    (expr.walk (fun _ => true) depth).any (nodeNeedsStatements ·.node) = false
  | .name .., _, _ => rfl
  | .literal .., _, _ => rfl
  | .call callee arguments _, _, lowered => by
    have parts := Bool.and_eq_true_iff.mp lowered
    exact any_visit rfl (any_append (walk_any_of_isLowered callee _ parts.1)
      (walkList_any_of_areLowered arguments _ parts.2))
  | .keyword _ _ value, _, lowered => any_visit rfl (walk_any_of_isLowered value _ lowered)
  | .starred _ _ value, _, lowered => any_visit rfl (walk_any_of_isLowered value _ lowered)
  | .member object _ _, _, lowered =>
    any_visit rfl (walk_any_of_isLowered object _ (Bool.and_eq_true_iff.mp lowered).2)
  | .list _ items _, _, lowered =>
    any_visit rfl (walkList_any_of_areLowered items _ (Bool.and_eq_true_iff.mp lowered).2)
  | .tuple _ items _, _, lowered =>
    any_visit rfl (walkList_any_of_areLowered items _ (Bool.and_eq_true_iff.mp lowered).2)
  | .set _ items _, _, lowered =>
    any_visit rfl (walkList_any_of_areLowered items _ (Bool.and_eq_true_iff.mp lowered).2)
  | .dict _ items _, _, lowered =>
    any_visit rfl (walkList_any_of_areLowered items _ (Bool.and_eq_true_iff.mp lowered).2)
  | .entry key value, _, lowered => by
    have parts := Bool.and_eq_true_iff.mp lowered
    exact any_visit rfl (any_append (walk_any_of_isLowered key _ parts.1)
      (walk_any_of_isLowered value _ parts.2))
  | .yield _ _ none, _, _ => any_visit rfl rfl
  | .yield _ _ (some value), _, lowered =>
    any_visit rfl (walk_any_of_isLowered value _ lowered)

theorem walkList_any_of_areLowered : ∀ (items : List Expr) (depth : Nat),
    areLowered form items = true →
    (walkList (fun _ => true) depth items).any (nodeNeedsStatements ·.node) = false
  | [], _, _ => rfl
  | first :: rest, _, lowered => by
    have parts := Bool.and_eq_true_iff.mp lowered
    exact any_append (walk_any_of_isLowered first _ parts.1)
      (walkList_any_of_areLowered rest _ parts.2)

end

theorem needsStatements_of_isLowered {expr : Expr} (lowered : expr.isLowered form = true) :
    expr.needsStatements = false := by
  rw [needsStatements_eq]
  exact walk_any_of_isLowered expr 0 lowered

end Expr
end Unsugar
