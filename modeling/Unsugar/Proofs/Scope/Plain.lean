import Unsugar.Proofs.Lowering.Form

/-! Plain trees: what is left of a module once it is lowered. Every name in a plain
expression is loaded where it stands, so the names of a body can be listed in the
order in which the body mentions them. -/

namespace Unsugar

/-! ## Expressions -/

namespace Expr

mutual

/-- Whether an expression is made of names, constants, calls and displays. -/
def isPlain : Expr → Bool
  | .name .. => true
  | literal .. => true
  | call callee arguments _ => isPlain callee && arePlain arguments
  | keyword _ _ value => isPlain value
  | starred _ _ value => isPlain value
  | member object _ _ => isPlain object
  | list _ items _ => arePlain items
  | tuple _ items _ => arePlain items
  | set _ items _ => arePlain items
  | dict _ items _ => arePlain items
  | entry key value => isPlain key && isPlain value
  | yield _ _ value => isPlainOption value
  | _ => false

def isPlainOption : Option Expr → Bool
  | none => true
  | some value => isPlain value

def arePlain : List Expr → Bool
  | [] => true
  | first :: rest => isPlain first && arePlain rest

end

mutual

/-- The names that a plain expression loads, in order. -/
def names : Expr → List String
  | .name _ id => [id]
  | call callee arguments _ => names callee ++ namesOfList arguments
  | keyword _ _ value => names value
  | starred _ _ value => names value
  | member object _ _ => names object
  | list _ items _ => namesOfList items
  | tuple _ items _ => namesOfList items
  | set _ items _ => namesOfList items
  | dict _ items _ => namesOfList items
  | entry key value => names key ++ names value
  | yield _ _ value => namesOfOption value
  | _ => []

def namesOfOption : Option Expr → List String
  | none => []
  | some value => names value

def namesOfList : List Expr → List String
  | [] => []
  | first :: rest => names first ++ namesOfList rest

end

/-- The names that the defaults of parameters load. -/
def namesOfParams (params : List Param) : List String :=
  params.flatMap fun param => namesOfOption param.default

@[simp] theorem arePlain_nil : arePlain [] = true := rfl

@[simp] theorem arePlain_cons (first : Expr) (rest : List Expr) :
    arePlain (first :: rest) = (isPlain first && arePlain rest) := rfl

@[simp] theorem namesOfList_nil : namesOfList [] = [] := rfl

@[simp] theorem namesOfList_cons (first : Expr) (rest : List Expr) :
    namesOfList (first :: rest) = names first ++ namesOfList rest := rfl

/-! ## Generated expressions -/

@[simp] theorem isPlain_ofName (name : String) : (ofName name).isPlain = true := rfl

@[simp] theorem isPlain_ofText (text : String) : (ofText text).isPlain = true := rfl

@[simp] theorem isPlain_ofBool (value : Bool) : (ofBool value).isPlain = true := rfl

@[simp] theorem isPlain_absent : absent.isPlain = true := rfl

@[simp] theorem isPlain_apply (callee : Expr) (arguments : List Expr) :
    (apply callee arguments).isPlain = (callee.isPlain && arePlain arguments) := rfl

@[simp] theorem isPlain_supportCall (id : String) (arguments : List Expr) :
    (supportCall id arguments).isPlain = arePlain arguments := rfl

@[simp] theorem isPlain_tupleOf (items : List Expr) : (tupleOf items).isPlain = arePlain items := rfl

@[simp] theorem isPlain_dictOf (items : List Expr) : (dictOf items).isPlain = arePlain items := rfl

@[simp] theorem isPlain_globals : globals.isPlain = true := rfl

@[simp] theorem names_ofName (name : String) : (ofName name).names = [name] := rfl

@[simp] theorem names_ofText (text : String) : (ofText text).names = [] := rfl

@[simp] theorem names_ofBool (value : Bool) : (ofBool value).names = [] := rfl

@[simp] theorem names_absent : absent.names = [] := rfl

@[simp] theorem names_apply (callee : Expr) (arguments : List Expr) :
    (apply callee arguments).names = callee.names ++ namesOfList arguments := rfl

@[simp] theorem names_supportCall (id : String) (arguments : List Expr) :
    (supportCall id arguments).names = supportModule :: namesOfList arguments := rfl

@[simp] theorem names_tupleOf (items : List Expr) : (tupleOf items).names = namesOfList items := rfl

@[simp] theorem names_dictOf (items : List Expr) : (dictOf items).names = namesOfList items := rfl

@[simp] theorem names_globals : globals.names = ["globals"] := rfl

end Expr

/-! ## Statements -/

/-- How far the definitions of a module are made explicit: whether all functions
have reserved names, and whether there are classes. -/
structure Shape where
  renamed : Bool
  classes : Bool

namespace Param

def isPlain (param : Param) : Bool :=
  param.hint.isNone && Expr.isPlainOption param.default

end Param

namespace Stmt

/-- Whether an expression is a target of a plain assignment or deletion. -/
def isPlainTarget : Expr → Bool
  | .name .. => true
  | .member object _ _ => object.isPlain
  | _ => false

mutual

/-- Whether a statement is made of plain expressions, and binds or deletes one
target at most. -/
def isPlain (shape : Shape) : Stmt → Bool
  | expression value => value.isPlain
  | assign [target] value => isPlainTarget target && value.isPlain
  | delete _ [target] => isPlainTarget target
  | branch .. => true
  | returns _ result => Expr.isPlainOption result
  | raises _ exception none => Expr.isPlainOption exception
  | declare .. => true
  | importFrom .. => true
  | conditional _ test body _ orelse =>
    test.isPlain && arePlain shape body && arePlain shape orelse
  | whileLoop _ test body orelse => test.isPlain && arePlain shape body && arePlain shape orelse
  | tryBlock _ body handlers orelse final =>
    arePlain shape body && areHandlersPlain shape handlers && arePlain shape orelse &&
      arePlain shape final
  | function decorators _ ident params result body =>
    (!shape.renamed || isReserved ident.name) && Expr.arePlain decorators &&
      params.all Param.isPlain && result.isNone && arePlain shape body
  | classDef decorators _ _ bases body =>
    shape.classes && Expr.arePlain decorators && Expr.arePlain bases && arePlain shape body
  | _ => false

def arePlain (shape : Shape) : List Stmt → Bool
  | [] => true
  | first :: rest => isPlain shape first && arePlain shape rest

def areHandlersPlain (shape : Shape) : List Handler → Bool
  | [] => true
  | .mk _ type ident body :: rest =>
    type.isNone && ident.isNone && arePlain shape body && areHandlersPlain shape rest

end

variable {shape : Shape}

@[simp] theorem arePlain_nil : arePlain shape [] = true := rfl

@[simp] theorem arePlain_cons (first : Stmt) (rest : List Stmt) :
    arePlain shape (first :: rest) = (isPlain shape first && arePlain shape rest) := rfl

@[simp] theorem arePlain_append (first second : List Stmt) :
    arePlain shape (first ++ second) = (arePlain shape first && arePlain shape second) := by
  induction first with
  | nil => rfl
  | cons stmt rest induction => simp [induction, Bool.and_assoc]

theorem arePlain_insertAt {place : Nat} {added body : List Stmt}
    (addedPlain : arePlain shape added = true) (plain : arePlain shape body = true) :
    arePlain shape (insertAt place added body) = true := by
  rw [← List.take_append_drop place body, arePlain_append, Bool.and_eq_true] at plain
  simp [insertAt, addedPlain, plain]

@[simp] theorem isPlain_store (name : String) (value : Expr) :
    isPlain shape (store name value) = value.isPlain := by
  simp [store, isPlain, isPlainTarget, Expr.ofName]

@[simp] theorem isPlain_drop (name : String) : isPlain shape (drop name) = true := rfl

@[simp] theorem isPlain_perform (id : String) (arguments : List Expr) :
    isPlain shape (perform id arguments) = Expr.arePlain arguments := rfl

end Stmt

/-! ## Lowered trees -/

variable {form : Form}

namespace Expr

mutual

theorem isPlain_of_isLowered : ∀ expr : Expr, expr.isLowered form = true → expr.isPlain = true
  | .name .., _ => rfl
  | .literal .., _ => rfl
  | .call callee arguments _, lowered => by
    have parts := Bool.and_eq_true_iff.mp lowered
    simp [isPlain, isPlain_of_isLowered callee parts.1, arePlain_of_areLowered arguments parts.2]
  | .keyword _ _ value, lowered => isPlain_of_isLowered value lowered
  | .starred _ _ value, lowered => isPlain_of_isLowered value lowered
  | .member object _ _, lowered =>
    isPlain_of_isLowered object (Bool.and_eq_true_iff.mp lowered).2
  | .list _ items _, lowered => arePlain_of_areLowered items (Bool.and_eq_true_iff.mp lowered).2
  | .tuple _ items _, lowered => arePlain_of_areLowered items (Bool.and_eq_true_iff.mp lowered).2
  | .set _ items _, lowered => arePlain_of_areLowered items (Bool.and_eq_true_iff.mp lowered).2
  | .dict _ items _, lowered => arePlain_of_areLowered items (Bool.and_eq_true_iff.mp lowered).2
  | .entry key value, lowered => by
    have parts := Bool.and_eq_true_iff.mp lowered
    simp [isPlain, isPlain_of_isLowered key parts.1, isPlain_of_isLowered value parts.2]
  | .yield _ _ value, lowered => isPlainOption_of_isLowered value lowered

theorem isPlainOption_of_isLowered :
    ∀ value : Option Expr, isLoweredOption form value = true → isPlainOption value = true
  | none, _ => rfl
  | some value, lowered => isPlain_of_isLowered value lowered

theorem arePlain_of_areLowered :
    ∀ items : List Expr, areLowered form items = true → arePlain items = true
  | [], _ => rfl
  | first :: rest, lowered => by
    have parts := Bool.and_eq_true_iff.mp lowered
    simp [isPlain_of_isLowered first parts.1, arePlain_of_areLowered rest parts.2]

end

end Expr

namespace Stmt

/-- A lowered module without hints, before its definitions are made explicit. -/
abbrev lowered : Shape := ⟨false, true⟩

mutual

theorem isPlain_of_isLowered (unhinted : form.hinted = false) :
    ∀ stmt : Stmt, stmt.isLowered form = true → isPlain lowered stmt = true
  | .expression value, settled => value.isPlain_of_isLowered settled
  | .assign _ value, settled => by
    obtain ⟨valueSettled, ⟨_, _, rfl⟩ | ⟨object, _, _, rfl, _, objectSettled⟩⟩ :=
      assign_of_isLowered settled
    · exact value.isPlain_of_isLowered valueSettled
    · simp [isPlain, isPlainTarget, object.isPlain_of_isLowered objectSettled,
        value.isPlain_of_isLowered valueSettled]
  | .delete _ _, settled => by
    obtain ⟨_, _, rfl⟩ | ⟨object, _, _, rfl, reserved⟩ := delete_of_isLowered settled
    · rfl
    · exact object.isPlain_of_isLowered (@Expr.isLowered_of_isReservedPath form _ reserved)
  | .branch .., _ => rfl
  | .returns _ result, settled => Expr.isPlainOption_of_isLowered result settled
  | .raises _ exception none, settled => Expr.isPlainOption_of_isLowered exception settled
  | .declare .., _ => rfl
  | .importFrom .., _ => rfl
  | .conditional _ test body _ orelse, settled => by
    have parts : (test.isLowered form = true ∧ areLowered form body = true) ∧
        areLowered form orelse = true := by
      simpa [isLowered] using settled
    simp [isPlain, test.isPlain_of_isLowered parts.1.1,
      arePlain_of_areLowered unhinted body parts.1.2,
      arePlain_of_areLowered unhinted orelse parts.2]
  | .whileLoop _ test body orelse, settled => by
    have parts : (test.isLowered form = true ∧ areLowered form body = true) ∧
        areLowered form orelse = true := by
      simpa [isLowered] using settled
    simp [isPlain, test.isPlain_of_isLowered parts.1.1,
      arePlain_of_areLowered unhinted body parts.1.2,
      arePlain_of_areLowered unhinted orelse parts.2]
  | .tryBlock _ body handlers orelse final, settled => by
    have parts : ((areLowered form body = true ∧ areHandlersLowered form handlers = true) ∧
        areLowered form orelse = true) ∧ areLowered form final = true := by
      simpa [isLowered] using settled
    simp [isPlain, arePlain_of_areLowered unhinted body parts.1.1.1,
      areHandlersPlain_of_areLowered unhinted handlers parts.1.1.2,
      arePlain_of_areLowered unhinted orelse parts.1.2,
      arePlain_of_areLowered unhinted final parts.2]
  | .function decorators _ _ params result body, settled => by
    have parts : (((params.all (·.hint.isNone) = true ∧ result.isNone = true) ∧
        Expr.areLowered form decorators = true) ∧ params.all (·.isLowered form) = true) ∧
        areLowered form body = true := by
      simpa only [isLowered, Form.keepsHints, unhinted, Bool.false_or, Bool.and_eq_true]
        using settled
    have params : params.all Param.isPlain = true := by
      refine List.all_eq_true.mpr fun param member => ?_
      have unhinted := List.all_eq_true.mp parts.1.1.1.1 param member
      have settled := List.all_eq_true.mp parts.1.2 param member
      simp [Param.isPlain, unhinted, Expr.isPlainOption_of_isLowered param.default settled]
    simp [isPlain, params, parts.1.1.1.2, Expr.arePlain_of_areLowered decorators parts.1.1.2,
      arePlain_of_areLowered unhinted body parts.2]
  | .classDef decorators _ _ bases body, settled => by
    have parts : (Expr.areLowered form decorators = true ∧ Expr.areLowered form bases = true) ∧
        areLowered form body = true := by
      simpa only [isLowered, Bool.and_eq_true] using settled
    simp [isPlain, Expr.arePlain_of_areLowered decorators parts.1.1,
      Expr.arePlain_of_areLowered bases parts.1.2, arePlain_of_areLowered unhinted body parts.2]

theorem arePlain_of_areLowered (unhinted : form.hinted = false) :
    ∀ body : List Stmt, areLowered form body = true → arePlain lowered body = true
  | [], _ => rfl
  | first :: rest, settled => by
    have parts := Bool.and_eq_true_iff.mp settled
    simp [isPlain_of_isLowered unhinted first parts.1,
      arePlain_of_areLowered unhinted rest parts.2]

theorem areHandlersPlain_of_areLowered (unhinted : form.hinted = false) :
    ∀ handlers : List Handler, areHandlersLowered form handlers = true →
      areHandlersPlain lowered handlers = true
  | [], _ => rfl
  | .mk _ type ident body :: rest, settled => by
    have parts : ((type.isNone = true ∧ ident.isNone = true) ∧ areLowered form body = true) ∧
        areHandlersLowered form rest = true := by
      simpa only [areHandlersLowered, Bool.and_eq_true] using settled
    simp [areHandlersPlain, parts.1.1.1, parts.1.1.2,
      arePlain_of_areLowered unhinted body parts.1.2,
      areHandlersPlain_of_areLowered unhinted rest parts.2]

end

end Stmt
end Unsugar
