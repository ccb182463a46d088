import Unsugar.Tree.Basic

/-! Changing the leaves of a tree and nothing else: positions, the texts of
literals, names, and the names of attributes. Forgetting positions and renaming
are such changes. -/

namespace Unsugar

/-- What becomes of each kind of leaf. -/
structure LeafMap where
  position : Position → Position := id
  /-- The texts of literals and formatted strings. -/
  raw : String → String := id
  /-- Names, bound or used. -/
  name : String → String := id
  /-- Names of attributes. -/
  member : String → String := id

namespace LeafMap

/-- Forgets the texts of literals, so that they print from their values. -/
def clearRaw : LeafMap := { raw := fun _ => "" }

/-- Forgets positions. -/
def forgetPositions : LeafMap := { position := fun _ => .unknown }

def ident (leaves : LeafMap) (ident : Ident) : Ident :=
  ⟨leaves.position ident.position, leaves.name ident.name⟩

def item (leaves : LeafMap) (name : Alias) : Alias :=
  ⟨leaves.position name.position, name.path, name.asName.map leaves.ident⟩

end LeafMap

namespace Expr

mutual

/-- Changes the leaves of an expression. -/
def mapLeaves (leaves : LeafMap) : Expr → Expr
  | name position id => name (leaves.position position) (leaves.name id)
  | literal position raw value => literal (leaves.position position) (leaves.raw raw) value
  | fstring position raw parts =>
    fstring (leaves.position position) (leaves.raw raw) (mapLeavesList leaves parts)
  | field position value conversion spec =>
    field (leaves.position position) (mapLeaves leaves value) conversion
      (mapLeavesOption leaves spec)
  | call callee arguments closing =>
    call (mapLeaves leaves callee) (mapLeavesList leaves arguments) (leaves.position closing)
  | keyword position id value => keyword (leaves.position position) id (mapLeaves leaves value)
  | starred position op value => starred (leaves.position position) op (mapLeaves leaves value)
  | member object position id =>
    member (mapLeaves leaves object) (leaves.position position) (leaves.member id)
  | subscript object key closing =>
    subscript (mapLeaves leaves object) (mapLeaves leaves key) (leaves.position closing)
  | slice position lower upper step =>
    slice (leaves.position position) (mapLeavesOption leaves lower) (mapLeavesOption leaves upper)
      (mapLeavesOption leaves step)
  | binary left position op right =>
    binary (mapLeaves leaves left) (leaves.position position) op (mapLeaves leaves right)
  | logical left position op right =>
    logical (mapLeaves leaves left) (leaves.position position) op (mapLeaves leaves right)
  | compare left ops rights =>
    compare (mapLeaves leaves left) ops (mapLeavesList leaves rights)
  | unary position op operand => unary (leaves.position position) op (mapLeaves leaves operand)
  | conditional test whenTrue whenFalse =>
    conditional (mapLeaves leaves test) (mapLeaves leaves whenTrue) (mapLeaves leaves whenFalse)
  | lambda position params body =>
    lambda (leaves.position position) (mapLeavesParams leaves params) (mapLeaves leaves body)
  | list opening items closing =>
    list (leaves.position opening) (mapLeavesList leaves items) (leaves.position closing)
  | tuple opening items closing =>
    tuple (leaves.position opening) (mapLeavesList leaves items) (leaves.position closing)
  | set opening items closing =>
    set (leaves.position opening) (mapLeavesList leaves items) (leaves.position closing)
  | dict opening items closing =>
    dict (leaves.position opening) (mapLeavesList leaves items) (leaves.position closing)
  | entry key value => entry (mapLeaves leaves key) (mapLeaves leaves value)
  | comprehension kind opening body clauses closing =>
    comprehension kind (leaves.position opening) (mapLeaves leaves body)
      (mapLeavesClauses leaves clauses) (leaves.position closing)
  | named target value => named (leaves.ident target) (mapLeaves leaves value)
  | yield position delegates value =>
    yield (leaves.position position) delegates (mapLeavesOption leaves value)

def mapLeavesOption (leaves : LeafMap) : Option Expr → Option Expr
  | none => none
  | some value => some (mapLeaves leaves value)

def mapLeavesList (leaves : LeafMap) : List Expr → List Expr
  | [] => []
  | first :: rest => mapLeaves leaves first :: mapLeavesList leaves rest

def mapLeavesParam (leaves : LeafMap) : Param → Param
  | .mk kind position ident hint default =>
    .mk kind (leaves.position position) (ident.map leaves.ident)
      (mapLeavesOption leaves hint) (mapLeavesOption leaves default)

def mapLeavesParams (leaves : LeafMap) : List Param → List Param
  | [] => []
  | first :: rest => mapLeavesParam leaves first :: mapLeavesParams leaves rest

def mapLeavesClause (leaves : LeafMap) : Clause → Clause
  | .loop position target iterable =>
    .loop (leaves.position position) (mapLeaves leaves target) (mapLeaves leaves iterable)
  | .filter position test => .filter (leaves.position position) (mapLeaves leaves test)

def mapLeavesClauses (leaves : LeafMap) : List Clause → List Clause
  | [] => []
  | first :: rest => mapLeavesClause leaves first :: mapLeavesClauses leaves rest

end

end Expr

def WithItem.mapLeaves (leaves : LeafMap) (item : WithItem) : WithItem :=
  ⟨item.manager.mapLeaves leaves, Expr.mapLeavesOption leaves item.target⟩

namespace Stmt

mutual

/-- Changes the leaves of a statement. In the body of a class the change is the
one `inside` it. -/
def mapLeaves (inside : String → LeafMap) (leaves : LeafMap) : Stmt → Stmt
  | expression value => expression (value.mapLeaves leaves)
  | assign targets value => assign (Expr.mapLeavesList leaves targets) (value.mapLeaves leaves)
  | augAssign target op value => augAssign (target.mapLeaves leaves) op (value.mapLeaves leaves)
  | annAssign target hint value =>
    annAssign (target.mapLeaves leaves) (hint.mapLeaves leaves)
      (Expr.mapLeavesOption leaves value)
  | delete position targets =>
    delete (leaves.position position) (Expr.mapLeavesList leaves targets)
  | branch position kind => branch (leaves.position position) kind
  | returns position result =>
    returns (leaves.position position) (Expr.mapLeavesOption leaves result)
  | raises position exception cause =>
    raises (leaves.position position) (Expr.mapLeavesOption leaves exception)
      (Expr.mapLeavesOption leaves cause)
  | declare position declaration names =>
    declare (leaves.position position) declaration (names.map leaves.ident)
  | asserts position test message =>
    asserts (leaves.position position) (test.mapLeaves leaves)
      (Expr.mapLeavesOption leaves message)
  | imports position names => imports (leaves.position position) (names.map leaves.item)
  | importFrom position source level names closing =>
    importFrom (leaves.position position) source level (names.map leaves.item)
      (leaves.position closing)
  | conditional position test body elsePosition orelse =>
    conditional (leaves.position position) (test.mapLeaves leaves) (mapLeavesBody inside leaves body)
      (leaves.position elsePosition) (mapLeavesBody inside leaves orelse)
  | whileLoop position test body orelse =>
    whileLoop (leaves.position position) (test.mapLeaves leaves) (mapLeavesBody inside leaves body)
      (mapLeavesBody inside leaves orelse)
  | forLoop position target iterable body orelse =>
    forLoop (leaves.position position) (target.mapLeaves leaves) (iterable.mapLeaves leaves)
      (mapLeavesBody inside leaves body) (mapLeavesBody inside leaves orelse)
  | tryBlock position body handlers orelse final =>
    tryBlock (leaves.position position) (mapLeavesBody inside leaves body)
      (mapLeavesHandlers inside leaves handlers) (mapLeavesBody inside leaves orelse)
      (mapLeavesBody inside leaves final)
  | withBlock position items body =>
    withBlock (leaves.position position) (items.map (·.mapLeaves leaves))
      (mapLeavesBody inside leaves body)
  | function decorators position ident params result body =>
    function (Expr.mapLeavesList leaves decorators) (leaves.position position)
      (leaves.ident ident) (Expr.mapLeavesParams leaves params)
      (Expr.mapLeavesOption leaves result) (mapLeavesBody inside leaves body)
  | classDef decorators position ident bases body =>
    classDef (Expr.mapLeavesList leaves decorators) (leaves.position position)
      (leaves.ident ident) (Expr.mapLeavesList leaves bases)
      (mapLeavesBody inside (inside ident.name) body)

/-- Changes the leaves of all statements of a body. -/
def mapLeavesBody (inside : String → LeafMap) (leaves : LeafMap) : List Stmt → List Stmt
  | [] => []
  | first :: rest => mapLeaves inside leaves first :: mapLeavesBody inside leaves rest

def mapLeavesHandlers (inside : String → LeafMap) (leaves : LeafMap) : List Handler → List Handler
  | [] => []
  | .mk position type ident body :: rest =>
    .mk (leaves.position position) (Expr.mapLeavesOption leaves type) (ident.map leaves.ident)
      (mapLeavesBody inside leaves body) :: mapLeavesHandlers inside leaves rest

end

/-- The same change of the leaves everywhere in a body. -/
def mapAllLeaves (leaves : LeafMap) (body : List Stmt) : List Stmt :=
  mapLeavesBody (fun _ => leaves) leaves body

end Stmt
end Unsugar
