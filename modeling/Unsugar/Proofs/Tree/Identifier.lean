import Unsugar.Context

/-! The identifiers of a module, wherever they stand: names that are used, parameters,
names of functions and classes, declared names, names of exceptions, targets of
assignment expressions, and the names that imports bind. The walk that collects the
names in use finds exactly these. -/

namespace Unsugar

/-! ## Identifiers -/

def Ident.identifiers : Option Ident → List String
  | none => []
  | some ident => [ident.name]

/-- An import binds the first component of its path where it gives no other name. -/
def Alias.identifiers (item : Alias) : List String :=
  item.bound :: Ident.identifiers item.asName

namespace Expr

mutual

def identifiers : Expr → List String
  | .name _ id => [id]
  | literal .. => []
  | fstring _ _ parts => identifiersOfList parts
  | field _ value _ spec => identifiers value ++ identifiersOfOption spec
  | call callee arguments _ => identifiers callee ++ identifiersOfList arguments
  | keyword _ _ value => identifiers value
  | starred _ _ value => identifiers value
  | member object _ _ => identifiers object
  | subscript object key _ => identifiers object ++ identifiers key
  | slice _ lower upper step =>
    identifiersOfOption lower ++ identifiersOfOption upper ++ identifiersOfOption step
  | binary left _ _ right => identifiers left ++ identifiers right
  | logical left _ _ right => identifiers left ++ identifiers right
  | compare left _ rights => identifiers left ++ identifiersOfList rights
  | unary _ _ operand => identifiers operand
  | conditional test whenTrue whenFalse =>
    identifiers test ++ identifiers whenTrue ++ identifiers whenFalse
  | lambda _ params body => identifiersOfParams params ++ identifiers body
  | list _ items _ => identifiersOfList items
  | tuple _ items _ => identifiersOfList items
  | set _ items _ => identifiersOfList items
  | dict _ items _ => identifiersOfList items
  | entry key value => identifiers key ++ identifiers value
  | comprehension _ _ body clauses _ => identifiers body ++ identifiersOfClauses clauses
  | named target value => target.name :: identifiers value
  | yield _ _ value => identifiersOfOption value

def identifiersOfOption : Option Expr → List String
  | none => []
  | some value => identifiers value

def identifiersOfList : List Expr → List String
  | [] => []
  | first :: rest => identifiers first ++ identifiersOfList rest

def identifiersOfParams : List Param → List String
  | [] => []
  | .mk _ _ ident hint default :: rest =>
    Ident.identifiers ident ++ identifiersOfOption hint ++ identifiersOfOption default ++
      identifiersOfParams rest

def identifiersOfClauses : List Clause → List String
  | [] => []
  | .loop _ target iterable :: rest =>
    identifiers target ++ identifiers iterable ++ identifiersOfClauses rest
  | .filter _ test :: rest => identifiers test ++ identifiersOfClauses rest

end

end Expr

def WithItem.identifiers (item : WithItem) : List String :=
  item.manager.identifiers ++ Expr.identifiersOfOption item.target

namespace Stmt

mutual

def identifiers : Stmt → List String
  | expression value => value.identifiers
  | assign targets value => Expr.identifiersOfList targets ++ value.identifiers
  | augAssign target _ value => target.identifiers ++ value.identifiers
  | annAssign target hint value =>
    target.identifiers ++ hint.identifiers ++ Expr.identifiersOfOption value
  | delete _ targets => Expr.identifiersOfList targets
  | branch .. => []
  | returns _ result => Expr.identifiersOfOption result
  | raises _ exception cause =>
    Expr.identifiersOfOption exception ++ Expr.identifiersOfOption cause
  | declare _ _ names => names.map (·.name)
  | asserts _ test message => test.identifiers ++ Expr.identifiersOfOption message
  | imports _ names => names.flatMap Alias.identifiers
  | importFrom _ _ _ names _ => names.flatMap Alias.identifiers
  | conditional _ test body _ orelse =>
    test.identifiers ++ identifiersOfBody body ++ identifiersOfBody orelse
  | whileLoop _ test body orelse =>
    test.identifiers ++ identifiersOfBody body ++ identifiersOfBody orelse
  | forLoop _ target iterable body orelse =>
    target.identifiers ++ iterable.identifiers ++ identifiersOfBody body ++
      identifiersOfBody orelse
  | tryBlock _ body handlers orelse final =>
    identifiersOfBody body ++ identifiersOfHandlers handlers ++ identifiersOfBody orelse ++
      identifiersOfBody final
  | withBlock _ items body => items.flatMap WithItem.identifiers ++ identifiersOfBody body
  | function decorators _ ident params result body =>
    Expr.identifiersOfList decorators ++ ident.name :: Expr.identifiersOfParams params ++
      Expr.identifiersOfOption result ++ identifiersOfBody body
  | classDef decorators _ ident bases body =>
    Expr.identifiersOfList decorators ++ ident.name :: Expr.identifiersOfList bases ++
      identifiersOfBody body

def identifiersOfBody : List Stmt → List String
  | [] => []
  | first :: rest => identifiers first ++ identifiersOfBody rest

def identifiersOfHandlers : List Handler → List String
  | [] => []
  | .mk _ type ident body :: rest =>
    Expr.identifiersOfOption type ++ Ident.identifiers ident ++ identifiersOfBody body ++
      identifiersOfHandlers rest

end

end Stmt

/-! ## Names on a walk -/

/-- The names that the nodes of a walk tell of. -/
def Visit.names (visits : List Visit) : List String :=
  visits.flatMap fun visit => Context.namesOf visit.node

namespace Visit

@[simp] theorem names_nil : names [] = [] := rfl

@[simp] theorem names_append (first second : List Visit) :
    names (first ++ second) = names first ++ names second :=
  List.flatMap_append

@[simp] theorem names_flatMap {α : Type} (items : List α) (walk : α → List Visit) :
    names (items.flatMap walk) = items.flatMap fun item => names (walk item) :=
  List.flatMap_assoc

/-- A walk that enters everything goes on below a node. -/
@[simp] theorem names_visit (depth : Nat) (node : Node) (below : List Visit) :
    names (node.visit (fun _ => true) depth below) = Context.namesOf node ++ names below := rfl

@[simp] theorem names_ident (depth : Nat) (ident : Ident) :
    names (ident.walk depth) = [ident.name] := rfl

@[simp] theorem names_identOption (depth : Nat) (ident : Option Ident) :
    names (Ident.walkOption depth ident) = Ident.identifiers ident := by
  cases ident <;> rfl

end Visit

open Visit Context

namespace Expr

mutual

theorem names_walk : ∀ (expr : Expr) (depth : Nat),
    Visit.names (expr.walk (fun _ => true) depth) = expr.identifiers
  | .name .., _ => rfl
  | .literal .., _ => rfl
  | .fstring _ _ parts, _ => by simp [walk, identifiers, namesOf, names_walkList parts]
  | .field _ value _ spec, _ => by
    simp [walk, identifiers, namesOf, names_walk value, names_walkOption spec]
  | .call callee arguments _, _ => by
    simp [walk, identifiers, namesOf, names_walk callee, names_walkList arguments]
  | .keyword _ _ value, _ => by simp [walk, identifiers, namesOf, names_walk value]
  | .starred _ _ value, _ => by simp [walk, identifiers, namesOf, names_walk value]
  | .member object _ _, _ => by simp [walk, identifiers, namesOf, names_walk object]
  | .subscript object key _, _ => by
    simp [walk, identifiers, namesOf, names_walk object, names_walk key]
  | .slice _ lower upper step, _ => by
    simp [walk, identifiers, namesOf, names_walkOption lower, names_walkOption upper,
      names_walkOption step]
  | .binary left _ _ right, _ => by
    simp [walk, identifiers, namesOf, names_walk left, names_walk right]
  | .logical left _ _ right, _ => by
    simp [walk, identifiers, namesOf, names_walk left, names_walk right]
  | .compare left _ rights, _ => by
    simp [walk, identifiers, namesOf, names_walk left, names_walkList rights]
  | .unary _ _ operand, _ => by simp [walk, identifiers, namesOf, names_walk operand]
  | .conditional test whenTrue whenFalse, _ => by
    simp [walk, identifiers, namesOf, names_walk test, names_walk whenTrue, names_walk whenFalse]
  | .lambda _ params body, _ => by
    simp [walk, identifiers, namesOf, names_walkParams params, names_walk body]
  | .list _ items _, _ => by simp [walk, identifiers, namesOf, names_walkList items]
  | .tuple _ items _, _ => by simp [walk, identifiers, namesOf, names_walkList items]
  | .set _ items _, _ => by simp [walk, identifiers, namesOf, names_walkList items]
  | .dict _ items _, _ => by simp [walk, identifiers, namesOf, names_walkList items]
  | .entry key value, _ => by simp [walk, identifiers, namesOf, names_walk key, names_walk value]
  | .comprehension _ _ body clauses _, _ => by
    simp [walk, identifiers, namesOf, names_walk body, names_walkClauses clauses]
  | .named target value, _ => by simp [walk, identifiers, namesOf, names_walk value]
  | .yield _ _ value, _ => by simp [walk, identifiers, namesOf, names_walkOption value]

theorem names_walkOption : ∀ (value : Option Expr) (depth : Nat),
    Visit.names (walkOption (fun _ => true) depth value) = identifiersOfOption value
  | none, _ => rfl
  | some value, _ => by simp [walkOption, identifiersOfOption, names_walk value]

theorem names_walkList : ∀ (items : List Expr) (depth : Nat),
    Visit.names (walkList (fun _ => true) depth items) = identifiersOfList items
  | [], _ => rfl
  | first :: rest, _ => by
    simp [walkList, identifiersOfList, names_walk first, names_walkList rest]

theorem names_walkParams : ∀ (params : List Param) (depth : Nat),
    Visit.names (walkParams (fun _ => true) depth params) = identifiersOfParams params
  | [], _ => rfl
  | .mk _ _ _ hint default :: rest, _ => by
    simp [walkParams, walkParam, identifiersOfParams, namesOf, names_walkOption hint,
      names_walkOption default, names_walkParams rest]

theorem names_walkClauses : ∀ (clauses : List Clause) (depth : Nat),
    Visit.names (walkClauses (fun _ => true) depth clauses) = identifiersOfClauses clauses
  | [], _ => rfl
  | .loop _ target iterable :: rest, _ => by
    simp [walkClauses, walkClause, identifiersOfClauses, namesOf, names_walk target,
      names_walk iterable, names_walkClauses rest]
  | .filter _ test :: rest, _ => by
    simp [walkClauses, walkClause, identifiersOfClauses, namesOf, names_walk test,
      names_walkClauses rest]

end

end Expr

@[simp] theorem Alias.names_walk (item : Alias) (depth : Nat) :
    Visit.names (item.walk (fun _ => true) depth) = item.identifiers := by
  simp [Alias.walk, Alias.identifiers, namesOf]

@[simp] theorem WithItem.names_walk (item : WithItem) (depth : Nat) :
    Visit.names (item.walk (fun _ => true) depth) = item.identifiers := by
  simp [WithItem.walk, WithItem.identifiers, Expr.names_walk, Expr.names_walkOption]

namespace Stmt

open Unsugar.Expr (names_walkOption names_walkList names_walkParams)

mutual

theorem names_walk : ∀ (stmt : Stmt) (depth : Nat),
    Visit.names (stmt.walk (fun _ => true) depth) = stmt.identifiers
  | .expression value, _ => by simp [walk, identifiers, namesOf, value.names_walk]
  | .assign targets value, _ => by
    simp [walk, identifiers, namesOf, names_walkList targets, value.names_walk]
  | .augAssign target _ value, _ => by
    simp [walk, identifiers, namesOf, target.names_walk, value.names_walk]
  | .annAssign target hint value, _ => by
    simp [walk, identifiers, namesOf, target.names_walk, hint.names_walk, names_walkOption value]
  | .delete _ targets, _ => by simp [walk, identifiers, namesOf, names_walkList targets]
  | .branch .., _ => rfl
  | .returns _ result, _ => by simp [walk, identifiers, namesOf, names_walkOption result]
  | .raises _ exception cause, _ => by
    simp [walk, identifiers, namesOf, names_walkOption exception, names_walkOption cause]
  | .declare _ _ idents, _ => by simp [walk, identifiers, namesOf, List.map_eq_flatMap]
  | .asserts _ test message, _ => by
    simp [walk, identifiers, namesOf, test.names_walk, names_walkOption message]
  | .imports .., _ => by simp [walk, identifiers, namesOf]
  | .importFrom .., _ => by simp [walk, identifiers, namesOf]
  | .conditional _ test body _ orelse, _ => by
    simp [walk, identifiers, namesOf, test.names_walk, names_walkBody body, names_walkBody orelse]
  | .whileLoop _ test body orelse, _ => by
    simp [walk, identifiers, namesOf, test.names_walk, names_walkBody body, names_walkBody orelse]
  | .forLoop _ target iterable body orelse, _ => by
    simp [walk, identifiers, namesOf, target.names_walk, iterable.names_walk, names_walkBody body,
      names_walkBody orelse]
  | .tryBlock _ body handlers orelse final, _ => by
    simp [walk, identifiers, namesOf, names_walkBody body, names_walkHandlers handlers,
      names_walkBody orelse, names_walkBody final]
  | .withBlock _ items body, _ => by simp [walk, identifiers, namesOf, names_walkBody body]
  | .function decorators _ _ params result body, _ => by
    simp [walk, identifiers, namesOf, names_walkList decorators, names_walkParams params,
      names_walkOption result, names_walkBody body]
  | .classDef decorators _ _ bases body, _ => by
    simp [walk, identifiers, namesOf, names_walkList decorators, names_walkList bases,
      names_walkBody body]

theorem names_walkBody : ∀ (body : List Stmt) (depth : Nat),
    Visit.names (walkBody (fun _ => true) depth body) = identifiersOfBody body
  | [], _ => rfl
  | first :: rest, _ => by
    simp [walkBody, identifiersOfBody, names_walk first, names_walkBody rest]

theorem names_walkHandlers : ∀ (handlers : List Handler) (depth : Nat),
    Visit.names (walkHandlers (fun _ => true) depth handlers) = identifiersOfHandlers handlers
  | [], _ => rfl
  | .mk _ type _ body :: rest, _ => by
    simp [walkHandlers, identifiersOfHandlers, namesOf, names_walkOption type, names_walkBody body,
      names_walkHandlers rest]

end

end Stmt
end Unsugar
