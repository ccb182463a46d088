import Unsugar.Definition.Class
import Unsugar.Proofs.Outcome
import Unsugar.Proofs.Scope.Growth

/-! Passes that go through a module together with its scopes. Each definition finds
its own scope, and such a pass changes a body as it should if it does so to each
definition alone. -/

namespace Unsugar

variable {α β : Type}

/-! ## Judgements -/

namespace Descent

/-- A computation that starts with some scopes ahead does not fail; its value and the
scopes then ahead are related. -/
def Gives (scopes : List Scope) (holds : α → List Scope → Prop) (action : Descent Desugar α) :
    Prop :=
  Desugar.Gives (fun _ => False) (fun result => holds result.1 result.2) (StateT.run action scopes)

namespace Gives

variable {scopes : List Scope} {holds : α → List Scope → Prop} {result : β → List Scope → Prop}

theorem pure {value : α} (valid : holds value scopes) :
    Gives scopes holds (Pure.pure value : Descent Desugar α) :=
  Desugar.Gives.pure valid

theorem bind {action : Descent Desugar α} {next : α → Descent Desugar β}
    (first : Gives scopes holds action)
    (rest : ∀ value after, holds value after → Gives after result (next value)) :
    Gives scopes result (action >>= next) := by
  unfold Gives
  rw [StateT.run_bind]
  exact Desugar.Gives.bind first fun (value, after) valid => rest value after valid

theorem lift {action : Desugar α} {known : α → Prop}
    (given : Desugar.Gives (fun _ => False) known action)
    (implies : ∀ value, known value → holds value scopes) :
    Gives scopes holds (liftM action : Descent Desugar α) := by
  change Desugar.Gives _ _ (action >>= fun value => Pure.pure (value, scopes))
  exact given.bind fun value valid => .pure (implies value valid)

theorem enter {scope : Scope} {later : List Scope} (around : Opened) :
    Gives (scope :: later)
      (fun opened after => opened = ⟨scope, around.enclosing, later⟩ ∧ after = scope.children)
      (Descent.enter around) :=
  fun _ _ => ⟨⟨rfl, rfl⟩, rfl⟩

theorem leave (opened : Opened) :
    Gives scopes (fun _ after => after = opened.later) (Descent.leave opened) :=
  fun _ _ => ⟨rfl, rfl⟩

/-- Going through a whole module. -/
theorem run {scope : Scope} {descent : Opened → Descent Desugar α}
    (given : Gives scope.children holds (descent (.ofModule scope))) :
    Desugar.Gives (fun _ => False) (fun value => ∃ after, holds value after)
      (Descent.run scope descent) :=
  Desugar.Gives.bind given fun (_, after) valid => .pure ⟨after, valid⟩

end Gives
end Descent

/-! ## Scopes of definitions -/

namespace Scope

variable {name : String}

mutual

/-- Whether a scope may belong to a definition: the scope of a class knows how the
class declares a name. -/
def Fits (name : String) : Scope → Outline → Prop
  | mk info children, outline =>
    (outline.kind = .classScope →
      info.names.globals.contains name = (!outline.params.contains name &&
        decide (Mentions.declaration? outline.mentions name = some .global)) ∧
      info.names.nonlocals.contains name = (!outline.params.contains name &&
        decide (Mentions.declaration? outline.mentions name = some .nonlocal))) ∧
      FitAll name children outline.inner

def FitAll (name : String) : List Scope → List Outline → Prop
  | [], outlines => outlines = []
  | first :: rest, outlines => ∃ outline others, outlines = outline :: others ∧
      Fits name first outline ∧ FitAll name rest others

end

theorem Fits.children {scope : Scope} {outline : Outline} (fits : Fits name scope outline) :
    FitAll name scope.children outline.inner := by
  cases scope
  exact fits.2

theorem FitAll.split {first second : List Outline} :
    ∀ {scopes : List Scope}, FitAll name scopes (first ++ second) →
      ∃ here later, scopes = here ++ later ∧ FitAll name here first ∧ FitAll name later second := by
  induction first with
  | nil => exact fun {scopes} fit => ⟨[], scopes, rfl, rfl, fit⟩
  | cons outline rest induction =>
    intro scopes fit
    cases scopes with
    | nil => cases fit
    | cons scope others =>
      obtain ⟨_, _, ⟨⟩, fits, below⟩ := fit
      obtain ⟨here, later, rfl, hereFit, laterFit⟩ := induction below
      exact ⟨scope :: here, later, rfl, ⟨outline, rest, rfl, fits, hereFit⟩, laterFit⟩

theorem FitAll.single {outline : Outline} {scopes : List Scope}
    (fit : FitAll name scopes [outline]) :
    ∃ scope, scopes = [scope] ∧ Fits name scope outline := by
  cases scopes with
  | nil => cases fit
  | cons scope others =>
    obtain ⟨_, _, ⟨⟩, fits, below⟩ := fit
    cases others with
    | nil => exact ⟨scope, rfl, fits⟩
    | cons => obtain ⟨_, _, ⟨⟩, _⟩ := below

mutual

/-- The scopes of a module fit its definitions. -/
theorem ofOutline_fits (user : isReserved name = false) :
    ∀ (outer : Enclosing) (outline : Outline), Fits name (ofOutline outer outline) outline
  | outer, .mk kind title params mentions nonlocals inner => by
    refine ⟨fun isClass => ?_, ofOutlines_fit user _ inner⟩
    have inside : (Outline.mk kind title params mentions nonlocals inner).kind ≠ .moduleScope := by
      rw [isClass]
      simp
    have tells := Names.ofOutline_tells _ inside user
    exact ⟨tells.globals, tells.nonlocals⟩

theorem ofOutlines_fit (user : isReserved name = false) :
    ∀ (outer : Enclosing) (outlines : List Outline),
      FitAll name (ofOutlines outer outlines) outlines
  | _, [] => rfl
  | outer, first :: rest =>
    ⟨first, rest, rfl, ofOutline_fits user outer first, ofOutlines_fit user outer rest⟩

end

mutual

/-- Scopes still fit where no class has become a function. -/
theorem Fits.throughout {relation : Bool → Outline → Outline → Prop}
    (keeps : ∀ flag before after, relation flag before after →
      Outline.Keeps name flag before after) :
    ∀ (flag : Bool) (scope : Scope) (before after : Outline), Fits name scope before →
      Outline.Throughout relation flag before after → Fits name scope after
  | flag, .mk info children, .mk kind title params mentions nonlocals inner, after, fits, all => by
    have kept := keeps _ _ _ all.1
    refine ⟨fun isClass => ?_, FitAll.throughout keeps _ children inner after.inner fits.2 all.2⟩
    rw [kept.params, kept.declares]
    exact fits.1 (kept.isClass isClass)

theorem FitAll.throughout {relation : Bool → Outline → Outline → Prop}
    (keeps : ∀ flag before after, relation flag before after →
      Outline.Keeps name flag before after) :
    ∀ (flag : Bool) (scopes : List Scope) (before after : List Outline),
      FitAll name scopes before → Outline.AllThroughout relation flag before after →
      FitAll name scopes after
  | _, [], before, after, fits, all => by
    cases fits
    exact all
  | flag, scope :: rest, before, after, fits, all => by
    obtain ⟨outline, others, rfl, here, below⟩ := fits
    obtain ⟨counterpart, later, rfl, hereToo, belowToo⟩ := all
    exact ⟨counterpart, later, rfl, Fits.throughout keeps flag scope outline _ here hereToo,
      FitAll.throughout keeps flag rest others _ below belowToo⟩

end

end Scope

/-! ## Passes -/

namespace Definition

open BodyGrows (congruence)

/-- A pass that changes definitions alone, and does so when it leaves them. -/
structure Descends (pass : Pass (Descent Desugar) Opened) : Prop where
  visitor : ∀ env, pass.visitor env = Visitor.unchanged
  test : ∀ env test, pass.test env test = pure test
  simple : ∀ env stmt, pass.simple env stmt = pure [stmt]
  enterFunction : ∀ env head body, pass.enterFunction env head body =
    (do return (head, some (← Descent.enter env)))
  enterClass : ∀ env head, pass.enterClass env head =
    (do return (head, some (← Descent.enter env)))

theorem Descends.enterFunction_gives {pass : Pass (Descent Desugar) Opened}
    (descends : Descends pass) {scope : Scope} {later : List Scope} (around : Opened)
    (head : FunctionHead) (body : List Stmt) :
    Descent.Gives (scope :: later)
      (fun entered ahead =>
        entered = (head, some ⟨scope, around.enclosing, later⟩) ∧ ahead = scope.children)
      (pass.enterFunction around head body) := by
  rw [descends.enterFunction]
  refine .bind (.enter around) ?_
  rintro _ _ ⟨rfl, rfl⟩
  exact .pure ⟨rfl, rfl⟩

theorem Descends.enterClass_gives {pass : Pass (Descent Desugar) Opened}
    (descends : Descends pass) {scope : Scope} {later : List Scope} (around : Opened)
    (head : ClassHead) :
    Descent.Gives (scope :: later)
      (fun entered ahead =>
        entered = (head, some ⟨scope, around.enclosing, later⟩) ∧ ahead = scope.children)
      (pass.enterClass around head) := by
  rw [descends.enterClass]
  refine .bind (.enter around) ?_
  rintro _ _ ⟨rfl, rfl⟩
  exact .pure ⟨rfl, rfl⟩

/-- A pass that changes each definition as it should. -/
structure Leaves (pass : Pass (Descent Desugar) Opened) (shape shape' : Shape)
    (relation : Bool → Outline → Outline → Prop) (name : String) : Prop where
  function : ∀ inClass around opened next head body after scopes,
    (head.withBody body).isPlain shape = true →
    BodyGrows shape' relation name inClass false body after →
    Descent.Gives scopes (fun stmts later => later = opened.later ∧
      BodyGrows shape' relation name inClass false [head.withBody body] stmts)
      (pass.leaveFunction around opened next head after)
  classDef : ∀ inClass around opened head body after scopes outline,
    (head.withBody body).isPlain shape = true → (head.withBody body).outlines = [outline] →
    Scope.Fits name opened.scope outline →
    BodyGrows shape' relation name true false body after →
    Descent.Gives scopes (fun stmts later => later = opened.later ∧
      BodyGrows shape' relation name inClass false [head.withBody body] stmts)
      (pass.leaveClass around opened head after)

variable {pass : Pass (Descent Desugar) Opened} {shape shape' : Shape}
  {relation : Bool → Outline → Outline → Prop} {name : String}

/-- A body becomes another one, and its scopes are used up. -/
def Becomes (shape : Shape) (relation : Bool → Outline → Outline → Prop) (name : String)
    (inClass : Bool) (later : List Scope) (before after : List Stmt) (ahead : List Scope) : Prop :=
  ahead = later ∧ BodyGrows shape relation name inClass false before after

theorem simple_becomes {inClass : Bool} {opened : Opened} {next : Option Stmt} {stmt : Stmt}
    {here later : List Scope} (descends : Descends pass)
    (step : pass.stmt opened next stmt = pass.simple opened stmt)
    (plain : stmt.isPlain shape' = true) (simple : stmt.outlines = [])
    (fit : Scope.FitAll name here stmt.outlines) :
    Descent.Gives (here ++ later) (Becomes shape' relation name inClass later [stmt])
      (pass.stmt opened next stmt) := by
  rw [simple] at fit
  have used : here = [] := by
    cases here with
    | nil => rfl
    | cons => obtain ⟨_, _, ⟨⟩, _⟩ := fit
  rw [step, descends.simple, used]
  exact .pure ⟨rfl, BodyGrows.unchanged plain simple⟩

mutual

/-- Going through a statement changes it as each definition in it is changed. -/
theorem stmt_becomes (descends : Descends pass)
    (leaves : Leaves pass shape shape' relation name) :
    ∀ (inClass : Bool) (opened : Opened) (next : Option Stmt) (stmt : Stmt)
      (here later : List Scope), stmt.isPlain shape = true → Scope.FitAll name here stmt.outlines →
      Descent.Gives (here ++ later) (Becomes shape' relation name inClass later [stmt])
        (pass.stmt opened next stmt)
  | inClass, opened, _, .conditional position test body elsePosition orelse, here, later, plain,
      fit => by
    have parts : (test.isPlain = true ∧ Stmt.arePlain shape body = true) ∧
        Stmt.arePlain shape orelse = true := by
      simpa [Stmt.isPlain] using plain
    obtain ⟨first, second, rfl, firstFit, secondFit⟩ := Scope.FitAll.split fit
    rw [Pass.stmt, descends.test, pure_bind, List.append_assoc]
    refine .bind (body_becomes descends leaves inClass opened body first _ parts.1.2 firstFit) ?_
    rintro body' _ ⟨rfl, bodyGrows⟩
    refine .bind (body_becomes descends leaves inClass opened orelse second _ parts.2 secondFit) ?_
    rintro orelse' _ ⟨rfl, orelseGrows⟩
    exact .pure ⟨rfl, congruence.conditional ⟨parts.1.1, .same _⟩ bodyGrows orelseGrows⟩
  | inClass, opened, _, .whileLoop position test body orelse, here, later, plain, fit => by
    have parts : (test.isPlain = true ∧ Stmt.arePlain shape body = true) ∧
        Stmt.arePlain shape orelse = true := by
      simpa [Stmt.isPlain] using plain
    obtain ⟨first, second, rfl, firstFit, secondFit⟩ := Scope.FitAll.split fit
    rw [Pass.stmt, descends.test, pure_bind, List.append_assoc]
    refine .bind (body_becomes descends leaves inClass opened body first _ parts.1.2 firstFit) ?_
    rintro body' _ ⟨rfl, bodyGrows⟩
    refine .bind (body_becomes descends leaves inClass opened orelse second _ parts.2 secondFit) ?_
    rintro orelse' _ ⟨rfl, orelseGrows⟩
    exact .pure ⟨rfl, congruence.whileLoop ⟨parts.1.1, .same _⟩ bodyGrows orelseGrows⟩
  | inClass, opened, _, .tryBlock position body handlers orelse final, here, later, plain, fit => by
    have parts : ((Stmt.arePlain shape body = true ∧ Stmt.areHandlersPlain shape handlers = true) ∧
        Stmt.arePlain shape orelse = true) ∧ Stmt.arePlain shape final = true := by
      simpa [Stmt.isPlain] using plain
    obtain ⟨most, fourth, rfl, mostFit, fourthFit⟩ := Scope.FitAll.split fit
    obtain ⟨both, third, rfl, bothFit, thirdFit⟩ := Scope.FitAll.split mostFit
    obtain ⟨first, second, rfl, firstFit, secondFit⟩ := Scope.FitAll.split bothFit
    rw [Pass.stmt, List.append_assoc, List.append_assoc, List.append_assoc]
    refine .bind (body_becomes descends leaves inClass opened body first _ parts.1.1.1 firstFit) ?_
    rintro body' _ ⟨rfl, bodyGrows⟩
    refine .bind
      (handlers_become descends leaves inClass opened handlers second _ parts.1.1.2 secondFit) ?_
    rintro handlers' _ ⟨rfl, handlersGrow⟩
    refine .bind (body_becomes descends leaves inClass opened orelse third _ parts.1.2 thirdFit) ?_
    rintro orelse' _ ⟨rfl, orelseGrows⟩
    refine .bind (body_becomes descends leaves inClass opened final fourth _ parts.2 fourthFit) ?_
    rintro final' _ ⟨rfl, finalGrows⟩
    exact .pure ⟨rfl, congruence.tryBlock bodyGrows handlersGrow orelseGrows finalGrows⟩
  | inClass, opened, next, .function decorators position ident params result body, here, later,
      plain, fit => by
    have parts : (Stmt.isPlain shape (.function decorators position ident params result []) = true) ∧
        Stmt.arePlain shape body = true := by
      simpa [Stmt.isPlain] using plain
    obtain ⟨scope, rfl, fits⟩ := Scope.FitAll.single fit
    rw [Pass.stmt]
    refine .bind (descends.enterFunction_gives opened _ body) ?_
    rintro _ _ ⟨rfl, rfl⟩
    have inside := body_becomes descends leaves inClass ⟨scope, opened.enclosing, later⟩ body
      scope.children [] parts.2 fits.children
    rw [List.append_nil] at inside
    refine .bind inside ?_
    rintro body' _ ⟨rfl, bodyGrows⟩
    exact leaves.function inClass opened _ next _ body body' _ plain bodyGrows
  | inClass, opened, _, .classDef decorators position ident bases body, here, later, plain, fit => by
    have parts : Stmt.isPlain shape (.classDef decorators position ident bases []) = true ∧
        Stmt.arePlain shape body = true := by
      simpa [Stmt.isPlain] using plain
    obtain ⟨scope, rfl, fits⟩ := Scope.FitAll.single fit
    rw [Pass.stmt]
    refine .bind (descends.enterClass_gives opened _) ?_
    rintro _ _ ⟨rfl, rfl⟩
    have inside := body_becomes descends leaves true ⟨scope, opened.enclosing, later⟩ body
      scope.children [] parts.2 fits.children
    rw [List.append_nil] at inside
    refine .bind inside ?_
    rintro body' _ ⟨rfl, bodyGrows⟩
    exact leaves.classDef inClass opened ⟨scope, opened.enclosing, later⟩ _ body body' _ _ plain rfl
      fits bodyGrows
  | _, _, _, .expression _, _, _, plain, fit => simple_becomes descends rfl plain rfl fit
  | _, _, _, .assign [_] _, _, _, plain, fit => simple_becomes descends rfl plain rfl fit
  | _, _, _, .delete _ [_], _, _, plain, fit => simple_becomes descends rfl plain rfl fit
  | _, _, _, .branch .., _, _, plain, fit => simple_becomes descends rfl plain rfl fit
  | _, _, _, .returns .., _, _, plain, fit => simple_becomes descends rfl plain rfl fit
  | _, _, _, .raises _ _ none, _, _, plain, fit => simple_becomes descends rfl plain rfl fit
  | _, _, _, .declare .., _, _, plain, fit => simple_becomes descends rfl plain rfl fit
  | _, _, _, .importFrom .., _, _, plain, fit => simple_becomes descends rfl plain rfl fit

theorem body_becomes (descends : Descends pass)
    (leaves : Leaves pass shape shape' relation name) :
    ∀ (inClass : Bool) (opened : Opened) (body : List Stmt) (here later : List Scope),
      Stmt.arePlain shape body = true → Scope.FitAll name here (Stmt.outlinesOfBody body) →
      Descent.Gives (here ++ later) (Becomes shape' relation name inClass later body)
        (pass.body opened body)
  | _, _, [], here, later, _, fit => by
    cases here with
    | nil => exact .pure ⟨rfl, congruence.nil⟩
    | cons => obtain ⟨_, _, ⟨⟩, _⟩ := fit
  | inClass, opened, first :: rest, here, later, plain, fit => by
    have parts := Bool.and_eq_true_iff.mp plain
    obtain ⟨front, back, rfl, frontFit, backFit⟩ := Scope.FitAll.split fit
    rw [Pass.body, List.append_assoc]
    refine .bind (stmt_becomes descends leaves inClass opened _ first front _ parts.1 frontFit) ?_
    rintro stmts _ ⟨rfl, firstGrows⟩
    refine .bind (body_becomes descends leaves inClass opened rest back _ parts.2 backFit) ?_
    rintro others _ ⟨rfl, restGrows⟩
    exact .pure ⟨rfl, congruence.append firstGrows restGrows⟩

theorem handlers_become (descends : Descends pass)
    (leaves : Leaves pass shape shape' relation name) :
    ∀ (inClass : Bool) (opened : Opened) (handlers : List Handler) (here later : List Scope),
      Stmt.areHandlersPlain shape handlers = true →
      Scope.FitAll name here (Stmt.outlinesOfHandlers handlers) →
      Descent.Gives (here ++ later) (fun after ahead => ahead = later ∧
        HandlersLinked shape' (Grow relation name inClass false) handlers after)
        (pass.handlers opened handlers)
  | _, _, [], here, later, _, fit => by
    cases here with
    | nil => exact .pure ⟨rfl, congruence.handlersNil⟩
    | cons => obtain ⟨_, _, ⟨⟩, _⟩ := fit
  | inClass, opened, .mk position none none body :: rest, here, later, plain, fit => by
    have parts : Stmt.arePlain shape body = true ∧ Stmt.areHandlersPlain shape rest = true := by
      simpa [Stmt.areHandlersPlain] using plain
    obtain ⟨front, back, rfl, frontFit, backFit⟩ := Scope.FitAll.split fit
    rw [Pass.handlers, List.append_assoc, Expr.reviseOption, pure_bind]
    refine .bind (body_becomes descends leaves inClass opened body front _ parts.1 frontFit) ?_
    rintro body' _ ⟨rfl, bodyGrows⟩
    refine .bind (handlers_become descends leaves inClass opened rest back _ parts.2 backFit) ?_
    rintro others _ ⟨rfl, restGrow⟩
    exact .pure ⟨rfl, congruence.handlersCons bodyGrows restGrow⟩

end

end Definition
end Unsugar
