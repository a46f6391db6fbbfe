import KnightFront.Analysis.NameResolver
import KnightFront.Analysis.TypeChecker
import KnightFront.Proofs.Analysis.Verdict

namespace KnightFront

/-!
# Passes as objects

An object that runs a pass takes one program after the other.  If it does not matter
to a program in which of some states the object is, and each program leaves the object
in one of them, then each program gets what it would get alone.  So it is with the
object that resolves names and the one that finds types: on each program they do what
the pass does.
-/

@[simp]
theorem DiagnosticLog.record_nil (log : DiagnosticLog) : log.record [] = log := by
  simp [record, extend]

/-- A log that takes everything has an error if one was found. -/
theorem PassState.afterLog_record (findings : List Finding) :
    afterLog (DiagnosticLog.empty.record findings) = finished findings := by
  have errors : (DiagnosticLog.empty.record findings).hasErrors = findings.any Finding.isError :=
    DiagnosticLog.hasErrors_record_empty true findings
  rw [afterLog, finished, errors]

/-- What is handed out when these are the tree and the findings. -/
def Reported.outcome (done : Reported Program) : PassOutcome :=
  (done.value, DiagnosticLog.empty.record done.findings, .finished done.findings)

/-- An object gives each program of a list what it gives it alone. -/
theorem mapM_of_atRest {σ α β : Type} {visit : α → StateM σ β} {outcome : α → β}
    {AtRest : σ → Prop}
    (each : ∀ subject state, AtRest state →
      (visit subject state).1 = outcome subject ∧ AtRest (visit subject state).2)
    (subjects : List α) {state : σ} (atRest : AtRest state) :
    (subjects.mapM visit state).1 = subjects.map outcome := by
  induction subjects generalizing state with
  | nil => rfl
  | cons first rest inductionHypothesis =>
      have both := each first state atRest
      calc
        ((first :: rest).mapM visit state).1 =
            (visit first state).1 :: (rest.mapM visit (visit first state).2).1 := by
          rw [List.mapM_cons]
          rfl
        _ = (first :: rest).map outcome := by
          rw [both.1, inductionHypothesis both.2, List.map_cons]

namespace NameResolver

/-- Run a pass that goes through statements from where the object stands. -/
def running {α : Type} (pass : NamePlace → ScopeState → Reported (α × ScopeState)) :
    StateM NameResolver α :=
  fun resolver =>
    let done := pass resolver.place resolver.scopeState
    (done.value.1, resolver.after done.value.2 done.findings)

section Running

variable {α β : Type}

theorem pure_eq (result : α) :
    (pure result : StateM NameResolver α) = running fun _ state => pure (result, state) := by
  funext resolver
  have same : resolver.after resolver.scopeState [] = resolver := by
    simp [after, scopeState]
  exact congrArg (Prod.mk result) same.symm

theorem running_bind (first : NamePlace → ScopeState → Reported (α × ScopeState))
    (next : α → NamePlace → ScopeState → Reported (β × ScopeState)) :
    (running first >>= fun result => running (next result)) =
      running fun place state =>
        first place state >>= fun done => next done.1 place done.2 := by
  funext resolver
  let done := first resolver.place resolver.scopeState
  let rest := next done.value.1 resolver.place done.value.2
  have joined : (resolver.after done.value.2 done.findings).after rest.value.2 rest.findings =
      resolver.after rest.value.2 (done.findings ++ rest.findings) := by
    simp [after, DiagnosticLog.record_append]
  exact congrArg (Prod.mk rest.value.1) joined

theorem reading_eq (pass : NamePlace → List Scope → Reported α) :
    reading pass = running fun place state => do
      let result ← pass place state.scopes
      return (result, state) := by
  funext resolver
  simp only [reading, running, scopeState, Reported.value_bind, Reported.value_pure,
    Reported.findings_bind, Reported.findings_pure, List.append_nil]

theorem declareLocal_eq (decl : VarDecl) :
    declareLocal decl = running fun place state =>
      pure ((), Resolution.declareLocal place state decl) := rfl

theorem inScope_eq (kind : ScopeKind)
    (inside : ScopeId → NamePlace → ScopeState → Reported (α × ScopeState)) :
    inScope kind (fun scope => running (inside scope)) = running fun place state =>
      let (scope, state) := state.openScope place.scope kind
      inside scope { place with scope := some scope } state := by
  funext resolver
  have innermost : (resolver.path ++ [resolver.scopes.length]).getLast? =
      some resolver.scopes.length := List.getLast?_concat
  have closed : (resolver.path ++ [resolver.scopes.length]).dropLast = resolver.path :=
    List.dropLast_concat
  let opened : NameResolver := { resolver with
    scopes := resolver.scopes ++ [.opened resolver.path.getLast? kind]
    path := resolver.path ++ [resolver.scopes.length] }
  have entered : opened.place = { resolver.place with scope := some resolver.scopes.length } := by
    simp [opened, place, innermost]
  let done := inside resolver.scopes.length opened.place opened.scopeState
  have left : ({ opened.after done.value.2 done.findings with
      path := (opened.after done.value.2 done.findings).path.dropLast } : NameResolver) =
      resolver.after done.value.2 done.findings := by
    simp [opened, after, closed]
  calc inScope kind (fun scope => running (inside scope)) resolver
      = (done.value.1, { opened.after done.value.2 done.findings with
          path := (opened.after done.value.2 done.findings).path.dropLast }) := rfl
    _ = (done.value.1, resolver.after done.value.2 done.findings) := by rw [left]
    _ = _ := by
      simp only [done, entered]
      rfl

end Running

theorem resolveLocal_eq (decl : VarDecl) :
    resolveLocal decl = running fun place state => Resolution.resolveLocal place state decl := by
  simp only [resolveLocal, reading_eq, declareLocal_eq, pure_eq, running_bind, bind_assoc, pure_bind,
    Resolution.resolveLocal]

mutual

theorem resolveStmt_eq : ∀ (stmt : Stmt),
    resolveStmt stmt = running fun place state => Resolution.resolveStmt place state stmt
  | .varDecl _ decl => by
      simp only [resolveStmt, Resolution.resolveStmt, resolveLocal_eq, pure_eq, running_bind]
  | .assign assignment => by
      simp only [resolveStmt, Resolution.resolveStmt, reading_eq, pure_eq, running_bind, bind_assoc,
        pure_bind]
  | .fieldAssign _ receiver used value => by
      simp only [resolveStmt, Resolution.resolveStmt, reading_eq, pure_eq, running_bind, bind_assoc,
        pure_bind]
  | .call _ expr => by
      simp only [resolveStmt, Resolution.resolveStmt, reading_eq, pure_eq, running_bind, bind_assoc,
        pure_bind]
  | .ifThen _ condition body | .whileLoop _ condition body => by
      simp only [resolveStmt, Resolution.resolveStmt, reading_eq, pure_eq, running_bind, bind_assoc,
        pure_bind, resolveStmt_eq body]
  | .ifElse _ condition body alternative => by
      simp only [resolveStmt, Resolution.resolveStmt, reading_eq, pure_eq, running_bind, bind_assoc,
        pure_bind, resolveStmt_eq body, resolveStmt_eq alternative]
  | .forLoop _ init condition update body _ => by
      simp only [resolveStmt, Resolution.resolveStmt, reading_eq, pure_eq, running_bind, bind_assoc,
        pure_bind, resolveLocal_eq, resolveStmt_eq body, inScope_eq]
  | .ret _ returned => by
      simp only [resolveStmt, Resolution.resolveStmt, reading_eq, pure_eq, running_bind, bind_assoc,
        pure_bind]
  | .block _ stmts _ => by
      simp only [resolveStmt, Resolution.resolveStmt, pure_eq, running_bind, resolveStmts_eq stmts,
        inScope_eq]

theorem resolveStmts_eq : ∀ (stmts : List Stmt),
    resolveStmts stmts = running fun place state => Resolution.resolveStmts place state stmts
  | [] => by
      simp only [resolveStmts, Resolution.resolveStmts, pure_eq]
  | first :: rest => by
      simp only [resolveStmts, Resolution.resolveStmts, pure_eq, running_bind, resolveStmt_eq first,
        resolveStmts_eq rest]

end

/-- The object stands outside functions. -/
structure Outside (resolver : NameResolver) : Prop where
  path : resolver.path = []
  functionScopes : resolver.functionScopes = none

/-- An action does what a pass does that hands on scopes, except that some slot is left
over. -/
def Does {α : Type} (action : StateM NameResolver α) (resolver : NameResolver)
    (pass : Reported (α × List Scope)) : Prop :=
  ∃ slot, action resolver = (pass.value.1, resolver.after ⟨pass.value.2, slot⟩ pass.findings)

section Rules

variable {α β : Type} {resolver : NameResolver}

theorem does_pure (result : α) : Does (pure result) resolver (pure (result, resolver.scopes)) := by
  refine ⟨resolver.nextSlot, ?_⟩
  rw [pure_eq]
  rfl

theorem Does.reading {pass : NamePlace → List Scope → Reported α}
    {next : α → StateM NameResolver β} {rest : α → Reported (β × List Scope)}
    (behind : Does (next (pass resolver.place resolver.scopes).value)
      (resolver.after resolver.scopeState (pass resolver.place resolver.scopes).findings)
      (rest (pass resolver.place resolver.scopes).value)) :
    Does (reading pass >>= next) resolver (pass resolver.place resolver.scopes >>= rest) := by
  rcases behind with ⟨slot, does⟩
  refine ⟨slot, ?_⟩
  let done := pass resolver.place resolver.scopes
  calc (NameResolver.reading pass >>= next) resolver
      = next done.value (resolver.after resolver.scopeState done.findings) := rfl
    _ = _ := by
      rw [does]
      simp [after, DiagnosticLog.record_append]

/-- What is done one after the other. -/
theorem Does.bind {first : StateM NameResolver α} {next : α → StateM NameResolver β}
    {pass : Reported (α × List Scope)} {rest : α × List Scope → Reported (β × List Scope)}
    (before : Does first resolver pass)
    (behind : ∀ slot, Does (next pass.value.1)
      (resolver.after ⟨pass.value.2, slot⟩ pass.findings) (rest pass.value)) :
    Does (first >>= next) resolver (pass >>= rest) := by
  rcases before with ⟨slot, does⟩
  rcases behind slot with ⟨left, doesNext⟩
  refine ⟨left, ?_⟩
  calc
    (first >>= next) resolver = next (first resolver).1 (first resolver).2 := rfl
    _ = _ := by
      rw [does, doesNext]
      simp [after, DiagnosticLog.record_append]

/-- Inside a class the same is done as outside, but with its members in reach. -/
theorem Does.inClass {name : String} {inside : StateM NameResolver α}
    {pass : Reported (α × List Scope)} (noClass : resolver.className = none)
    (does : Does inside { resolver with className := some name } pass) :
    Does (inClass name inside) resolver pass := by
  rcases does with ⟨slot, does⟩
  let within : NameResolver := { resolver with className := some name }
  refine ⟨slot, ?_⟩
  calc NameResolver.inClass name inside resolver
      = ((inside within).1, { (inside within).2 with className := none }) := rfl
    _ = _ := by
      rw [does, after, after, noClass]

theorem Outside.after (outside : resolver.Outside) (state : ScopeState) (findings : List Finding) :
    (resolver.after state findings).Outside :=
  ⟨outside.path, outside.functionScopes⟩

end Rules

theorem does_resolveFunction {resolver : NameResolver} (outside : resolver.Outside)
    (decl : FunctionDecl) :
    Does (resolveFunction decl) resolver
      (Resolution.resolveFunction resolver.place resolver.scopes decl) := by
  rcases resolver with ⟨model, log, scopes, path, className, functionScopes, nextSlot, state⟩
  rcases outside with ⟨rfl : path = [], rfl : functionScopes = none⟩
  let place : NamePlace := ⟨model, className, none, none⟩
  let entry := Resolution.enterFunction scopes decl.head.params
  let inner := Resolution.bodyPlace place entry
  let body := Resolution.resolveStmts inner entry.state decl.body
  let closing := decl.closing.mapM (Resolution.resolveReturn inner body.value.2.scopes)
  -- The path and the pair of scopes are put back; only the slot of the last local stays.
  refine ⟨body.value.2.nextSlot, ?_⟩
  have logged : (((log.record (Resolution.checkHead place decl.head).findings).record
      body.findings).record closing.findings) =
      log.record (Resolution.resolveFunction place scopes decl).findings := by
    simp only [Resolution.resolveFunction, Reported.findings_bind, Reported.findings_pure,
      List.append_nil, DiagnosticLog.record_append, body, closing, inner, entry]
  simp only [resolveFunction, resolveStmts_eq]
  exact congrArg (fun log => (_, (⟨model, log, body.value.2.scopes, [], className, none,
    body.value.2.nextSlot, state⟩ : NameResolver))) logged

theorem does_resolveMethods {resolver : NameResolver} (outside : resolver.Outside)
    (decls : List FunctionDecl) :
    Does (decls.mapM resolveFunction) resolver
      (Resolution.resolveMethods resolver.place resolver.scopes decls) := by
  induction decls generalizing resolver with
  | nil => exact does_pure []
  | cons first rest inductionHypothesis =>
      rw [List.mapM_cons]
      exact (does_resolveFunction outside first).bind fun _ =>
        (inductionHypothesis (outside.after _ _)).bind fun _ => does_pure _

/-- The object stands outside functions and classes. -/
structure AtTop (resolver : NameResolver) : Prop extends Outside resolver where
  className : resolver.className = none

theorem AtTop.after {resolver : NameResolver} (atTop : resolver.AtTop) (state : ScopeState)
    (findings : List Finding) : (resolver.after state findings).AtTop :=
  ⟨atTop.toOutside.after state findings, atTop.className⟩

theorem AtTop.place {resolver : NameResolver} (atTop : resolver.AtTop) :
    resolver.place = { model := resolver.model } := by
  simp [NameResolver.place, atTop.path, atTop.functionScopes, atTop.className]

theorem does_resolveClass {resolver : NameResolver} (atTop : resolver.AtTop) (decl : ClassDecl) :
    Does (resolveClass decl) resolver
      (Resolution.resolveClass resolver.model resolver.scopes decl) := by
  let inside : NameResolver := { resolver with className := some decl.name }
  have outside : inside.Outside := ⟨atTop.path, atTop.functionScopes⟩
  have place : inside.place = { model := resolver.model, className := some decl.name } := by
    simp [NameResolver.place, inside, atTop.path, atTop.functionScopes]
  refine Does.inClass atTop.className ?_
  rw [Resolution.resolveClass, ← place]
  refine .reading <| .reading <| .reading ?_
  exact (does_resolveMethods (((outside.after _ _).after _ _).after _ _) decl.methods).bind
    fun _ => does_pure _

theorem does_resolveItem {resolver : NameResolver} (atTop : resolver.AtTop) (item : Item) :
    Does (resolveItem item) resolver
      (Resolution.resolveItem resolver.model resolver.scopes item) := by
  cases item with
  | inclusion decl => exact does_pure _
  | enumeration decl => exact does_pure _
  | interface decl =>
      rw [Resolution.resolveItem, ← atTop.place]
      exact .reading (does_pure _)
  | classDecl decl => exact (does_resolveClass atTop decl).bind fun _ => does_pure _
  | function decl =>
      have does := does_resolveFunction atTop.toOutside decl
      rw [atTop.place] at does
      exact does.bind fun _ => does_pure _
  | globalVariable decl =>
      rw [Resolution.resolveItem, ← atTop.place]
      exact .reading (does_pure _)

theorem does_resolveItems {resolver : NameResolver} (atTop : resolver.AtTop) (items : List Item) :
    Does (items.mapM resolveItem) resolver
      (Resolution.resolveItems resolver.model resolver.scopes items) := by
  induction items generalizing resolver with
  | nil => exact does_pure []
  | cons first rest inductionHypothesis =>
      rw [List.mapM_cons]
      exact (does_resolveItem atTop first).bind fun _ =>
        (inductionHypothesis (atTop.after _ _)).bind fun _ => does_pure _

/-- Between two programs only the slot, the scopes and the state are left over. -/
structure AtRest (model : SymbolModel) (resolver : NameResolver) : Prop extends AtTop resolver where
  model_eq : resolver.model = model
  log : resolver.log = .empty

/-- A new object is at rest. -/
theorem atRest_new (model : SymbolModel) : AtRest model { model } :=
  ⟨⟨⟨rfl, rfl⟩, rfl⟩, rfl, rfl⟩

/-- An object at rest does with a program what the pass does, and is at rest again. -/
theorem resolveProgram_of_atRest {model : SymbolModel} (program : Program)
    (resolver : NameResolver) (atRest : resolver.AtRest model) :
    (resolveProgram program resolver).1 = (program.resolve model).outcome ∧
      (resolveProgram program resolver).2.AtRest model := by
  let started : NameResolver := { resolver with state := .traversing, scopes := program.scopes }
  have atTop : started.AtTop := ⟨⟨atRest.path, atRest.functionScopes⟩, atRest.className⟩
  rcases does_resolveItems atTop program.items with ⟨slot, does⟩
  let done := Resolution.resolveItems resolver.model program.scopes program.items
  let left : NameResolver := started.after ⟨done.value.2, slot⟩ done.findings
  have logged : left.log = DiagnosticLog.empty.record (program.resolve model).findings := by
    simp only [Program.resolve, Reported.findings_bind, Reported.findings_pure, List.append_nil,
      ← atRest.model_eq, ← atRest.log]
    rfl
  have ran : resolveProgram program resolver = handOut program done.value.1 left := by
    calc
      resolveProgram program resolver =
          handOut program (program.items.mapM resolveItem started).1
            (program.items.mapM resolveItem started).2 := rfl
      _ = handOut program done.value.1 left := by rw [does]
  rw [ran]
  refine ⟨?_, ⟨⟨atRest.path, atRest.functionScopes⟩, atRest.className⟩, atRest.model_eq, rfl⟩
  calc
    (handOut program done.value.1 left).1 =
        ({ program with items := done.value.1, scopes := done.value.2 }, left.log,
          .afterLog left.log) := rfl
    _ = (program.resolve model).outcome := by
      rw [Reported.outcome, logged, PassState.afterLog_record, ← atRest.model_eq]
      rfl

end NameResolver

/-! ## Finding types -/

namespace TypeChecker

open Typing (TypingPlace)

section Reading

variable {α β : Type}

theorem pure_eq (result : α) :
    (pure result : StateM TypeChecker α) = reading fun _ => pure result := by
  funext checker
  have same : checker.logging [] = checker := by simp [logging]
  exact congrArg (Prod.mk result) same.symm

theorem reading_bind (first : TypingPlace → Reported α) (next : α → TypingPlace → Reported β) :
    (reading first >>= fun result => reading (next result)) =
      reading fun place => first place >>= fun result => next result place := by
  funext checker
  let done := first checker.place
  let rest := next done.value checker.place
  have joined : (checker.logging done.findings).logging rest.findings =
      checker.logging (done.findings ++ rest.findings) := by
    simp [logging, DiagnosticLog.record_append]
  exact congrArg (Prod.mk rest.value) joined

end Reading

mutual

theorem checkStmt_eq : ∀ (stmt : Stmt),
    checkStmt stmt = reading fun place => Typing.checkStmt place stmt
  | .varDecl _ decl => by
      simp only [checkStmt, Typing.checkStmt, checkDecl, pure_eq, reading_bind]
  | .assign assignment => by
      simp only [checkStmt, Typing.checkStmt, checkAssignment, pure_eq, reading_bind]
  | .fieldAssign _ receiver used value => by
      simp only [checkStmt, Typing.checkStmt, checkExpr, pure_eq, reading_bind, bind_assoc,
        pure_bind]
  | .call _ expr => by
      simp only [checkStmt, Typing.checkStmt, checkExpr, pure_eq, reading_bind, bind_assoc,
        pure_bind]
  | .ifThen _ condition body | .whileLoop _ condition body => by
      simp only [checkStmt, Typing.checkStmt, checkCondition, pure_eq, reading_bind,
        checkStmt_eq body]
  | .ifElse _ condition body alternative => by
      simp only [checkStmt, Typing.checkStmt, checkCondition, pure_eq, reading_bind,
        checkStmt_eq body, checkStmt_eq alternative]
  | .forLoop _ init condition update body _ => by
      simp only [checkStmt, Typing.checkStmt, checkDecl, checkCondition, checkAssignment, pure_eq,
        reading_bind, checkStmt_eq body]
  | .ret _ returned => by
      simp only [checkStmt, Typing.checkStmt, checkReturn, pure_eq, reading_bind]
  | .block _ stmts _ => by
      simp only [checkStmt, Typing.checkStmt, pure_eq, reading_bind, checkStmts_eq stmts]

theorem checkStmts_eq : ∀ (stmts : List Stmt),
    checkStmts stmts = reading fun place => Typing.checkStmts place stmts
  | [] => by simp only [checkStmts, Typing.checkStmts, pure_eq]
  | first :: rest => by
      simp only [checkStmts, Typing.checkStmts, pure_eq, reading_bind, checkStmt_eq first,
        checkStmts_eq rest]

end

/-- An action does what a pass does, except that the fields of some function are left
over. -/
def Does {α : Type} (action : StateM TypeChecker α) (checker : TypeChecker)
    (pass : Reported α) : Prop :=
  (action checker).1 = pass.value ∧ (action checker).2.model = checker.model ∧
    (action checker).2.log = checker.log.record pass.findings

section Rules

variable {α β : Type} {checker : TypeChecker}

theorem does_pure (result : α) : Does (pure result) checker (pure result) :=
  ⟨rfl, rfl, (DiagnosticLog.record_nil checker.log).symm⟩

theorem does_reading (pass : TypingPlace → Reported α) :
    Does (reading pass) checker (pass checker.place) := ⟨rfl, rfl, rfl⟩

/-- What is done one after the other. -/
theorem Does.bind {first : StateM TypeChecker α} {next : α → StateM TypeChecker β}
    {pass : Reported α} {rest : α → Reported β} (before : Does first checker pass)
    (behind : Does (next pass.value) (first checker).2 (rest pass.value)) :
    Does (first >>= next) checker (pass >>= rest) := by
  rcases before with ⟨value, model, log⟩
  have ran : (first >>= next) checker = next pass.value (first checker).2 := by
    rw [← value]
    rfl
  rcases behind with ⟨valueNext, modelNext, logNext⟩
  refine ⟨?_, ?_, ?_⟩
  · rw [ran, valueNext, Reported.value_bind]
  · rw [ran, modelNext, model]
  · rw [ran, logNext, log, Reported.findings_bind, DiagnosticLog.record_append]

/-- What is done inside a function does not depend on the function before. -/
theorem Does.inFunction {head : FunctionHead} {inside : StateM TypeChecker α} {pass : Reported α}
    (does : Does inside
      { checker with functionName := head.name, returnTy := head.returnTy } pass) :
    Does (inFunction head inside) checker pass := does

/-- What is done with each element of a list, as long as the model stays. -/
theorem Does.mapM {action : α → StateM TypeChecker β} {pass : α → Reported β}
    {model : SymbolModel}
    (each : ∀ subject checker, checker.model = model → Does (action subject) checker (pass subject))
    (subjects : List α) (same : checker.model = model) :
    Does (subjects.mapM action) checker (subjects.mapM pass) := by
  induction subjects generalizing checker with
  | nil => exact does_pure []
  | cons first rest inductionHypothesis =>
      rw [List.mapM_cons, List.mapM_cons]
      have before := each first checker same
      exact before.bind <| (inductionHypothesis (before.2.1.trans same)).bind <| does_pure _

end Rules

variable {model : SymbolModel} {checker : TypeChecker}

theorem does_checkDecl (decl : VarDecl) (checker : TypeChecker) (same : checker.model = model) :
    Does (checkDecl decl) checker (Typing.checkDecl model decl) := by
  rw [← same]
  exact does_reading _

theorem does_checkFunction (decl : FunctionDecl) (checker : TypeChecker)
    (same : checker.model = model) :
    Does (checkFunction decl) checker (Typing.checkFunction model decl) := by
  subst same
  rw [checkFunction, checkStmts_eq]
  refine Does.inFunction ?_
  cases closes : decl.closing with
  | none =>
      rw [Typing.checkFunction, closes]
      exact (does_reading _).bind <| (does_reading _).bind <| does_pure _
  | some returned =>
      rw [Typing.checkFunction, closes]
      exact (does_reading _).bind <| (does_reading _).bind <| does_pure _

theorem does_checkClass (decl : ClassDecl) (checker : TypeChecker) (same : checker.model = model) :
    Does (checkClass decl) checker (Typing.checkClass model decl) := by
  have fields := Does.mapM does_checkDecl decl.fields same
  have methods := Does.mapM does_checkFunction decl.methods (fields.2.1.trans same)
  have model_eq := methods.2.1.trans (fields.2.1.trans same)
  refine fields.bind <| methods.bind ?_
  rw [← model_eq]
  exact (does_reading _).bind <| does_pure _

theorem does_checkItem (item : Item) (checker : TypeChecker) (same : checker.model = model) :
    Does (checkItem item) checker (Typing.checkItem model item) := by
  cases item with
  | inclusion | enumeration | interface => exact does_pure _
  | classDecl decl => exact (does_checkClass decl checker same).bind <| does_pure _
  | function decl => exact (does_checkFunction decl checker same).bind <| does_pure _
  | globalVariable decl => exact (does_checkDecl decl checker same).bind <| does_pure _

/-- Between two programs the fields of some function and the state are left over. -/
structure AtRest (model : SymbolModel) (checker : TypeChecker) : Prop where
  model_eq : checker.model = model
  log : checker.log = .empty

/-- A new object is at rest. -/
theorem atRest_new (model : SymbolModel) : AtRest model { model } := ⟨rfl, rfl⟩

/-- An object at rest does with a program what the pass does, and is at rest again. -/
theorem checkProgram_of_atRest (program : Program) (checker : TypeChecker)
    (atRest : checker.AtRest model) :
    (checkProgram program checker).1 = (program.check model).outcome ∧
      (checkProgram program checker).2.AtRest model := by
  let started : TypeChecker := { checker with state := .traversing }
  let ended := program.items.mapM checkItem started
  have each : Does (program.items.mapM checkItem) started
      (program.items.mapM (Typing.checkItem model)) :=
    Does.mapM does_checkItem program.items atRest.model_eq
  rcases each with ⟨items, model_eq, log⟩
  have logged : ended.2.log = DiagnosticLog.empty.record (program.check model).findings := by
    have found : (program.check model).findings =
        (program.items.mapM (Typing.checkItem model)).findings := by
      rw [Program.check, Reported.findings_bind, Reported.findings_pure, List.append_nil]
    calc
      ended.2.log = checker.log.record (program.items.mapM (Typing.checkItem model)).findings := log
      _ = DiagnosticLog.empty.record (program.check model).findings := by
        rw [atRest.log, found]
  have ran : checkProgram program checker = handOut program ended.1 ended.2 := rfl
  rw [ran]
  refine ⟨?_, model_eq.trans atRest.model_eq, rfl⟩
  calc
    (handOut program ended.1 ended.2).1 =
        ({ program with items := ended.1 }, ended.2.log, .afterLog ended.2.log) := rfl
    _ = (program.check model).outcome := by
      rw [Reported.outcome, logged, PassState.afterLog_record, items]
      rfl

end TypeChecker

end KnightFront
