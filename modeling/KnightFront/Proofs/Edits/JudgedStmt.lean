import KnightFront.Proofs.Edits.Edited
import KnightFront.Proofs.Edits.Judged

namespace KnightFront

/-!
# Statements through two passes

A statement has the errors of its parts and those of what it requires of them,
each part in the state that the parts before it leave.  As with expressions,
the errors of both passes are counted together.
-/

open Analysis Resolution Typing

namespace Analysis

section Tallies

variable (kind : Finding → Bool) (place : NamePlace) (scopes : List Scope)

/-- The findings of a kind about a declaration. -/
def declTally (decl : VarDecl) : Nat :=
  (resolveDecl place scopes decl).tally kind +
    (checkDecl place.model (resolveDecl place scopes decl).value).tally kind

/-- The findings of a kind about a condition. -/
def conditionTally (condition : Expr) : Nat :=
  (resolveExpr place scopes condition).tally kind +
    (checkCondition place.model (resolveExpr place scopes condition).value).tally kind

/-- The findings of a kind about an assignment. -/
def assignmentTally (assignment : Assignment) : Nat :=
  (resolveAssignment place scopes assignment).tally kind +
    (checkAssignment place.model (resolveAssignment place scopes assignment).value).tally kind

/-- The place of a function's statements in the third pass. -/
def typingPlace (head : FunctionHead) : TypingPlace := ⟨place.model, head.name, head.returnTy⟩

variable (head : FunctionHead) (state : ScopeState)

/-- The findings of a kind about a return. -/
def returnTally (returned : Return) : Nat :=
  (resolveReturn place scopes returned).tally kind +
    (checkReturn (typingPlace place head) (resolveReturn place scopes returned).value).tally kind

/-- The findings of a kind about a statement. -/
def stmtTally (stmt : Stmt) : Nat :=
  (resolveStmt place state stmt).tally kind +
    (checkStmt (typingPlace place head) (resolveStmt place state stmt).value.1).tally kind

/-- The findings of a kind about statements one after another. -/
def stmtsTally (stmts : List Stmt) : Nat :=
  (resolveStmts place state stmts).tally kind +
    (checkStmts (typingPlace place head) (resolveStmts place state stmts).value.1).tally kind

end Tallies

section Equations

variable {place : NamePlace} {scopes : List Scope} {head : FunctionHead} {state : ScopeState}
  (kind : Finding → Bool)

theorem errors_reportIf {condition : Bool} {position : Position} {problem : Problem}
    (grave : problem.isError = true) :
    (Reported.reportIf condition position problem).tally Finding.isError =
      if condition then 1 else 0 := by
  rw [Reported.tally_reportIf, Finding.isError_mk, grave, Bool.and_true]

theorem errors_reportIf_not {condition : Bool} {position : Position} {problem : Problem}
    (grave : problem.isError = true) :
    (Reported.reportIf (!condition) position problem).tally Finding.isError =
      if condition then 0 else 1 := by
  rw [errors_reportIf grave]
  cases condition <;> rfl

@[simp]
theorem errors_requireAssignable {model : SymbolModel} {name : String} {expected actual : Ty}
    {position : Position} :
    (requireAssignable model name expected actual position).tally Finding.isError =
      if model.isAssignable expected actual then 0 else 1 :=
  errors_reportIf_not rfl

theorem declTally_of_no_init {decl : VarDecl} (noInit : decl.init = none) :
    declTally kind place scopes decl =
      (checkTy place decl.ty decl.tySpan.start).tally kind +
        (Reported.reportIf (decide (decl.ty = .void)) decl.tySpan.start
          (.voidVariable decl.name)).tally kind := by
  simp [declTally, resolveDecl, checkDecl, resolveOptional, noInit]

theorem declTally_of_init {decl : VarDecl} {init : Expr} (isInit : decl.init = some init) :
    declTally kind place scopes decl =
      (checkTy place decl.ty decl.tySpan.start).tally kind +
        (Reported.reportIf (decide (decl.ty = .void)) decl.tySpan.start
          (.voidVariable decl.name)).tally kind +
        (judge place scopes init).tally kind +
          (requireAssignable place.model decl.name decl.ty (judge place scopes init).value
            (resolveExpr place scopes init).value.position).tally kind := by
  simp [declTally, resolveDecl, checkDecl, resolveOptional, isInit, judge]
  omega

theorem declErrors_of_init {decl : VarDecl} {init : Expr} (isInit : decl.init = some init) :
    declTally Finding.isError place scopes decl =
      (checkTy place decl.ty decl.tySpan.start).tally Finding.isError +
        (if decl.ty = .void then 1 else 0) + (judge place scopes init).tally Finding.isError +
          if place.model.isAssignable decl.ty (judge place scopes init).value then 0 else 1 := by
  have void : (Reported.reportIf (decide (decl.ty = .void)) decl.tySpan.start
      (.voidVariable decl.name)).tally Finding.isError = if decl.ty = .void then 1 else 0 :=
    (errors_reportIf rfl).trans (by simp only [decide_eq_true_eq])
  rw [← void, ← errors_requireAssignable]
  exact declTally_of_init Finding.isError isInit

theorem conditionTally_eq {condition : Expr} :
    conditionTally kind place scopes condition =
      (judge place scopes condition).tally kind +
        (Reported.reportIf (differs .bool (judge place scopes condition).value)
          (resolveExpr place scopes condition).value.position
          (.conditionNotBool (judge place scopes condition).value)).tally kind := by
  simp [conditionTally, checkCondition, judge]
  omega

theorem conditionErrors_eq {condition : Expr} :
    conditionTally Finding.isError place scopes condition =
      (judge place scopes condition).tally Finding.isError +
        if differs .bool (judge place scopes condition).value then 1 else 0 := by
  have differing : (Reported.reportIf (differs .bool (judge place scopes condition).value)
      (resolveExpr place scopes condition).value.position
      (.conditionNotBool (judge place scopes condition).value)).tally Finding.isError =
        if differs .bool (judge place scopes condition).value then 1 else 0 :=
    errors_reportIf rfl
  rw [← differing]
  exact conditionTally_eq Finding.isError

theorem assignmentTally_of_no_index {assignment : Assignment} (noIndex : assignment.index = none) :
    assignmentTally kind place scopes assignment =
      let target := (bindValue place scopes assignment.target).value
      (bindValue place scopes assignment.target).tally kind + (targetTy target).tally kind +
        (judge place scopes assignment.value).tally kind +
          (requireAssignable place.model target.text (targetTy target).value
            (judge place scopes assignment.value).value
            (resolveExpr place scopes assignment.value).value.position).tally kind := by
  simp [assignmentTally, resolveAssignment, checkAssignment, resolveOptional, noIndex, judge]
  omega

theorem assignmentErrors_of_no_index {assignment : Assignment} (noIndex : assignment.index = none) :
    assignmentTally Finding.isError place scopes assignment =
      let target := (bindValue place scopes assignment.target).value
      (bindValue place scopes assignment.target).tally Finding.isError +
        (targetTy target).tally Finding.isError +
        (judge place scopes assignment.value).tally Finding.isError +
          if place.model.isAssignable (targetTy target).value
            (judge place scopes assignment.value).value then 0 else 1 := by
  dsimp only
  rw [← errors_requireAssignable]
  exact assignmentTally_of_no_index Finding.isError noIndex

theorem assignmentTally_of_index {assignment : Assignment} {index : Expr}
    (isIndex : assignment.index = some index) :
    assignmentTally kind place scopes assignment =
      let target := (bindValue place scopes assignment.target).value
      let element := elementTy (targetTy target).value target.span.start
      (bindValue place scopes assignment.target).tally kind + (targetTy target).tally kind +
        (judge place scopes index).tally kind +
          (Reported.reportIf (differs .int (judge place scopes index).value)
            (resolveExpr place scopes index).value.position
            (.indexNotInt (judge place scopes index).value)).tally kind +
            (judge place scopes assignment.value).tally kind + element.tally kind +
              (requireAssignable place.model target.text element.value
                (judge place scopes assignment.value).value
                (resolveExpr place scopes assignment.value).value.position).tally kind := by
  simp [assignmentTally, resolveAssignment, checkAssignment, checkIndex, resolveOptional, isIndex,
    judge]
  omega

theorem assignmentErrors_of_index {assignment : Assignment} {index : Expr}
    (isIndex : assignment.index = some index) :
    assignmentTally Finding.isError place scopes assignment =
      let target := (bindValue place scopes assignment.target).value
      let element := elementTy (targetTy target).value target.span.start
      (bindValue place scopes assignment.target).tally Finding.isError +
        (targetTy target).tally Finding.isError + (judge place scopes index).tally Finding.isError +
          (if differs .int (judge place scopes index).value then 1 else 0) +
            (judge place scopes assignment.value).tally Finding.isError +
              element.tally Finding.isError +
              if place.model.isAssignable element.value
                (judge place scopes assignment.value).value then 0 else 1 := by
  have differing : (Reported.reportIf (differs .int (judge place scopes index).value)
      (resolveExpr place scopes index).value.position
      (.indexNotInt (judge place scopes index).value)).tally Finding.isError =
        if differs .int (judge place scopes index).value then 1 else 0 :=
    errors_reportIf rfl
  dsimp only
  rw [← differing, ← errors_requireAssignable]
  exact assignmentTally_of_index Finding.isError isIndex

theorem returnTally_of_no_value {returned : Return} (noValue : returned.value = none) :
    returnTally kind place scopes head returned =
      (Reported.reportIf (differs .void head.returnTy) returned.span.start
        (.missingReturnValue head.name head.returnTy)).tally kind := by
  simp [returnTally, resolveReturn, checkReturn, resolveOptional, noValue, typingPlace]

theorem returnTally_of_value {returned : Return} {value : Expr}
    (isValue : returned.value = some value) :
    returnTally kind place scopes head returned =
      (judge place scopes value).tally kind +
        (if head.returnTy = .void then
          Reported.report returned.span.start (.returnFromVoid head.name)
        else
          Reported.reportIf
            (!place.model.isAssignable head.returnTy (judge place scopes value).value)
            returned.span.start (.mismatchedReturn head.name head.returnTy
              (judge place scopes value).value)).tally kind := by
  rw [tally_judge, value_judge]
  simp only [returnTally, resolveReturn, checkReturn, resolveOptional, isValue, typingPlace,
    Reported.tally_bind, Reported.value_bind, Reported.tally_pure, Reported.value_pure]
  split <;> simp only [Reported.tally_bind, Reported.tally_pure] <;> omega

theorem returnErrors_of_value {returned : Return} {value : Expr}
    (isValue : returned.value = some value) :
    returnTally Finding.isError place scopes head returned =
      (judge place scopes value).tally Finding.isError +
        if head.returnTy = .void then 1
        else if place.model.isAssignable head.returnTy (judge place scopes value).value then 0
        else 1 := by
  refine (returnTally_of_value Finding.isError isValue).trans ?_
  split
  · rfl
  · exact congrArg (Nat.add _) (errors_reportIf_not rfl)

section Stmts

section Tallies

attribute [local simp] stmtTally resolveStmt checkStmt typingPlace

theorem stmtTally_varDecl {info : StmtInfo} {decl : VarDecl} :
    stmtTally kind place head state (.varDecl info decl) =
      declTally kind place state.scopes decl := by
  simp [declTally, resolveLocal]

theorem stmtTally_assign {assignment : Assignment} :
    stmtTally kind place head state (.assign assignment) =
      assignmentTally kind place state.scopes assignment := by
  simp [assignmentTally]

theorem stmtTally_fieldAssign {info : StmtInfo} {receiver value : Expr} {used : NameUse} :
    stmtTally kind place head state (.fieldAssign info receiver used value) =
      let bound := (bindField place (memberTy? place state.scopes receiver) used).value
      (judge place state.scopes receiver).tally kind +
        (bindField place (memberTy? place state.scopes receiver) used).tally kind +
          (targetTy bound).tally kind + (judge place state.scopes value).tally kind +
            (requireAssignable place.model bound.text (targetTy bound).value
              (judge place state.scopes value).value
              (resolveExpr place state.scopes value).value.position).tally kind := by
  simp [judge, memberTy?]
  omega

theorem stmtTally_call {info : StmtInfo} {expr : Expr} :
    stmtTally kind place head state (.call info expr) =
      (judge place state.scopes expr).tally kind := by
  simp [judge]

theorem stmtTally_ifThen {info : StmtInfo} {condition : Expr} {body : Stmt} :
    stmtTally kind place head state (.ifThen info condition body) =
      conditionTally kind place state.scopes condition + stmtTally kind place head state body := by
  simp [conditionTally]
  omega

theorem stmtTally_ifElse {info : StmtInfo} {condition : Expr} {body alternative : Stmt} :
    stmtTally kind place head state (.ifElse info condition body alternative) =
      conditionTally kind place state.scopes condition + stmtTally kind place head state body +
        stmtTally kind place head (resolveStmt place state body).value.2 alternative := by
  simp [conditionTally]
  omega

theorem stmtTally_whileLoop {info : StmtInfo} {condition : Expr} {body : Stmt} :
    stmtTally kind place head state (.whileLoop info condition body) =
      conditionTally kind place state.scopes condition + stmtTally kind place head state body := by
  simp [conditionTally]
  omega

theorem stmtTally_forLoop {info : StmtInfo} {init : VarDecl} {condition : Expr}
    {update : Assignment} {body : Stmt} {scope : Option ScopeId} :
    stmtTally kind place head state (.forLoop info init condition update body scope) =
      let inner := innerPlace place state
      let behind := (resolveLocal inner (innerState place state) init).value.2
      declTally kind inner (innerState place state).scopes init +
        conditionTally kind inner behind.scopes condition +
          assignmentTally kind inner behind.scopes update +
            stmtTally kind inner head behind body := by
  simp [declTally, conditionTally, assignmentTally, resolveLocal, innerPlace, innerState]
  omega

theorem stmtTally_ret {info : StmtInfo} {returned : Return} :
    stmtTally kind place head state (.ret info returned) =
      returnTally kind place state.scopes head returned := by
  simp [returnTally]

theorem stmtTally_block {info : StmtInfo} {stmts : List Stmt} {scope : Option ScopeId} :
    stmtTally kind place head state (.block info stmts scope) =
      stmtsTally kind (innerPlace place state) head (innerState place state) stmts := by
  simp [stmtsTally, innerPlace, innerState]

end Tallies

theorem stmtErrors_fieldAssign {info : StmtInfo} {receiver value : Expr} {used : NameUse} :
    stmtTally Finding.isError place head state (.fieldAssign info receiver used value) =
      let bound := (bindField place (memberTy? place state.scopes receiver) used).value
      (judge place state.scopes receiver).tally Finding.isError +
        (bindField place (memberTy? place state.scopes receiver) used).tally Finding.isError +
          (targetTy bound).tally Finding.isError +
            (judge place state.scopes value).tally Finding.isError +
            if place.model.isAssignable (targetTy bound).value
              (judge place state.scopes value).value then 0 else 1 := by
  dsimp only
  rw [← errors_requireAssignable]
  exact stmtTally_fieldAssign Finding.isError

end Stmts

/-- Statements behind another one are met in the state that it leaves. -/
theorem stmtsTally_cons {first : Stmt} {rest : List Stmt} :
    stmtsTally kind place head state (first :: rest) =
      stmtTally kind place head state first +
        stmtsTally kind place head (resolveStmt place state first).value.2 rest := by
  simp [stmtsTally, stmtTally, resolveStmts, checkStmts]
  omega

theorem resolveStmts_eq_handOn {stmts : List Stmt} :
    resolveStmts place state stmts = Reported.handOn (resolveStmt place) state stmts := by
  induction stmts generalizing state with
  | nil => rfl
  | cons first rest inductionHypothesis =>
      simp only [resolveStmts, Reported.handOn, inductionHypothesis]

theorem checkStmts_eq_mapM {typing : TypingPlace} {stmts : List Stmt} :
    checkStmts typing stmts = stmts.mapM (checkStmt typing) := by
  induction stmts with
  | nil => rfl
  | cons first rest inductionHypothesis =>
      rw [checkStmts, inductionHypothesis, List.mapM_cons]

/-- Statements in front of another one leave the state in which it is
resolved. -/
theorem stmtsTally_append_cons {front back : List Stmt} {stmt : Stmt} :
    stmtsTally kind place head state (front ++ stmt :: back) =
      let before := (resolveStmts place state front).value.2
      stmtsTally kind place head state front + stmtTally kind place head before stmt +
        stmtsTally kind place head (resolveStmt place before stmt).value.2 back := by
  simp only [stmtsTally, resolveStmts_eq_handOn, checkStmts_eq_mapM]
  exact Reported.handOnTally_append_cons

theorem state_resolveStmts_append_cons_congr {front back : List Stmt} {stmt stmt' : Stmt}
    (same : (resolveStmt place (resolveStmts place state front).value.2 stmt').value.2 =
      (resolveStmt place (resolveStmts place state front).value.2 stmt).value.2) :
    (resolveStmts place state (front ++ stmt' :: back)).value.2 =
      (resolveStmts place state (front ++ stmt :: back)).value.2 := by
  simp only [resolveStmts_eq_handOn] at same ⊢
  exact Reported.state_handOn_append_cons_congr same

end Equations

end Analysis

end KnightFront
