import KnightFront.Analysis.Compilation

namespace KnightFront

/-!
# An object that finds types

The object that finds types keeps the name and the type of the function around the place
that it has come to, and the log.  The fields of a function stay when it is left, but
each function sets them before a return of its own is read, and nothing outside functions
reads them.
-/

/-- The fields of the object. -/
structure TypeChecker where
  model : SymbolModel
  log : DiagnosticLog := .empty
  functionName : String := ""
  returnTy : Ty := .void
  state : PassState := .notStarted

namespace TypeChecker

open Typing (TypingPlace)

/-- The place that the fields describe. -/
def place (checker : TypeChecker) : TypingPlace :=
  ⟨checker.model, checker.functionName, checker.returnTy⟩

/-- The object with more in its log. -/
def logging (checker : TypeChecker) (findings : List Finding) : TypeChecker :=
  { checker with log := checker.log.record findings }

/-- Read the fields and log what is found. -/
def reading {α : Type} (pass : TypingPlace → Reported α) : StateM TypeChecker α :=
  fun checker =>
    let done := pass checker.place
    (done.value, checker.logging done.findings)

/-- Check a declaration of a variable. -/
def checkDecl (decl : VarDecl) : StateM TypeChecker VarDecl :=
  reading fun place => Typing.checkDecl place.model decl

/-- Check an expression whose value nobody asks for. -/
def checkExpr (expr : Expr) : StateM TypeChecker Expr := do
  let (expr, _) ← reading fun place => Typing.checkExpr place.model expr
  return expr

/-- Check a condition. -/
def checkCondition (condition : Expr) : StateM TypeChecker Expr :=
  reading fun place => Typing.checkCondition place.model condition

/-- Check an assignment. -/
def checkAssignment (assignment : Assignment) : StateM TypeChecker Assignment :=
  reading fun place => Typing.checkAssignment place.model assignment

/-- Check a return against the function in the fields. -/
def checkReturn (returned : Return) : StateM TypeChecker Return :=
  reading fun place => Typing.checkReturn place returned

mutual

/-- Check a statement. -/
def checkStmt : Stmt → StateM TypeChecker Stmt
  | .varDecl info decl => do
      let decl ← checkDecl decl
      return .varDecl info decl
  | .assign assignment => do
      let assignment ← checkAssignment assignment
      return .assign assignment
  | .fieldAssign info receiver used value => do
      let receiver ← checkExpr receiver
      let expected ← reading fun _ => Typing.targetTy used
      let (typed, actual) ← reading fun place => Typing.checkExpr place.model value
      reading fun place =>
        Typing.requireAssignable place.model used.text expected actual value.position
      return .fieldAssign info receiver used typed
  | .call info expr => do
      let expr ← checkExpr expr
      return .call info expr
  | .ifThen info condition body => do
      let condition ← checkCondition condition
      let body ← checkStmt body
      return .ifThen info condition body
  | .ifElse info condition body alternative => do
      let condition ← checkCondition condition
      let body ← checkStmt body
      let alternative ← checkStmt alternative
      return .ifElse info condition body alternative
  | .whileLoop info condition body => do
      let condition ← checkCondition condition
      let body ← checkStmt body
      return .whileLoop info condition body
  | .forLoop info init condition update body scope => do
      let init ← checkDecl init
      let condition ← checkCondition condition
      let update ← checkAssignment update
      let body ← checkStmt body
      return .forLoop info init condition update body scope
  | .ret info returned => do
      let returned ← checkReturn returned
      return .ret info returned
  | .block info stmts scope => do
      let stmts ← checkStmts stmts
      return .block info stmts scope

/-- Check statements one after another. -/
def checkStmts : List Stmt → StateM TypeChecker (List Stmt)
  | [] => return []
  | first :: rest => do
      let first ← checkStmt first
      let rest ← checkStmts rest
      return first :: rest

end

/-- Set the fields of a function and go on inside it. -/
def inFunction {α : Type} (head : FunctionHead) (inside : StateM TypeChecker α) :
    StateM TypeChecker α := do
  modify fun checker => { checker with functionName := head.name, returnTy := head.returnTy }
  inside

/-- Check a function. -/
def checkFunction (decl : FunctionDecl) : StateM TypeChecker FunctionDecl := inFunction decl.head do
  let body ← checkStmts decl.body
  match decl.closing with
  | some returned => do
      let returned ← checkReturn returned
      return { decl with body, closing := some returned }
  | none => do
      reading fun place =>
        Reported.reportIf (Typing.differs .void place.returnTy) decl.head.span.start
          (.missingReturn decl.head.name place.returnTy)
      return { decl with body }

/-- Check a class. -/
def checkClass (decl : ClassDecl) : StateM TypeChecker ClassDecl := do
  let fields ← decl.fields.mapM checkDecl
  let methods ← decl.methods.mapM checkFunction
  reading fun place => Reported.mk () (Typing.conformanceFindings place.model decl)
  return { decl with fields, methods }

/-- Check a declaration at the top level. -/
def checkItem : Item → StateM TypeChecker Item
  | .inclusion decl => return .inclusion decl
  | .enumeration decl => return .enumeration decl
  | .interface decl => return .interface decl
  | .classDecl decl => do
      let decl ← checkClass decl
      return .classDecl decl
  | .function decl => do
      let decl ← checkFunction decl
      return .function decl
  | .globalVariable decl => do
      let decl ← checkDecl decl
      return .globalVariable decl

/-- Hand out a program and the log. -/
def handOut (program : Program) (items : List Item) : StateM TypeChecker PassOutcome := do
  let checker ← get
  let state := PassState.afterLog checker.log
  set { checker with state, log := DiagnosticLog.empty }
  return ({ program with items }, checker.log, state)

/-- Find the types in a program. -/
def checkProgram (program : Program) : StateM TypeChecker PassOutcome := do
  modify fun checker => { checker with state := .traversing }
  let items ← program.items.mapM checkItem
  handOut program items

end TypeChecker

end KnightFront
