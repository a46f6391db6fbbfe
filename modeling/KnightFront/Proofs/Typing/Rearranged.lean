import KnightFront.Analysis.Typing
import KnightFront.Proofs.Symbols.Rearranged

namespace KnightFront

/-!
# Typing by rearranged models

The third pass asks a symbol model for the ancestors of a class and for what an
interface requires.  Neither depends on the order of declaration; the methods of
one interface are gone through by their names.
-/

namespace Typing

variable {first second : SymbolModel}

section Types

variable (models : first.Rearranged second)

include models

theorem binaryTy_eq (op : BinaryOp) (left right : Ty) (position : Position) :
    binaryTy first op left right position = binaryTy second op left right position := by
  unfold binaryTy operatorTy? comparable
  rw [models.isAssignable_eq]

theorem callTy_eq (callee : NameUse) (args : List Ty) :
    callTy first callee args = callTy second callee args := by
  have accepted : argumentsMatch first = argumentsMatch second := by
    funext expected actual
    rw [argumentsMatch, argumentsMatch, models.isAssignable_eq]
  unfold callTy
  rw [accepted]

theorem requireAssignable_eq : requireAssignable first = requireAssignable second := by
  funext name expected actual position
  rw [requireAssignable, requireAssignable, models.isAssignable_eq]

end Types

mutual

theorem checkExpr_eq (models : first.Rearranged second) : ∀ (expr : Expr),
    checkExpr first expr = checkExpr second expr
  | .int .. | .string .. | .bool .. | .name .. | .newInstance .. => rfl
  | .binary _ _ left right => by
      have onLeft := checkExpr_eq models left
      have onRight := checkExpr_eq models right
      simp only [checkExpr, onLeft, onRight, binaryTy_eq models]
  | .call _ _ args => by
      simp only [checkExpr, checkExprs_eq models args, callTy_eq models]
  | .methodCall _ receiver _ args => by
      have onReceiver := checkExpr_eq models receiver
      have inArgs := checkExprs_eq models args
      simp only [checkExpr, onReceiver, inArgs, callTy_eq models]
  | .field _ receiver _ => by
      rw [checkExpr, checkExpr, checkExpr_eq models receiver]
  | .newArray _ _ length => by
      rw [checkExpr, checkExpr, checkExpr_eq models length]
  | .index _ base position => by
      have onBase := checkExpr_eq models base
      have onPosition := checkExpr_eq models position
      rw [checkExpr, onBase, onPosition, checkExpr]
  | .array _ items => by
      rw [checkExpr, checkExpr, checkExprs_eq models items]

theorem checkExprs_eq (models : first.Rearranged second) : ∀ (exprs : List Expr),
    checkExprs first exprs = checkExprs second exprs
  | [] => rfl
  | expr :: rest => by
      have head := checkExpr_eq models expr
      have tail := checkExprs_eq models rest
      rw [checkExprs, head, tail, checkExprs]

end

section Parts

variable (models : first.Rearranged second)

include models

theorem checkDecl_eq (decl : VarDecl) : checkDecl first decl = checkDecl second decl := by
  unfold checkDecl
  rw [requireAssignable_eq models]
  cases decl.init with
  | none => rfl
  | some init => simp only [checkExpr_eq models]

theorem checkCondition_eq (condition : Expr) :
    checkCondition first condition = checkCondition second condition := by
  rw [checkCondition, checkCondition, checkExpr_eq models]

theorem checkAssignment_eq (assignment : Assignment) :
    checkAssignment first assignment = checkAssignment second assignment := by
  unfold checkAssignment checkIndex
  rw [requireAssignable_eq models, funext (checkExpr_eq models)]

theorem checkReturn_eq (functionName : String) (returnTy : Ty) (returned : Return) :
    checkReturn ⟨first, functionName, returnTy⟩ returned =
      checkReturn ⟨second, functionName, returnTy⟩ returned := by
  unfold checkReturn
  rw [models.isAssignable_eq, funext (checkExpr_eq models)]

end Parts

mutual

theorem checkStmt_eq (models : first.Rearranged second) (functionName : String) (returnTy : Ty) :
    ∀ (stmt : Stmt), checkStmt ⟨first, functionName, returnTy⟩ stmt =
      checkStmt ⟨second, functionName, returnTy⟩ stmt
  | .varDecl _ decl => by
      rw [checkStmt, checkStmt, checkDecl_eq models]
  | .assign assignment => by
      rw [checkStmt, checkStmt, checkAssignment_eq models]
  | .fieldAssign _ receiver used value => by
      simp only [checkStmt, checkExpr_eq models, requireAssignable_eq models]
  | .call _ expr => by
      rw [checkStmt, checkStmt, checkExpr_eq models]
  | .ifThen _ condition body => by
      have inBody := checkStmt_eq models functionName returnTy body
      rw [checkStmt, checkCondition_eq models, inBody, checkStmt]
  | .ifElse _ condition body alternative => by
      have inBody := checkStmt_eq models functionName returnTy body
      have inAlternative := checkStmt_eq models functionName returnTy alternative
      rw [checkStmt, checkCondition_eq models, inBody, inAlternative, checkStmt]
  | .whileLoop _ condition body => by
      have inBody := checkStmt_eq models functionName returnTy body
      rw [checkStmt, checkCondition_eq models, inBody, checkStmt]
  | .forLoop _ init condition update body _ => by
      have counter := checkDecl_eq models init
      have test := checkCondition_eq models condition
      have step := checkAssignment_eq models update
      have inBody := checkStmt_eq models functionName returnTy body
      simp only [checkStmt, counter, test, step, inBody]
  | .ret _ returned => by
      rw [checkStmt, checkStmt, checkReturn_eq models]
  | .block _ stmts _ => by
      rw [checkStmt, checkStmt, checkStmts_eq models functionName returnTy stmts]

theorem checkStmts_eq (models : first.Rearranged second) (functionName : String) (returnTy : Ty) :
    ∀ (stmts : List Stmt), checkStmts ⟨first, functionName, returnTy⟩ stmts =
      checkStmts ⟨second, functionName, returnTy⟩ stmts
  | [] => rfl
  | stmt :: rest => by
      have head := checkStmt_eq models functionName returnTy stmt
      have tail := checkStmts_eq models functionName returnTy rest
      rw [checkStmts, head, tail, checkStmts]

end

section Declarations

variable (models : first.Rearranged second)

include models

theorem checkFunction_eq (decl : FunctionDecl) :
    checkFunction first decl = checkFunction second decl := by
  unfold checkFunction
  simp only [checkStmts_eq models, checkReturn_eq models]

theorem conformanceFindings_eq (decl : ClassDecl) :
    conformanceFindings first decl = conformanceFindings second decl := by
  unfold conformanceFindings
  rw [models.class?_eq, models.interfaceClosure_eq, models.findMethod?_eq]

theorem checkClass_eq (decl : ClassDecl) : checkClass first decl = checkClass second decl := by
  have fields : checkDecl first = checkDecl second := funext (checkDecl_eq models)
  have methods : checkFunction first = checkFunction second := funext (checkFunction_eq models)
  unfold checkClass
  rw [fields, methods, conformanceFindings_eq models]

theorem checkItem_eq (item : Item) : checkItem first item = checkItem second item := by
  cases item with
  | inclusion => rfl
  | enumeration => rfl
  | interface => rfl
  | classDecl decl => rw [checkItem, checkItem, checkClass_eq models]
  | function decl => rw [checkItem, checkItem, checkFunction_eq models]
  | globalVariable decl => rw [checkItem, checkItem, checkDecl_eq models]

end Declarations

end Typing

/-- A file is checked alike by models that declare the same in any order. -/
theorem SymbolModel.Rearranged.check_eq {first second : SymbolModel}
    (models : first.Rearranged second) : Program.check first = Program.check second := by
  funext program
  rw [Program.check, Program.check, funext (Typing.checkItem_eq models)]

end KnightFront
