import KnightFront.Proofs.Rerun.Again

namespace KnightFront

/-!
# Resolving what has been checked

Checking writes types into a tree and changes nothing else.  Names are bound without
a look at these types, so a tree that has been resolved and then checked is left as
it is when it is resolved again, and the problems are those of the first time.
-/

open Reported (value_bind value_pure findings_bind findings_pure)

namespace Expr

variable (model : SymbolModel)

mutual

theorem staticTy?_checkExpr : ∀ (expr : Expr),
    (Typing.checkExpr model expr).value.1.staticTy? = expr.staticTy?
  | .int .. | .string .. | .bool .. | .name .. | .call .. | .methodCall .. | .field ..
  | .newInstance .. | .newArray .. => rfl
  | .binary _ _ left right => by
      simp only [Typing.checkExpr, value_bind, value_pure, staticTy?, staticTy?_checkExpr left,
        staticTy?_checkExpr right]
  | .index _ base _ => by
      simp only [Typing.checkExpr, value_bind, value_pure, staticTy?, staticTy?_checkExpr base]
  | .array _ items => staticArrayTy?_checkExprs items

theorem staticArrayTy?_checkExprs : ∀ (items : List Expr),
    staticArrayTy? (Typing.checkExprs model items).value.1 = staticArrayTy? items
  | [] => rfl
  | first :: _ => by
      simp only [Typing.checkExprs, value_bind, value_pure, staticArrayTy?,
        staticTy?_checkExpr first]

end

end Expr

open Typing (TypingPlace checkExpr checkExprs checkDecl checkCondition checkIndex checkAssignment
  checkReturn checkStmt checkStmts checkFunction checkClass checkItem)

namespace Resolution

section Expressions

variable (model : SymbolModel) (place : NamePlace) (scopes : List Scope)

mutual

theorem resolveExpr_checked : ∀ (expr : Expr),
    resolveExpr place scopes (checkExpr model (resolveExpr place scopes expr).value).value.1 =
      ⟨(checkExpr model (resolveExpr place scopes expr).value).value.1,
        (resolveExpr place scopes expr).findings⟩
  | .int .. | .string .. | .bool .. => rfl
  | .name _ used => by
      apply Reported.ext <;>
        simp only [resolveExpr, checkExpr, value_bind, value_pure, findings_bind, findings_pure,
          repeats_bindValue place scopes used]
  | .binary _ _ left right => by
      apply Reported.ext <;>
        simp only [resolveExpr, checkExpr, value_bind, value_pure, findings_bind, findings_pure,
          resolveExpr_checked left, resolveExpr_checked right]
  | .call _ callee args => by
      apply Reported.ext <;>
        simp only [resolveExpr, checkExpr, value_bind, value_pure, findings_bind, findings_pure,
          resolveExprs_checked args, repeats_bindCallee place callee]
  | .methodCall _ receiver callee args => by
      apply Reported.ext <;>
        simp only [resolveExpr, checkExpr, value_bind, value_pure, findings_bind, findings_pure,
          resolveExpr_checked receiver, resolveExprs_checked args, Expr.staticTy?_checkExpr,
          repeats_bindMethod place _ callee]
  | .field _ receiver used => by
      apply Reported.ext <;>
        simp only [resolveExpr, checkExpr, value_bind, value_pure, findings_bind, findings_pure,
          resolveExpr_checked receiver, Expr.staticTy?_checkExpr, repeats_bindField place _ used]
  | .newInstance _ className => by
      apply Reported.ext <;>
        simp only [resolveExpr, checkExpr, value_bind, value_pure, findings_bind, findings_pure,
          repeats_bindInstance place className]
  | .newArray _ _ length => by
      apply Reported.ext <;>
        simp only [resolveExpr, checkExpr, value_bind, value_pure, findings_bind, findings_pure,
          resolveExpr_checked length]
  | .index _ base position => by
      apply Reported.ext <;>
        simp only [resolveExpr, checkExpr, value_bind, value_pure, findings_bind, findings_pure,
          resolveExpr_checked base, resolveExpr_checked position]
  | .array _ items => by
      apply Reported.ext <;>
        simp only [resolveExpr, checkExpr, value_bind, value_pure, findings_bind, findings_pure,
          resolveExprs_checked items]

theorem resolveExprs_checked : ∀ (exprs : List Expr),
    resolveExprs place scopes (checkExprs model (resolveExprs place scopes exprs).value).value.1 =
      ⟨(checkExprs model (resolveExprs place scopes exprs).value).value.1,
        (resolveExprs place scopes exprs).findings⟩
  | [] => rfl
  | first :: rest => by
      apply Reported.ext <;>
        simp only [resolveExprs, checkExprs, value_bind, value_pure, findings_bind, findings_pure,
          resolveExpr_checked first, resolveExprs_checked rest]

end

theorem resolveDecl_checked (decl : VarDecl) :
    resolveDecl place scopes (checkDecl model (resolveDecl place scopes decl).value).value =
      ⟨(checkDecl model (resolveDecl place scopes decl).value).value,
        (resolveDecl place scopes decl).findings⟩ := by
  cases hasInit : decl.init with
  | none => simp only [resolveDecl, resolveOptional, checkDecl, hasInit, value_bind, value_pure]; rfl
  | some init =>
      apply Reported.ext <;>
        simp only [resolveDecl, resolveOptional, checkDecl, hasInit, value_bind, value_pure,
          findings_bind, findings_pure, resolveExpr_checked]

/-- A checked declaration declares the same local. -/
theorem declareLocal_checkDecl (state : ScopeState) (decl : VarDecl) :
    declareLocal place state (checkDecl model decl).value = declareLocal place state decl := by
  cases hasInit : decl.init <;> simp only [declareLocal, checkDecl, hasInit, value_bind, value_pure]

theorem resolveLocal_checked (state : ScopeState) (decl : VarDecl) :
    resolveLocal place state (checkDecl model (resolveLocal place state decl).value.1).value =
      ⟨((checkDecl model (resolveLocal place state decl).value.1).value,
          (resolveLocal place state decl).value.2),
        (resolveLocal place state decl).findings⟩ := by
  apply Reported.ext <;>
    simp only [resolveLocal, value_bind, value_pure, findings_bind, findings_pure,
      resolveDecl_checked, declareLocal_checkDecl]

theorem resolveAssignment_checked (assignment : Assignment) :
    resolveAssignment place scopes
        (checkAssignment model (resolveAssignment place scopes assignment).value).value =
      ⟨(checkAssignment model (resolveAssignment place scopes assignment).value).value,
        (resolveAssignment place scopes assignment).findings⟩ := by
  cases hasIndex : assignment.index with
  | none =>
      apply Reported.ext <;>
        simp only [resolveAssignment, resolveOptional, checkAssignment, hasIndex, value_bind,
          value_pure, findings_bind, findings_pure, resolveExpr_checked,
          repeats_bindValue place scopes assignment.target]
  | some index =>
      apply Reported.ext <;>
        simp only [resolveAssignment, resolveOptional, checkAssignment, checkIndex, hasIndex,
          value_bind, value_pure, findings_bind, findings_pure, resolveExpr_checked,
          repeats_bindValue place scopes assignment.target]

theorem resolveReturn_checked (typing : TypingPlace) (returned : Return) :
    resolveReturn place scopes
        (checkReturn typing (resolveReturn place scopes returned).value).value =
      ⟨(checkReturn typing (resolveReturn place scopes returned).value).value,
        (resolveReturn place scopes returned).findings⟩ := by
  cases hasValue : returned.value with
  | none =>
      simp only [resolveReturn, resolveOptional, checkReturn, hasValue, value_bind, value_pure]
      rfl
  | some value =>
      by_cases isVoid : typing.returnTy = .void <;>
        apply Reported.ext <;>
          simp only [resolveReturn, resolveOptional, checkReturn, hasValue, isVoid, if_true,
            if_false, value_bind, value_pure, findings_bind, findings_pure, resolveExpr_checked]

end Expressions

section Statements

variable (typing : TypingPlace)

mutual

theorem resolveStmt_checked (place : NamePlace) (state : ScopeState) : ∀ (stmt : Stmt),
    resolveStmt place state (checkStmt typing (resolveStmt place state stmt).value.1).value =
      ⟨((checkStmt typing (resolveStmt place state stmt).value.1).value,
          (resolveStmt place state stmt).value.2),
        (resolveStmt place state stmt).findings⟩
  | .varDecl _ decl => by
      apply Reported.ext <;>
        simp only [resolveStmt, checkStmt, value_bind, value_pure, findings_bind, findings_pure,
          resolveLocal_checked]
  | .assign assignment => by
      apply Reported.ext <;>
        simp only [resolveStmt, checkStmt, value_bind, value_pure, findings_bind, findings_pure,
          resolveAssignment_checked]
  | .fieldAssign _ receiver used value => by
      apply Reported.ext <;>
        simp only [resolveStmt, checkStmt, value_bind, value_pure, findings_bind, findings_pure,
          resolveExpr_checked, Expr.staticTy?_checkExpr, repeats_bindField place _ used]
  | .call _ expr => by
      apply Reported.ext <;>
        simp only [resolveStmt, checkStmt, value_bind, value_pure, findings_bind, findings_pure,
          resolveExpr_checked]
  | .ifThen _ condition body | .whileLoop _ condition body => by
      apply Reported.ext <;>
        simp only [resolveStmt, checkStmt, checkCondition, value_bind, value_pure, findings_bind,
          findings_pure, resolveExpr_checked, resolveStmt_checked place state body]
  | .ifElse _ condition body alternative => by
      apply Reported.ext <;>
        simp only [resolveStmt, checkStmt, checkCondition, value_bind, value_pure, findings_bind,
          findings_pure, resolveExpr_checked, resolveStmt_checked place state body,
          resolveStmt_checked place _ alternative]
  | .forLoop _ init condition update body _ => by
      apply Reported.ext <;>
        simp only [resolveStmt, checkStmt, checkCondition, value_bind, value_pure, findings_bind,
          findings_pure, resolveLocal_checked, resolveExpr_checked, resolveAssignment_checked,
          resolveStmt_checked _ _ body]
  | .ret _ returned => by
      apply Reported.ext <;>
        simp only [resolveStmt, checkStmt, value_bind, value_pure, findings_bind, findings_pure,
          resolveReturn_checked]
  | .block _ stmts _ => by
      apply Reported.ext <;>
        simp only [resolveStmt, checkStmt, value_bind, value_pure, findings_bind, findings_pure,
          resolveStmts_checked _ _ stmts]

theorem resolveStmts_checked (place : NamePlace) (state : ScopeState) : ∀ (stmts : List Stmt),
    resolveStmts place state (checkStmts typing (resolveStmts place state stmts).value.1).value =
      ⟨((checkStmts typing (resolveStmts place state stmts).value.1).value,
          (resolveStmts place state stmts).value.2),
        (resolveStmts place state stmts).findings⟩
  | [] => rfl
  | first :: rest => by
      apply Reported.ext <;>
        simp only [resolveStmts, checkStmts, value_bind, value_pure, findings_bind, findings_pure,
          resolveStmt_checked place state first, resolveStmts_checked place _ rest]

end

end Statements

section Declarations

variable (model : SymbolModel) (place : NamePlace) (scopes : List Scope)

/-- In a list, checking leaves what resolving has bound if it does so for each
element. -/
theorem mapM_checked {α : Type} {bind check : α → Reported α}
    (each : ∀ element, bind (check (bind element).value).value =
      ⟨(check (bind element).value).value, (bind element).findings⟩) (list : List α) :
    List.mapM bind (List.mapM check (List.mapM bind list).value).value =
      ⟨(List.mapM check (List.mapM bind list).value).value, (List.mapM bind list).findings⟩ := by
  induction list with
  | nil => rfl
  | cons first rest inductionHypothesis =>
      apply Reported.ext <;>
        simp only [List.mapM_cons, value_bind, value_pure, findings_bind, findings_pure, each,
          inductionHypothesis]

theorem resolveFunction_checked (decl : FunctionDecl) :
    resolveFunction place scopes
        (checkFunction model (resolveFunction place scopes decl).value.1).value =
      ⟨((checkFunction model (resolveFunction place scopes decl).value.1).value,
          (resolveFunction place scopes decl).value.2),
        (resolveFunction place scopes decl).findings⟩ := by
  cases closes : decl.closing with
  | none =>
      apply Reported.ext <;>
        simp only [resolveFunction, checkFunction, closes, Option.mapM_none, value_bind, value_pure,
          findings_bind, findings_pure, resolveStmts_checked]
  | some returned =>
      apply Reported.ext <;>
        simp only [resolveFunction, checkFunction, closes, Option.mapM_some, map_eq_pure_bind,
          value_bind, value_pure, findings_bind, findings_pure, resolveStmts_checked,
          resolveReturn_checked]

theorem resolveMethods_checked (decls : List FunctionDecl) :
    resolveMethods place scopes
        (List.mapM (checkFunction model) (resolveMethods place scopes decls).value.1).value =
      ⟨((List.mapM (checkFunction model) (resolveMethods place scopes decls).value.1).value,
          (resolveMethods place scopes decls).value.2),
        (resolveMethods place scopes decls).findings⟩ := by
  induction decls generalizing scopes with
  | nil => rfl
  | cons first rest inductionHypothesis =>
      apply Reported.ext <;>
        simp only [resolveMethods, List.mapM_cons, value_bind, value_pure, findings_bind,
          findings_pure, resolveFunction_checked, inductionHypothesis]

theorem resolveClass_checked (decl : ClassDecl) :
    resolveClass model scopes (checkClass model (resolveClass model scopes decl).value.1).value =
      ⟨((checkClass model (resolveClass model scopes decl).value.1).value,
          (resolveClass model scopes decl).value.2),
        (resolveClass model scopes decl).findings⟩ := by
  apply Reported.ext <;>
    simp only [resolveClass, checkClass, value_bind, value_pure, findings_bind, findings_pure,
      (repeats_bindParent _).mapM_option decl.parent, (repeats_bindInterface _).mapM decl.uses,
      mapM_checked (resolveDecl_checked model _ scopes), resolveMethods_checked]

theorem resolveItem_checked (item : Item) :
    resolveItem model scopes (checkItem model (resolveItem model scopes item).value.1).value =
      ⟨((checkItem model (resolveItem model scopes item).value.1).value,
          (resolveItem model scopes item).value.2),
        (resolveItem model scopes item).findings⟩ := by
  cases item with
  | inclusion | enumeration => rfl
  | interface decl =>
      apply Reported.ext <;>
        simp only [resolveItem, checkItem, value_bind, value_pure, findings_bind, findings_pure,
          repeats_resolveInterface _ decl]
  | classDecl decl =>
      apply Reported.ext <;>
        simp only [resolveItem, checkItem, value_bind, value_pure, findings_bind, findings_pure,
          resolveClass_checked]
  | function decl =>
      apply Reported.ext <;>
        simp only [resolveItem, checkItem, value_bind, value_pure, findings_bind, findings_pure,
          resolveFunction_checked]
  | globalVariable decl =>
      apply Reported.ext <;>
        simp only [resolveItem, checkItem, value_bind, value_pure, findings_bind, findings_pure,
          resolveDecl_checked]

theorem resolveItems_checked (items : List Item) :
    resolveItems model scopes
        (List.mapM (checkItem model) (resolveItems model scopes items).value.1).value =
      ⟨((List.mapM (checkItem model) (resolveItems model scopes items).value.1).value,
          (resolveItems model scopes items).value.2),
        (resolveItems model scopes items).findings⟩ := by
  induction items generalizing scopes with
  | nil => rfl
  | cons first rest inductionHypothesis =>
      apply Reported.ext <;>
        simp only [resolveItems, List.mapM_cons, value_bind, value_pure, findings_bind,
          findings_pure, resolveItem_checked, inductionHypothesis]

end Declarations

end Resolution

/-- Resolving a program that has been resolved and checked, with the scopes that it had
before. -/
theorem Program.resolve_checked (model : SymbolModel) (program : Program) :
    Program.resolve model
        { ((program.resolve model).value.check model).value with scopes := program.scopes } =
      ⟨((program.resolve model).value.check model).value, (program.resolve model).findings⟩ := by
  apply Reported.ext <;>
    simp only [resolve, check, value_bind, value_pure, findings_bind, findings_pure,
      Resolution.resolveItems_checked]

end KnightFront
