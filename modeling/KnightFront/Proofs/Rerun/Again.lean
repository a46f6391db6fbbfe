import KnightFront.Analysis.Resolution
import KnightFront.Analysis.Typing

namespace KnightFront

/-!
# Running a pass on its own result

A name is bound by what it says and where it stands, not by what it was bound to
before.  So resolving what has been resolved already binds every name as it is and
reports the same problems.  A type is found from the bindings and the literals, not
from the types that the tree carries, so this is also true of checking.
-/

namespace Reported

/-- A pass that gives the same once more when it runs on its own result, with the same
findings. -/
def Repeats {α : Type} (pass : α → Reported α) : Prop :=
  ∀ subject, pass (pass subject).value = pass subject

theorem Repeats.mapM {α : Type} {pass : α → Reported α} (repeats : Repeats pass) :
    Repeats (List.mapM pass) := by
  intro list
  induction list with
  | nil => rfl
  | cons first rest inductionHypothesis =>
      simp only [List.mapM_cons, value_bind, value_pure, repeats first, inductionHypothesis]

theorem Repeats.mapM_option {α : Type} {pass : α → Reported α} (repeats : Repeats pass) :
    Repeats (Option.mapM pass)
  | none => rfl
  | some subject => by
      simp only [Option.mapM_some, map_eq_pure_bind, value_bind, value_pure, repeats subject]

end Reported

open Reported (Repeats value_bind value_pure findings_bind findings_pure)

namespace Resolution

variable (place : NamePlace) (scopes : List Scope)

/-- Binding a name changes nothing of it but the binding. -/
theorem text_bindName (used : NameUse) (binding : Option Binding) (problem : Problem) :
    (bindName used binding problem).value.text = used.text := by
  cases binding <;> rfl

theorem bindName_again (used : NameUse) (binding : Option Binding) (problem : Problem) :
    bindName (bindName used binding problem).value binding problem =
      bindName used binding problem := by
  cases binding <;> rfl

/-- A name is bound by what it says, so it is bound the same again. -/
theorem repeats_bindName (binding : String → Option Binding) (problem : String → Problem) :
    Repeats fun used => bindName used (binding used.text) (problem used.text) := by
  intro used
  simp only [text_bindName, bindName_again]

theorem repeats_bindValue : Repeats (bindValue place scopes) :=
  repeats_bindName (findValue? place scopes) .undefinedVariable

theorem repeats_bindCallee : Repeats (bindCallee place) :=
  repeats_bindName (findCallee? place) .undefinedFunction

theorem repeats_bindParent : Repeats (bindParent place) :=
  repeats_bindName (fun name => (place.model.class? name).map fun _ => .classType name)
    .undefinedClass

theorem repeats_bindInterface : Repeats (bindInterface place) :=
  repeats_bindName (fun name => (place.model.interface? name).map fun _ => .interfaceType name)
    .undefinedInterface

theorem repeats_bindMethod (receiver : Option Ty) : Repeats (bindMethod place receiver) := by
  intro callee
  match receiver with
  | none | some .error => rfl
  | some (.named owner) =>
      by_cases isClass : place.model.classes.contains owner = true
      · simp [bindMethod, isClass, text_bindName, bindName_again]
      · by_cases isInterface : place.model.interfaces.contains owner = true
        · simp [bindMethod, isClass, isInterface, text_bindName, bindName_again]
        · simp [bindMethod, isClass, isInterface]
  | some .int | some .string | some .bool | some .void | some (.array _) | some .function =>
      exact bindName_again callee none _

theorem repeats_bindField (receiver : Option Ty) : Repeats (bindField place receiver) := by
  intro used
  match receiver with
  | none | some .error => rfl
  | some (.named owner) =>
      by_cases isClass : place.model.classes.contains owner = true
      · simp [bindField, isClass, text_bindName, bindName_again]
      · by_cases isInterface : place.model.interfaces.contains owner = true
        · simp [bindField, isClass, isInterface, text_bindName, bindName_again]
        · simp [bindField, isClass, isInterface]
  | some .int | some .string | some .bool | some .void | some (.array _) | some .function =>
      exact bindName_again used none _

theorem repeats_bindInstance : Repeats (bindInstance place) := by
  intro className
  unfold bindInstance
  by_cases declared : place.model.classes.contains className.text = true
  · simp [declared]
  · simp [declared, text_bindName, bindName_again]

mutual

theorem repeats_resolveExpr : Repeats (resolveExpr place scopes)
  | .int .. | .string .. | .bool .. => rfl
  | .name _ used => by
      simp only [resolveExpr, value_bind, value_pure, repeats_bindValue place scopes used]
  | .binary _ _ left right => by
      simp only [resolveExpr, value_bind, value_pure, repeats_resolveExpr left,
        repeats_resolveExpr right]
  | .call _ callee args => by
      simp only [resolveExpr, value_bind, value_pure, repeats_resolveExprs args,
        repeats_bindCallee place callee]
  | .methodCall _ receiver callee args => by
      -- The method depends on the receiver as it is resolved, so values are compared.
      apply Reported.ext <;>
        simp only [resolveExpr, value_bind, value_pure, findings_bind, repeats_resolveExpr receiver,
          repeats_resolveExprs args, repeats_bindMethod place _ callee]
  | .field _ receiver used => by
      apply Reported.ext <;>
        simp only [resolveExpr, value_bind, value_pure, findings_bind, repeats_resolveExpr receiver,
          repeats_bindField place _ used]
  | .newInstance _ className => by
      simp only [resolveExpr, value_bind, value_pure, repeats_bindInstance place className]
  | .newArray _ _ length => by
      simp only [resolveExpr, value_bind, value_pure, repeats_resolveExpr length]
  | .index _ base position => by
      simp only [resolveExpr, value_bind, value_pure, repeats_resolveExpr base,
        repeats_resolveExpr position]
  | .array _ items => by
      simp only [resolveExpr, value_bind, value_pure, repeats_resolveExprs items]

theorem repeats_resolveExprs : Repeats (resolveExprs place scopes)
  | [] => rfl
  | first :: rest => by
      simp only [resolveExprs, value_bind, value_pure, repeats_resolveExpr first,
        repeats_resolveExprs rest]

end

theorem repeats_resolveOptional : Repeats (resolveOptional place scopes)
  | none => rfl
  | some expr => by
      simp only [resolveOptional, value_bind, value_pure, repeats_resolveExpr place scopes expr]

theorem repeats_resolveDecl : Repeats (resolveDecl place scopes) := by
  intro decl
  simp only [resolveDecl, value_bind, value_pure, repeats_resolveOptional place scopes decl.init]

theorem repeats_resolveAssignment : Repeats (resolveAssignment place scopes) := by
  intro assignment
  simp only [resolveAssignment, value_bind, value_pure,
    repeats_bindValue place scopes assignment.target,
    repeats_resolveOptional place scopes assignment.index,
    repeats_resolveExpr place scopes assignment.value]

theorem repeats_resolveReturn : Repeats (resolveReturn place scopes) := by
  intro returned
  simp only [resolveReturn, value_bind, value_pure,
    repeats_resolveOptional place scopes returned.value]

theorem resolveLocal_again (state : ScopeState) (decl : VarDecl) :
    resolveLocal place state (resolveLocal place state decl).value.1 =
      resolveLocal place state decl := by
  simp only [resolveLocal, value_bind, value_pure, repeats_resolveDecl place state.scopes decl]

mutual

theorem resolveStmt_again (place : NamePlace) (state : ScopeState) : ∀ (stmt : Stmt),
    resolveStmt place state (resolveStmt place state stmt).value.1 = resolveStmt place state stmt
  | .varDecl _ decl => by
      simp only [resolveStmt, value_bind, value_pure, resolveLocal_again place state decl]
  | .assign assignment => by
      simp only [resolveStmt, value_bind, value_pure,
        repeats_resolveAssignment place state.scopes assignment]
  | .fieldAssign _ receiver used value => by
      apply Reported.ext <;>
        simp only [resolveStmt, value_bind, value_pure, findings_bind,
          repeats_resolveExpr place state.scopes receiver, repeats_bindField place _ used,
          repeats_resolveExpr place state.scopes value]
  | .call _ expr => by
      simp only [resolveStmt, value_bind, value_pure, repeats_resolveExpr place state.scopes expr]
  | .ifThen _ condition body | .whileLoop _ condition body => by
      simp only [resolveStmt, value_bind, value_pure,
        repeats_resolveExpr place state.scopes condition, resolveStmt_again place state body]
  | .ifElse _ condition body alternative => by
      apply Reported.ext <;>
        simp only [resolveStmt, value_bind, value_pure, findings_bind,
          repeats_resolveExpr place state.scopes condition, resolveStmt_again place state body,
          resolveStmt_again place _ alternative]
  | .forLoop _ init condition update body _ => by
      apply Reported.ext <;>
        simp only [resolveStmt, value_bind, value_pure, findings_bind, resolveLocal_again _ _ init,
          repeats_resolveExpr _ _ condition, repeats_resolveAssignment _ _ update,
          resolveStmt_again _ _ body]
  | .ret _ returned => by
      simp only [resolveStmt, value_bind, value_pure,
        repeats_resolveReturn place state.scopes returned]
  | .block _ stmts _ => by
      simp only [resolveStmt, value_bind, value_pure, resolveStmts_again _ _ stmts]

theorem resolveStmts_again (place : NamePlace) (state : ScopeState) : ∀ (stmts : List Stmt),
    resolveStmts place state (resolveStmts place state stmts).value.1 =
      resolveStmts place state stmts
  | [] => rfl
  | first :: rest => by
      apply Reported.ext <;>
        simp only [resolveStmts, value_bind, value_pure, findings_bind,
          resolveStmt_again place state first, resolveStmts_again place _ rest]

end

/-! ## Declarations -/

theorem resolveFunction_again (decl : FunctionDecl) :
    resolveFunction place scopes (resolveFunction place scopes decl).value.1 =
      resolveFunction place scopes decl := by
  apply Reported.ext <;>
    simp only [resolveFunction, value_bind, value_pure, findings_bind, resolveStmts_again,
      (repeats_resolveReturn _ _).mapM_option decl.closing]

theorem resolveMethods_again (decls : List FunctionDecl) :
    resolveMethods place scopes (resolveMethods place scopes decls).value.1 =
      resolveMethods place scopes decls := by
  induction decls generalizing scopes with
  | nil => rfl
  | cons first rest inductionHypothesis =>
      apply Reported.ext <;>
        simp only [resolveMethods, value_bind, value_pure, findings_bind, resolveFunction_again,
          inductionHypothesis]

theorem repeats_resolveInterface : Repeats (resolveInterface place) := by
  intro decl
  simp only [resolveInterface, value_bind, value_pure,
    (repeats_bindInterface place).mapM decl.bases]

theorem resolveClass_again (model : SymbolModel) (decl : ClassDecl) :
    resolveClass model scopes (resolveClass model scopes decl).value.1 =
      resolveClass model scopes decl := by
  simp only [resolveClass, value_bind, value_pure,
    (repeats_bindParent _).mapM_option decl.parent, (repeats_bindInterface _).mapM decl.uses,
    (repeats_resolveDecl _ scopes).mapM decl.fields, resolveMethods_again]

theorem resolveItem_again (model : SymbolModel) (item : Item) :
    resolveItem model scopes (resolveItem model scopes item).value.1 =
      resolveItem model scopes item := by
  cases item with
  | inclusion | enumeration => rfl
  | interface decl =>
      simp only [resolveItem, value_bind, value_pure, repeats_resolveInterface _ decl]
  | classDecl decl => simp only [resolveItem, value_bind, value_pure, resolveClass_again]
  | function decl => simp only [resolveItem, value_bind, value_pure, resolveFunction_again]
  | globalVariable decl =>
      simp only [resolveItem, value_bind, value_pure, repeats_resolveDecl _ scopes decl]

theorem resolveItems_again (model : SymbolModel) (items : List Item) :
    resolveItems model scopes (resolveItems model scopes items).value.1 =
      resolveItems model scopes items := by
  induction items generalizing scopes with
  | nil => rfl
  | cons first rest inductionHypothesis =>
      apply Reported.ext <;>
        simp only [resolveItems, value_bind, value_pure, findings_bind, resolveItem_again,
          inductionHypothesis]

end Resolution

namespace Typing

variable (model : SymbolModel)

/-- An expression stands where it stood before its type was found. -/
theorem position_checkExpr (expr : Expr) : (checkExpr model expr).value.1.position = expr.position := by
  cases expr <;> rfl

mutual

theorem checkExpr_again : ∀ (expr : Expr),
    checkExpr model (checkExpr model expr).value.1 = checkExpr model expr
  | .int .. | .string .. | .bool .. | .name .. | .newInstance .. => rfl
  | .binary _ _ left right => by
      simp only [checkExpr, value_bind, value_pure, checkExpr_again left, checkExpr_again right]
      rfl
  | .call _ _ args => by
      simp only [checkExpr, value_bind, value_pure, checkExprs_again args]
      rfl
  | .methodCall _ receiver _ args => by
      simp only [checkExpr, value_bind, value_pure, checkExpr_again receiver, checkExprs_again args]
      rfl
  | .field _ receiver _ => by
      simp only [checkExpr, value_bind, value_pure, checkExpr_again receiver]
      rfl
  | .newArray _ _ length => by
      simp only [checkExpr, value_bind, value_pure, checkExpr_again length, position_checkExpr]
      rfl
  | .index _ base position => by
      simp only [checkExpr, value_bind, value_pure, checkExpr_again base, checkExpr_again position,
        position_checkExpr]
      rfl
  | .array _ items => by
      simp only [checkExpr, value_bind, value_pure, checkExprs_again items]
      rfl

theorem checkExprs_again : ∀ (exprs : List Expr),
    checkExprs model (checkExprs model exprs).value.1 = checkExprs model exprs
  | [] => rfl
  | first :: rest => by
      simp only [checkExprs, value_bind, value_pure, checkExpr_again first, checkExprs_again rest]

end

theorem repeats_checkDecl : Repeats (checkDecl model) := by
  intro decl
  cases hasInit : decl.init with
  | none => simp only [checkDecl, hasInit, value_bind, value_pure]
  | some init =>
      simp only [checkDecl, hasInit, value_bind, value_pure, checkExpr_again, position_checkExpr]

theorem repeats_checkCondition : Repeats (checkCondition model) := by
  intro condition
  simp only [checkCondition, value_bind, value_pure, checkExpr_again, position_checkExpr]

theorem repeats_checkIndex : Repeats (checkIndex model) := by
  intro index
  simp only [checkIndex, value_bind, value_pure, checkExpr_again, position_checkExpr]

theorem repeats_checkAssignment : Repeats (checkAssignment model) := by
  intro assignment
  cases hasIndex : assignment.index with
  | none =>
      simp only [checkAssignment, hasIndex, value_bind, value_pure, checkExpr_again,
        position_checkExpr]
  | some index =>
      simp only [checkAssignment, hasIndex, value_bind, value_pure, checkExpr_again,
        position_checkExpr, repeats_checkIndex model index]

theorem repeats_checkReturn (place : TypingPlace) : Repeats (checkReturn place) := by
  intro returned
  cases hasValue : returned.value with
  | none => simp only [checkReturn, hasValue, value_bind, value_pure]
  | some value =>
      by_cases isVoid : place.returnTy = .void
      · simp only [checkReturn, hasValue, isVoid, if_true, value_bind, value_pure, checkExpr_again]
      · simp only [checkReturn, hasValue, isVoid, if_false, value_bind, value_pure, checkExpr_again]

mutual

theorem repeats_checkStmt (place : TypingPlace) : Repeats (checkStmt place)
  | .varDecl _ decl => by
      simp only [checkStmt, value_bind, value_pure, repeats_checkDecl _ decl]
  | .assign assignment => by
      simp only [checkStmt, value_bind, value_pure, repeats_checkAssignment _ assignment]
  | .fieldAssign _ receiver used value => by
      simp only [checkStmt, value_bind, value_pure, checkExpr_again, position_checkExpr]
  | .call _ expr => by
      simp only [checkStmt, value_bind, value_pure, checkExpr_again]
  | .ifThen _ condition body | .whileLoop _ condition body => by
      simp only [checkStmt, value_bind, value_pure, repeats_checkCondition _ condition,
        repeats_checkStmt place body]
  | .ifElse _ condition body alternative => by
      simp only [checkStmt, value_bind, value_pure, repeats_checkCondition _ condition,
        repeats_checkStmt place body, repeats_checkStmt place alternative]
  | .forLoop _ init condition update body _ => by
      simp only [checkStmt, value_bind, value_pure, repeats_checkDecl _ init,
        repeats_checkCondition _ condition, repeats_checkAssignment _ update,
        repeats_checkStmt place body]
  | .ret _ returned => by
      simp only [checkStmt, value_bind, value_pure, repeats_checkReturn place returned]
  | .block _ stmts _ => by
      simp only [checkStmt, value_bind, value_pure, repeats_checkStmts place stmts]

theorem repeats_checkStmts (place : TypingPlace) : Repeats (checkStmts place)
  | [] => rfl
  | first :: rest => by
      simp only [checkStmts, value_bind, value_pure, repeats_checkStmt place first,
        repeats_checkStmts place rest]

end

theorem repeats_checkFunction : Repeats (checkFunction model) := by
  intro decl
  cases closes : decl.closing with
  | none => simp only [checkFunction, closes, value_bind, value_pure, repeats_checkStmts _ decl.body]
  | some returned =>
      simp only [checkFunction, closes, value_bind, value_pure, repeats_checkStmts _ decl.body,
        repeats_checkReturn _ returned]

theorem repeats_checkClass : Repeats (checkClass model) := by
  intro decl
  simp only [checkClass, value_bind, value_pure, (repeats_checkDecl model).mapM decl.fields,
    (repeats_checkFunction model).mapM decl.methods]
  rfl

theorem repeats_checkItem : Repeats (checkItem model)
  | .inclusion _ | .enumeration _ | .interface _ => rfl
  | .classDecl decl => by
      simp only [checkItem, value_bind, value_pure, repeats_checkClass model decl]
  | .function decl => by
      simp only [checkItem, value_bind, value_pure, repeats_checkFunction model decl]
  | .globalVariable decl => by
      simp only [checkItem, value_bind, value_pure, repeats_checkDecl model decl]

end Typing

/-- Finding types that have been found. -/
theorem Program.repeats_check (model : SymbolModel) : Repeats (Program.check model) := by
  intro program
  simp only [check, value_bind, value_pure, (Typing.repeats_checkItem model).mapM program.items]

/-- Resolving a program that has been resolved, with the scopes that it had before. -/
theorem Program.resolve_again (model : SymbolModel) (program : Program) :
    Program.resolve model { (program.resolve model).value with scopes := program.scopes } =
      program.resolve model := by
  simp only [resolve, value_bind, value_pure, Resolution.resolveItems_again]

end KnightFront
