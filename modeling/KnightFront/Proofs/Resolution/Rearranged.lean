import KnightFront.Analysis.Resolution
import KnightFront.Proofs.Symbols.Rearranged

namespace KnightFront

/-!
# Resolving by rearranged models

The second pass asks a symbol model what a name stands for and never how its
tables are ordered.  So two models that differ in order only give the same tree
and the same findings.
-/

/-- Two places differ in the order of their models only. -/
structure NamePlace.Rearranged (first second : NamePlace) : Prop where
  model : first.model.Rearranged second.model
  className : first.className = second.className
  scope : first.scope = second.scope
  functionScopes : first.functionScopes = second.functionScopes

namespace Resolution

section Names

variable {first second : NamePlace} (places : first.Rearranged second)

include places

theorem findOwnMethod?_eq (name : String) :
    findOwnMethod? first name = findOwnMethod? second name := by
  unfold findOwnMethod?
  rw [places.className, places.model.findMethod?_eq]

theorem findFunction?_eq (name : String) :
    findFunction? first name = findFunction? second name := by
  rw [findFunction?, findFunction?, places.model.function?_eq]

theorem findValue?_eq (scopes : List Scope) (name : String) :
    findValue? first scopes name = findValue? second scopes name := by
  have inScope : findScoped? first scopes name = findScoped? second scopes name := by
    rw [findScoped?, findScoped?, places.scope]
  have ownField : findOwnField? first name = findOwnField? second name := by
    unfold findOwnField?
    rw [places.className, places.model.findField?_eq]
  have global : findGlobal? first name = findGlobal? second name := by
    rw [findGlobal?, findGlobal?, places.model.global?_eq]
  have ownMethod : findOwnMethod? first name = findOwnMethod? second name :=
    findOwnMethod?_eq places name
  have function : findFunction? first name = findFunction? second name :=
    findFunction?_eq places name
  unfold findValue?
  rw [inScope, ownField, ownMethod, global, function]

theorem bindValue_eq (scopes : List Scope) (used : NameUse) :
    bindValue first scopes used = bindValue second scopes used := by
  rw [bindValue, bindValue, findValue?_eq places]

theorem bindCallee_eq (callee : NameUse) : bindCallee first callee = bindCallee second callee := by
  have found : findCallee? first callee.text = findCallee? second callee.text := by
    unfold findCallee?
    rw [findOwnMethod?_eq places, findFunction?_eq places]
  rw [bindCallee, bindCallee, found]

theorem bindMethod_eq (receiver : Option Ty) (callee : NameUse) :
    bindMethod first receiver callee = bindMethod second receiver callee := by
  have classes := places.model.classes.contains_eq
  have interfaces := places.model.interfaces.contains_eq
  have methods := places.model.findMethod?_eq
  have required := places.model.findInterfaceMethod?_eq
  unfold bindMethod
  rw [classes, interfaces, methods, required]

theorem bindField_eq (receiver : Option Ty) (used : NameUse) :
    bindField first receiver used = bindField second receiver used := by
  unfold bindField
  rw [places.model.classes.contains_eq, places.model.interfaces.contains_eq,
    places.model.findField?_eq]

theorem bindInstance_eq (className : NameUse) :
    bindInstance first className = bindInstance second className := by
  unfold bindInstance
  rw [places.model.classes.contains_eq, places.model.interfaces.contains_eq]

theorem bindParent_eq (parent : NameUse) : bindParent first parent = bindParent second parent := by
  rw [bindParent, bindParent, places.model.class?_eq]

theorem bindInterface_eq (base : NameUse) :
    bindInterface first base = bindInterface second base := by
  rw [bindInterface, bindInterface, places.model.interface?_eq]

theorem checkTy_eq (ty : Ty) (position : Position) :
    checkTy first ty position = checkTy second ty position := by
  unfold checkTy
  rw [places.model.isTypeName_eq]

end Names

mutual

theorem resolveExpr_eq {first second : NamePlace} (places : first.Rearranged second)
    (scopes : List Scope) : ∀ (expr : Expr),
    resolveExpr first scopes expr = resolveExpr second scopes expr
  | .int .. | .string .. | .bool .. => rfl
  | .name .. => by
      rw [resolveExpr, resolveExpr, bindValue_eq places]
  | .binary _ _ left right => by
      have onLeft := resolveExpr_eq places scopes left
      have onRight := resolveExpr_eq places scopes right
      rw [resolveExpr, onLeft, onRight, resolveExpr]
  | .call _ _ args => by
      have inArgs := resolveExprs_eq places scopes args
      rw [resolveExpr, inArgs, bindCallee_eq places, resolveExpr]
  | .methodCall _ receiver _ args => by
      have onReceiver := resolveExpr_eq places scopes receiver
      have inArgs := resolveExprs_eq places scopes args
      simp only [resolveExpr, onReceiver, inArgs, bindMethod_eq places]
  | .field _ receiver _ => by
      simp only [resolveExpr, resolveExpr_eq places scopes receiver, bindField_eq places]
  | .newInstance .. => by
      rw [resolveExpr, resolveExpr, bindInstance_eq places]
  | .newArray _ _ length => by
      rw [resolveExpr, resolveExpr, resolveExpr_eq places scopes length]
  | .index _ base position => by
      have onBase := resolveExpr_eq places scopes base
      have onPosition := resolveExpr_eq places scopes position
      rw [resolveExpr, onBase, onPosition, resolveExpr]
  | .array _ items => by
      rw [resolveExpr, resolveExpr, resolveExprs_eq places scopes items]

theorem resolveExprs_eq {first second : NamePlace} (places : first.Rearranged second)
    (scopes : List Scope) : ∀ (exprs : List Expr),
    resolveExprs first scopes exprs = resolveExprs second scopes exprs
  | [] => rfl
  | expr :: rest => by
      have head := resolveExpr_eq places scopes expr
      have tail := resolveExprs_eq places scopes rest
      rw [resolveExprs, head, tail, resolveExprs]

end

section Parts

variable {first second : NamePlace} (places : first.Rearranged second)

include places

theorem resolveOptional_eq (scopes : List Scope) (optional : Option Expr) :
    resolveOptional first scopes optional = resolveOptional second scopes optional := by
  cases optional with
  | none => rfl
  | some expr => rw [resolveOptional, resolveOptional, resolveExpr_eq places]

theorem resolveDecl_eq (scopes : List Scope) (decl : VarDecl) :
    resolveDecl first scopes decl = resolveDecl second scopes decl := by
  have init := resolveOptional_eq places scopes decl.init
  unfold resolveDecl
  rw [checkTy_eq places, init]

theorem resolveLocal_eq (state : ScopeState) (decl : VarDecl) :
    resolveLocal first state decl = resolveLocal second state decl := by
  have declared : declareLocal first state = declareLocal second state := by
    funext decl
    unfold declareLocal repeatsParam
    rw [places.scope, places.functionScopes]
  unfold resolveLocal
  rw [resolveDecl_eq places, declared]

theorem resolveAssignment_eq (scopes : List Scope) (assignment : Assignment) :
    resolveAssignment first scopes assignment = resolveAssignment second scopes assignment := by
  have target := bindValue_eq places scopes assignment.target
  have index := resolveOptional_eq places scopes assignment.index
  have value := resolveExpr_eq places scopes assignment.value
  unfold resolveAssignment
  rw [target, index, value]

theorem resolveReturn_eq (scopes : List Scope) (returned : Return) :
    resolveReturn first scopes returned = resolveReturn second scopes returned := by
  rw [resolveReturn, resolveReturn, resolveOptional_eq places]

end Parts

/-- Places still differ in the order of their models only when both enter one
scope. -/
theorem rearranged_inScope {first second : NamePlace} (places : first.Rearranged second)
    (scope : ScopeId) :
    NamePlace.Rearranged { first with scope := some scope } { second with scope := some scope } :=
  { places with scope := rfl }

mutual

theorem resolveStmt_eq {first second : NamePlace} (places : first.Rearranged second)
    (state : ScopeState) : ∀ (stmt : Stmt),
    resolveStmt first state stmt = resolveStmt second state stmt
  | .varDecl _ decl => by
      rw [resolveStmt, resolveStmt, resolveLocal_eq places]
  | .assign assignment => by
      rw [resolveStmt, resolveStmt, resolveAssignment_eq places]
  | .fieldAssign _ receiver used value => by
      simp only [resolveStmt, resolveExpr_eq places, bindField_eq places]
  | .call _ expr => by
      rw [resolveStmt, resolveStmt, resolveExpr_eq places]
  | .ifThen _ condition body => by
      have inBody := resolveStmt_eq places state body
      rw [resolveStmt, resolveExpr_eq places, inBody, resolveStmt]
  | .ifElse _ condition body alternative => by
      have inBody (state : ScopeState) := resolveStmt_eq places state body
      have inAlternative (state : ScopeState) := resolveStmt_eq places state alternative
      simp only [resolveStmt, resolveExpr_eq places, inBody, inAlternative]
  | .whileLoop _ condition body => by
      have inBody := resolveStmt_eq places state body
      rw [resolveStmt, resolveExpr_eq places, inBody, resolveStmt]
  | .forLoop _ init condition update body _ => by
      have inner := rearranged_inScope places (state.openScope first.scope .block).1
      simp only [resolveStmt, resolveLocal_eq inner, resolveExpr_eq inner,
        resolveAssignment_eq inner, resolveStmt_eq inner _ body]
      rw [places.scope]
  | .ret _ returned => by
      rw [resolveStmt, resolveStmt, resolveReturn_eq places]
  | .block _ stmts _ => by
      have inner := rearranged_inScope places (state.openScope first.scope .block).1
      simp only [resolveStmt, resolveStmts_eq inner _ stmts]
      rw [places.scope]

theorem resolveStmts_eq {first second : NamePlace} (places : first.Rearranged second)
    (state : ScopeState) : ∀ (stmts : List Stmt),
    resolveStmts first state stmts = resolveStmts second state stmts
  | [] => rfl
  | stmt :: rest => by
      have head := resolveStmt_eq places state stmt
      have tail (state : ScopeState) := resolveStmts_eq places state rest
      simp only [resolveStmts, head, tail]

end

section Functions

variable {first second : NamePlace} (places : first.Rearranged second)

include places

theorem checkHead_eq (head : FunctionHead) : checkHead first head = checkHead second head := by
  simp only [checkHead, checkTy_eq places]

theorem resolveFunction_eq (scopes : List Scope) (decl : FunctionDecl) :
    resolveFunction first scopes decl = resolveFunction second scopes decl := by
  have inner (entry : FunctionEntry) :
      (bodyPlace first entry).Rearranged (bodyPlace second entry) :=
    { places with scope := rfl, functionScopes := rfl }
  have returned (entry : FunctionEntry) (scopes : List Scope) :
      resolveReturn (bodyPlace first entry) scopes =
        resolveReturn (bodyPlace second entry) scopes :=
    funext (resolveReturn_eq (inner entry) scopes)
  simp only [resolveFunction, checkHead_eq places, resolveStmts_eq (inner _), returned]

theorem resolveMethods_eq (scopes : List Scope) (decls : List FunctionDecl) :
    resolveMethods first scopes decls = resolveMethods second scopes decls := by
  induction decls generalizing scopes with
  | nil => rfl
  | cons decl rest inductionHypothesis =>
      simp only [resolveMethods, resolveFunction_eq places, inductionHypothesis]

theorem resolveInterface_eq (decl : InterfaceDecl) :
    resolveInterface first decl = resolveInterface second decl := by
  have bound : bindInterface first = bindInterface second := funext (bindInterface_eq places)
  have heads : checkHead first = checkHead second := funext (checkHead_eq places)
  unfold resolveInterface
  rw [bound, heads]

end Functions

section Items

variable {first second : SymbolModel} (models : first.Rearranged second)

include models

/-- Outside of functions, a place is what its model and its class make it. -/
theorem rearranged_outside (className : Option String) :
    NamePlace.Rearranged { model := first, className } { model := second, className } :=
  ⟨models, rfl, rfl, rfl⟩

theorem resolveClass_eq (scopes : List Scope) (decl : ClassDecl) :
    resolveClass first scopes decl = resolveClass second scopes decl := by
  have places := rearranged_outside models (some decl.name)
  simp only [resolveClass, funext (bindParent_eq places), funext (bindInterface_eq places),
    funext (resolveDecl_eq places scopes), resolveMethods_eq places]

theorem resolveItem_eq (scopes : List Scope) (item : Item) :
    resolveItem first scopes item = resolveItem second scopes item := by
  have places := rearranged_outside models none
  cases item with
  | inclusion => rfl
  | enumeration => rfl
  | interface decl => rw [resolveItem, resolveItem, resolveInterface_eq places]
  | classDecl decl => rw [resolveItem, resolveItem, resolveClass_eq models]
  | function decl => rw [resolveItem, resolveItem, resolveFunction_eq places]
  | globalVariable decl => rw [resolveItem, resolveItem, resolveDecl_eq places]

theorem resolveItems_eq (scopes : List Scope) (items : List Item) :
    resolveItems first scopes items = resolveItems second scopes items := by
  induction items generalizing scopes with
  | nil => rfl
  | cons item rest inductionHypothesis =>
      simp only [resolveItems, resolveItem_eq models, inductionHypothesis]

end Items

end Resolution

/-- A file is resolved alike by models that declare the same in any order. -/
theorem SymbolModel.Rearranged.resolve_eq {first second : SymbolModel}
    (models : first.Rearranged second) : Program.resolve first = Program.resolve second := by
  funext program
  rw [Program.resolve, Program.resolve, Resolution.resolveItems_eq models]

end KnightFront
