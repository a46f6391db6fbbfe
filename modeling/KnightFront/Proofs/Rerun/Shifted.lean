import KnightFront.Analysis.Typing
import KnightFront.Proofs.Rerun.Behind

namespace KnightFront

/-!
# Passes over a program with more scopes

A program that already has scopes is resolved as if it had none: the new scopes
are those that a program without scopes gets, behind the old ones, and all
indices of scopes are larger by the number of the old ones.  Names are bound and
problems reported all the same.  Finding types does not depend on scopes at all.
-/

namespace Stmt

mutual

/-- A statement with the indices of its scopes further on. -/
def shifted (distance : Nat) : Stmt → Stmt
  | ifThen info condition body => .ifThen info condition (shifted distance body)
  | ifElse info condition body alternative =>
      .ifElse info condition (shifted distance body) (shifted distance alternative)
  | whileLoop info condition body => .whileLoop info condition (shifted distance body)
  | forLoop info init condition update body scope =>
      .forLoop info init condition update (shifted distance body) (scope.map (· + distance))
  | block info stmts scope =>
      .block info (shiftedList distance stmts) (scope.map (· + distance))
  | other => other

/-- Statements with the indices of their scopes further on. -/
def shiftedList (distance : Nat) : List Stmt → List Stmt
  | [] => []
  | first :: rest => shifted distance first :: shiftedList distance rest

end

end Stmt

mutual

@[simp]
theorem Stmt.shifted_zero : ∀ (stmt : Stmt), stmt.shifted 0 = stmt
  | .varDecl .. | .assign .. | .fieldAssign .. | .call .. | .ret .. => rfl
  | .ifThen _ _ body | .whileLoop _ _ body | .forLoop _ _ _ _ body _ => by
      simp [shifted, shifted_zero body]
  | .ifElse _ _ body alternative => by
      simp [shifted, shifted_zero body, shifted_zero alternative]
  | .block _ stmts _ => by simp [shifted, shiftedList_zero stmts]

@[simp]
theorem Stmt.shiftedList_zero : ∀ (stmts : List Stmt), shiftedList 0 stmts = stmts
  | [] => rfl
  | first :: rest => by rw [shiftedList, shifted_zero first, shiftedList_zero rest]

end

/-- A function with the indices of its scopes further on. -/
def FunctionDecl.shifted (distance : Nat) (decl : FunctionDecl) : FunctionDecl :=
  { decl with
    body := Stmt.shiftedList distance decl.body
    paramScope := decl.paramScope.map (· + distance)
    bodyScope := decl.bodyScope.map (· + distance) }

/-- A class with the indices of its scopes further on. -/
def ClassDecl.shifted (distance : Nat) (decl : ClassDecl) : ClassDecl :=
  { decl with methods := decl.methods.map (FunctionDecl.shifted distance) }

/-- A declaration with the indices of its scopes further on. -/
def Item.shifted (distance : Nat) : Item → Item
  | classDecl decl => .classDecl (decl.shifted distance)
  | function decl => .function (decl.shifted distance)
  | other => other

/-- A program whose scopes are behind others. -/
def Program.behind (front : List Scope) (program : Program) : Program :=
  { program with
    items := program.items.map (Item.shifted front.length)
    scopes := Scopes.behind front program.scopes }

@[simp]
theorem FunctionDecl.shifted_zero : FunctionDecl.shifted 0 = fun decl => decl := by
  funext decl
  simp [shifted]

@[simp]
theorem Item.shifted_zero : Item.shifted 0 = id := by
  funext item
  cases item <;> simp [shifted, ClassDecl.shifted]

@[simp]
theorem Program.behind_nil (program : Program) : program.behind [] = program := by
  simp [behind]

/-- The corresponding place when all indices of scopes are larger. -/
def NamePlace.shifted (distance : Nat) (place : NamePlace) : NamePlace :=
  { place with
    scope := place.scope.map (· + distance)
    functionScopes :=
      place.functionScopes.map fun (params, body) => (params + distance, body + distance) }

theorem NamePlace.shifted_inScope (distance : Nat) (place : NamePlace) (scope : ScopeId) :
    ({ place.shifted distance with scope := some (scope + distance) } : NamePlace) =
      NamePlace.shifted distance { place with scope := some scope } := rfl

namespace ScopeState

/-- A state with its scopes behind others. -/
def behind (front : List Scope) (state : ScopeState) : ScopeState :=
  { state with scopes := Scopes.behind front state.scopes }

theorem openScope_behind (front : List Scope) (state : ScopeState) (parent : Option ScopeId)
    (kind : ScopeKind) :
    (state.behind front).openScope (parent.map (· + front.length)) kind =
      ((state.openScope parent kind).1 + front.length,
        (state.openScope parent kind).2.behind front) := by
  simp only [openScope, behind, Scopes.length_behind, Scopes.behind_opened]

end ScopeState

namespace Resolution

variable (front : List Scope) (place : NamePlace) (scopes : List Scope)

theorem findValue?_behind (name : String) :
    findValue? (place.shifted front.length) (Scopes.behind front scopes) name =
      findValue? place scopes name := by
  have inScope : findScoped? (place.shifted front.length) (Scopes.behind front scopes) name =
      findScoped? place scopes name := by
    rw [findScoped?, findScoped?, NamePlace.shifted]
    cases place.scope <;> simp
  rw [findValue?, findValue?, inScope]
  rfl

theorem bindValue_behind (used : NameUse) :
    bindValue (place.shifted front.length) (Scopes.behind front scopes) used =
      bindValue place scopes used := by
  rw [bindValue, bindValue, findValue?_behind]

mutual

theorem resolveExpr_behind : ∀ (expr : Expr),
    resolveExpr (place.shifted front.length) (Scopes.behind front scopes) expr =
      resolveExpr place scopes expr
  | .int .. | .string .. | .bool .. | .newInstance .. => rfl
  | .name .. => by rw [resolveExpr, resolveExpr, bindValue_behind]
  | .binary _ _ left right => by
      have onLeft := resolveExpr_behind left
      have onRight := resolveExpr_behind right
      rw [resolveExpr, onLeft, onRight, resolveExpr]
  | .call _ _ args => by
      rw [resolveExpr, resolveExpr, resolveExprs_behind args]
      rfl
  | .methodCall _ receiver _ args => by
      have onReceiver := resolveExpr_behind receiver
      have inArgs := resolveExprs_behind args
      rw [resolveExpr, onReceiver, inArgs, resolveExpr]
      rfl
  | .field _ receiver _ => by
      rw [resolveExpr, resolveExpr, resolveExpr_behind receiver]
      rfl
  | .newArray _ _ length => by rw [resolveExpr, resolveExpr, resolveExpr_behind length]
  | .index _ base position => by
      have onBase := resolveExpr_behind base
      have onPosition := resolveExpr_behind position
      rw [resolveExpr, onBase, onPosition, resolveExpr]
  | .array _ items => by rw [resolveExpr, resolveExpr, resolveExprs_behind items]

theorem resolveExprs_behind : ∀ (exprs : List Expr),
    resolveExprs (place.shifted front.length) (Scopes.behind front scopes) exprs =
      resolveExprs place scopes exprs
  | [] => rfl
  | first :: rest => by
      have head := resolveExpr_behind first
      have tail := resolveExprs_behind rest
      rw [resolveExprs, head, tail, resolveExprs]

end

theorem resolveOptional_behind (optional : Option Expr) :
    resolveOptional (place.shifted front.length) (Scopes.behind front scopes) optional =
      resolveOptional place scopes optional := by
  cases optional with
  | none => rfl
  | some expr => rw [resolveOptional, resolveOptional, resolveExpr_behind]

theorem resolveDecl_behind (decl : VarDecl) :
    resolveDecl (place.shifted front.length) (Scopes.behind front scopes) decl =
      resolveDecl place scopes decl := by
  rw [resolveDecl, resolveDecl, resolveOptional_behind]
  rfl

theorem resolveAssignment_behind (assignment : Assignment) :
    resolveAssignment (place.shifted front.length) (Scopes.behind front scopes) assignment =
      resolveAssignment place scopes assignment := by
  have target := bindValue_behind front place scopes assignment.target
  have index := resolveOptional_behind front place scopes assignment.index
  have value := resolveExpr_behind front place scopes assignment.value
  unfold resolveAssignment
  rw [target, index, value]

theorem resolveReturn_behind (returned : Return) :
    resolveReturn (place.shifted front.length) (Scopes.behind front scopes) returned =
      resolveReturn place scopes returned := by
  rw [resolveReturn, resolveReturn, resolveOptional_behind]

theorem repeatsParam_behind (current : ScopeId) (name : String) :
    repeatsParam (place.shifted front.length) (Scopes.behind front scopes)
        (current + front.length) name = repeatsParam place scopes current name := by
  rw [repeatsParam, repeatsParam, NamePlace.shifted]
  rcases place.functionScopes with _ | ⟨params, body⟩
  · rfl
  · have same : (current + front.length == body + front.length) = (current == body) := by
      rw [Bool.eq_iff_iff, beq_iff_eq, beq_iff_eq]
      exact Nat.add_right_cancel_iff
    simp [same]

theorem declareLocal_behind (state : ScopeState) (decl : VarDecl) :
    declareLocal (place.shifted front.length) (state.behind front) decl =
      (declareLocal place state decl).behind front := by
  cases inScope : place.scope with
  | none => simp [declareLocal, NamePlace.shifted, inScope]
  | some current =>
      have repeats := repeatsParam_behind front place state.scopes current decl.name
      have current : (place.shifted front.length).scope = some (current + front.length) := by
        simp [NamePlace.shifted, inScope]
      simp only [declareLocal, inScope, current, ScopeState.behind, repeats,
        Scopes.declares_behind, Scopes.declare_behind]
      split <;> rfl

theorem resolveLocal_behind (state : ScopeState) (decl : VarDecl) :
    resolveLocal (place.shifted front.length) (state.behind front) decl =
      (fun done => (done.1, done.2.behind front)) <$> resolveLocal place state decl := by
  simp only [resolveLocal, declareLocal_behind, map_bind, map_pure]
  rw [ScopeState.behind, resolveDecl_behind]

mutual

theorem resolveStmt_behind (place : NamePlace) (state : ScopeState) : ∀ (stmt : Stmt),
    resolveStmt (place.shifted front.length) (state.behind front) stmt =
      Prod.map (Stmt.shifted front.length) (ScopeState.behind front) <$>
        resolveStmt place state stmt
  | .varDecl _ decl => by
      simp only [resolveStmt, resolveLocal_behind, map_bind, bind_map_left, map_pure]
      rfl
  | .assign assignment => by
      simp only [resolveStmt, map_bind, map_pure, ScopeState.behind, resolveAssignment_behind]
      rfl
  | .fieldAssign _ receiver used value => by
      simp only [resolveStmt, map_bind, map_pure, ScopeState.behind, resolveExpr_behind]
      rfl
  | .call _ expr => by
      simp only [resolveStmt, map_bind, map_pure, ScopeState.behind, resolveExpr_behind]
      rfl
  | .ifThen _ condition body => by
      simp only [resolveStmt, resolveStmt_behind place state body, map_bind, bind_map_left,
        map_pure]
      rw [ScopeState.behind, resolveExpr_behind]
      rfl
  | .ifElse _ condition body alternative => by
      simp only [resolveStmt, resolveStmt_behind place _ body,
        resolveStmt_behind place _ alternative, Prod.map, map_bind, bind_map_left, map_pure]
      rw [ScopeState.behind, resolveExpr_behind]
      rfl
  | .whileLoop _ condition body => by
      simp only [resolveStmt, resolveStmt_behind place state body, map_bind, bind_map_left,
        map_pure]
      rw [ScopeState.behind, resolveExpr_behind]
      rfl
  | .forLoop _ init condition update body _ => by
      -- The scope is opened behind the others, so the place inside it is a shifted one again.
      have entered : (state.behind front).openScope (place.shifted front.length).scope .block = _ :=
        ScopeState.openScope_behind front state place.scope .block
      simp only [resolveStmt, entered, NamePlace.shifted_inScope, resolveLocal_behind,
        resolveStmt_behind _ _ body, map_bind, bind_map_left, map_pure]
      simp only [ScopeState.behind, resolveExpr_behind, resolveAssignment_behind]
      rfl
  | .ret _ returned => by
      simp only [resolveStmt, map_bind, map_pure, ScopeState.behind, resolveReturn_behind]
      rfl
  | .block _ stmts _ => by
      have entered : (state.behind front).openScope (place.shifted front.length).scope .block = _ :=
        ScopeState.openScope_behind front state place.scope .block
      simp only [resolveStmt, entered, NamePlace.shifted_inScope, resolveStmts_behind _ _ stmts,
        map_bind, bind_map_left, map_pure]
      rfl

theorem resolveStmts_behind (place : NamePlace) (state : ScopeState) : ∀ (stmts : List Stmt),
    resolveStmts (place.shifted front.length) (state.behind front) stmts =
      Prod.map (Stmt.shiftedList front.length) (ScopeState.behind front) <$>
        resolveStmts place state stmts
  | [] => rfl
  | first :: rest => by
      simp only [resolveStmts, resolveStmt_behind place _ first,
        resolveStmts_behind place _ rest, Prod.map, map_bind, bind_map_left, map_pure]
      rfl

end

/-! ## Declarations -/

theorem declareParams_behind (scope : ScopeId) (params : List Param) :
    declareParams (Scopes.behind front scopes) (scope + front.length) params =
      Scopes.behind front (declareParams scopes scope params) := by
  rw [declareParams, declareParams]
  generalize params.mapIdx _ = entities
  induction entities generalizing scopes with
  | nil => rfl
  | cons first rest inductionHypothesis =>
      rw [List.foldl_cons, List.foldl_cons, Scopes.declare_behind, inductionHypothesis]

/-- A function is entered behind other scopes as without them. -/
theorem enterFunction_behind (params : List Param) :
    enterFunction (Scopes.behind front scopes) params =
      ⟨(enterFunction scopes params).paramScope + front.length,
        (enterFunction scopes params).bodyScope + front.length,
        (enterFunction scopes params).state.behind front⟩ := by
  have outer := Scopes.behind_opened front scopes none .parameters
  have declared := declareParams_behind front (scopes ++ [.opened none .parameters]) scopes.length
    params
  have inner := Scopes.behind_opened front
    (declareParams (scopes ++ [.opened none .parameters]) scopes.length params)
    (some scopes.length) .block
  rw [Option.map_none] at outer
  rw [Option.map_some] at inner
  simp only [enterFunction, ScopeState.openScope, Scopes.length_behind, outer, declared, inner,
    ScopeState.behind]

theorem bodyPlace_behind (entry : FunctionEntry) :
    bodyPlace place ⟨entry.paramScope + front.length, entry.bodyScope + front.length,
        entry.state.behind front⟩ =
      (bodyPlace place entry).shifted front.length := rfl

theorem resolveFunction_behind (decl : FunctionDecl) :
    resolveFunction place (Scopes.behind front scopes) decl =
      Prod.map (FunctionDecl.shifted front.length) (Scopes.behind front) <$>
        resolveFunction place scopes decl := by
  simp only [resolveFunction, enterFunction_behind, bodyPlace_behind, resolveStmts_behind, map_bind,
    bind_map_left, map_pure]
  simp only [Prod.map, ScopeState.behind, funext (resolveReturn_behind front _ _)]
  rfl

theorem resolveMethods_behind (decls : List FunctionDecl) :
    resolveMethods place (Scopes.behind front scopes) decls =
      Prod.map (List.map (FunctionDecl.shifted front.length)) (Scopes.behind front) <$>
        resolveMethods place scopes decls := by
  induction decls generalizing scopes with
  | nil => rfl
  | cons first rest inductionHypothesis =>
      simp only [resolveMethods, resolveFunction_behind, inductionHypothesis, Prod.map, map_bind,
        bind_map_left, map_pure]
      rfl

theorem resolveClass_behind (model : SymbolModel) (decl : ClassDecl) :
    resolveClass model (Scopes.behind front scopes) decl =
      Prod.map (ClassDecl.shifted front.length) (Scopes.behind front) <$>
        resolveClass model scopes decl := by
  have fields : resolveDecl { model, className := some decl.name } (Scopes.behind front scopes) =
      resolveDecl { model, className := some decl.name } scopes :=
    funext (resolveDecl_behind front { model, className := some decl.name } scopes)
  simp only [resolveClass, fields, resolveMethods_behind, map_bind, bind_map_left, map_pure]
  rfl

theorem resolveItem_behind (model : SymbolModel) (item : Item) :
    resolveItem model (Scopes.behind front scopes) item =
      Prod.map (Item.shifted front.length) (Scopes.behind front) <$>
        resolveItem model scopes item := by
  cases item with
  | inclusion | enumeration => rfl
  | interface decl =>
      simp only [resolveItem, map_bind, map_pure]
      rfl
  | classDecl decl =>
      simp only [resolveItem, resolveClass_behind, map_bind, bind_map_left, map_pure]
      rfl
  | function decl =>
      simp only [resolveItem, resolveFunction_behind, map_bind, bind_map_left, map_pure]
      rfl
  | globalVariable decl =>
      have same : resolveDecl { model } (Scopes.behind front scopes) decl =
          resolveDecl { model } scopes decl := resolveDecl_behind front { model } scopes decl
      simp only [resolveItem, same, map_bind, map_pure]
      rfl

theorem resolveItems_behind (model : SymbolModel) (items : List Item) :
    resolveItems model (Scopes.behind front scopes) items =
      Prod.map (List.map (Item.shifted front.length)) (Scopes.behind front) <$>
        resolveItems model scopes items := by
  induction items generalizing scopes with
  | nil => rfl
  | cons first rest inductionHypothesis =>
      simp only [resolveItems, resolveItem_behind, inductionHypothesis, Prod.map, map_bind,
        bind_map_left, map_pure]
      rfl

section WrittenOver

variable (distance : Nat)

mutual

/-- Resolving a statement does not look at the indices that it carries. -/
theorem resolveStmt_shifted (place : NamePlace) (state : ScopeState) : ∀ (stmt : Stmt),
    resolveStmt place state (stmt.shifted distance) = resolveStmt place state stmt
  | .varDecl .. | .assign .. | .fieldAssign .. | .call .. | .ret .. => rfl
  | .ifThen _ _ body | .whileLoop _ _ body | .forLoop _ _ _ _ body _ => by
      simp only [Stmt.shifted, resolveStmt, resolveStmt_shifted _ _ body]
  | .ifElse _ _ body alternative => by
      simp only [Stmt.shifted, resolveStmt, resolveStmt_shifted _ _ body,
        resolveStmt_shifted _ _ alternative]
  | .block _ stmts _ => by
      simp only [Stmt.shifted, resolveStmt, resolveStmts_shifted _ _ stmts]

theorem resolveStmts_shifted (place : NamePlace) (state : ScopeState) : ∀ (stmts : List Stmt),
    resolveStmts place state (Stmt.shiftedList distance stmts) = resolveStmts place state stmts
  | [] => rfl
  | first :: rest => by
      simp only [Stmt.shiftedList, resolveStmts, resolveStmt_shifted _ _ first,
        resolveStmts_shifted _ _ rest]

end

theorem resolveFunction_shifted (decl : FunctionDecl) :
    resolveFunction place scopes (decl.shifted distance) = resolveFunction place scopes decl := by
  simp only [resolveFunction, FunctionDecl.shifted, resolveStmts_shifted]

theorem resolveMethods_shifted (decls : List FunctionDecl) :
    resolveMethods place scopes (decls.map (FunctionDecl.shifted distance)) =
      resolveMethods place scopes decls := by
  induction decls generalizing scopes with
  | nil => rfl
  | cons first rest inductionHypothesis =>
      simp only [List.map_cons, resolveMethods, resolveFunction_shifted, inductionHypothesis]

theorem resolveItem_shifted (model : SymbolModel) (item : Item) :
    resolveItem model scopes (item.shifted distance) = resolveItem model scopes item := by
  cases item with
  | inclusion | enumeration | interface | globalVariable => rfl
  | classDecl decl =>
      simp only [Item.shifted, ClassDecl.shifted, resolveItem, resolveClass, resolveMethods_shifted]
  | function decl => simp only [Item.shifted, resolveItem, resolveFunction_shifted]

theorem resolveItems_shifted (model : SymbolModel) (items : List Item) :
    resolveItems model scopes (items.map (Item.shifted distance)) =
      resolveItems model scopes items := by
  induction items generalizing scopes with
  | nil => rfl
  | cons first rest inductionHypothesis =>
      simp only [List.map_cons, resolveItems, resolveItem_shifted, inductionHypothesis]

end WrittenOver

end Resolution

namespace Typing

variable (distance : Nat)

mutual

theorem checkStmt_shifted (place : TypingPlace) : ∀ (stmt : Stmt),
    checkStmt place (stmt.shifted distance) = Stmt.shifted distance <$> checkStmt place stmt
  | .varDecl .. | .assign .. | .fieldAssign .. | .call .. | .ret .. => by
      simp only [Stmt.shifted, checkStmt, map_bind, map_pure]
  | .ifThen _ _ body | .whileLoop _ _ body | .forLoop _ _ _ _ body _ => by
      simp only [Stmt.shifted, checkStmt, checkStmt_shifted place body, map_bind, bind_map_left,
        map_pure]
  | .ifElse _ _ body alternative => by
      simp only [Stmt.shifted, checkStmt, checkStmt_shifted place body,
        checkStmt_shifted place alternative, map_bind, bind_map_left, map_pure]
  | .block _ stmts _ => by
      simp only [Stmt.shifted, checkStmt, checkStmts_shifted place stmts, map_bind, bind_map_left,
        map_pure]

theorem checkStmts_shifted (place : TypingPlace) : ∀ (stmts : List Stmt),
    checkStmts place (Stmt.shiftedList distance stmts) =
      Stmt.shiftedList distance <$> checkStmts place stmts
  | [] => rfl
  | first :: rest => by
      simp only [Stmt.shiftedList, checkStmts, checkStmt_shifted place first,
        checkStmts_shifted place rest, map_bind, bind_map_left, map_pure]

end

/-- A pass that does not depend on a change to single elements does not depend on it
in a list. -/
theorem mapM_map {α : Type} {change : α → α} {pass : α → Reported α}
    (each : ∀ element, pass (change element) = change <$> pass element) (list : List α) :
    (list.map change).mapM pass = List.map change <$> list.mapM pass := by
  induction list with
  | nil => rfl
  | cons first rest inductionHypothesis =>
      simp only [List.map_cons, List.mapM_cons, each, inductionHypothesis, map_bind, bind_map_left,
        map_pure]

variable (model : SymbolModel)

theorem checkFunction_shifted (decl : FunctionDecl) :
    checkFunction model (decl.shifted distance) =
      FunctionDecl.shifted distance <$> checkFunction model decl := by
  simp only [FunctionDecl.shifted, checkFunction, checkStmts_shifted, map_bind, bind_map_left]
  cases decl.closing with
  | none | some =>
      simp only [map_bind, map_pure]
      rfl

theorem checkClass_shifted (decl : ClassDecl) :
    checkClass model (decl.shifted distance) =
      ClassDecl.shifted distance <$> checkClass model decl := by
  simp only [ClassDecl.shifted, checkClass, mapM_map (checkFunction_shifted distance model),
    map_bind, bind_map_left, map_pure]
  rfl

theorem checkItem_shifted (item : Item) :
    checkItem model (item.shifted distance) = Item.shifted distance <$> checkItem model item := by
  cases item with
  | inclusion | enumeration | interface => rfl
  | classDecl decl =>
      simp only [Item.shifted, checkItem, checkClass_shifted, map_bind, bind_map_left, map_pure]
  | function decl =>
      simp only [Item.shifted, checkItem, checkFunction_shifted, map_bind, bind_map_left, map_pure]
  | globalVariable decl => simp only [Item.shifted, checkItem, map_bind, map_pure]

end Typing

/-- Resolving a program with more scopes in front of its own. -/
theorem Program.resolve_behind (front : List Scope) (model : SymbolModel) (program : Program) :
    Program.resolve model { program with scopes := Scopes.behind front program.scopes } =
      behind front <$> program.resolve model := by
  simp only [resolve, Resolution.resolveItems_behind, map_bind, bind_map_left, map_pure]
  rfl

/-- Finding the types of a program with more scopes in front of its own. -/
theorem Program.check_behind (front : List Scope) (model : SymbolModel) (program : Program) :
    (program.behind front).check model = behind front <$> program.check model := by
  simp only [check, behind, Typing.mapM_map (Typing.checkItem_shifted front.length model), map_bind,
    bind_map_left, map_pure]

end KnightFront
