import KnightFront.Proofs.Typing.Stmts

namespace KnightFront

/-!
# What checking records

Checking builds a new tree.  Its expressions are the checked expressions of
the old tree, in the same order, and each node of an expression that has a
type carries the type that the rules give it.
-/

/-- The expression with the types that the checker finds. -/
def Expr.checked (model : SymbolModel) (expr : Expr) : Expr :=
  (Typing.checkExpr model expr).value.1

/-- A checked node is that of an expression of exactly one type, and carries
this type besides what the expression carried. -/
def Expr.Records (model : SymbolModel) (expr checked : Expr) : Prop :=
  ∃ ty, (∀ other, expr.HasTy model other ↔ other = ty) ∧ checked.info = expr.info.typed ty

namespace Typing

variable {model : SymbolModel}

/-- An expression that has a type has no other. -/
theorem hasTy_iff_of_hasTy {expr : Expr} {ty : Ty} (typed : expr.HasTy model ty) (other : Ty) :
    expr.HasTy model other ↔ other = ty :=
  ⟨fun otherTyped => otherTyped.unique typed, fun same => same ▸ typed⟩

/-- The checked root carries the type of the expression. -/
theorem records_checked {expr : Expr} {ty : Ty} (typed : expr.HasTy model ty) :
    expr.Records model (expr.checked model) := by
  refine ⟨ty, hasTy_iff_of_hasTy typed, ?_⟩
  rw [← (checkExpr_of_hasTy typed).1]
  cases expr <;> rfl

mutual

/-- Every checked node of an expression that has a type carries its own. -/
theorem records_nodes : ∀ {expr : Expr} {ty : Ty}, expr.HasTy model ty →
    List.Forall₂ (Expr.Records model) expr.nodes (expr.checked model).nodes
  | _, _, typed@.int => .cons (records_checked typed) .nil
  | _, _, typed@.string => .cons (records_checked typed) .nil
  | _, _, typed@.bool => .cons (records_checked typed) .nil
  | _, _, typed@(.name _) => .cons (records_checked typed) .nil
  | _, _, typed@(.binary leftTyped rightTyped _) =>
      .cons (records_checked typed)
        (List.rel_append (records_nodes leftTyped) (records_nodes rightTyped))
  | _, _, typed@(.call _ argsTyped _) =>
      .cons (records_checked typed) (records_nodesOfList argsTyped)
  | _, _, typed@(.methodCall receiverTyped _ argsTyped _) =>
      .cons (records_checked typed)
        (List.rel_append (records_nodes receiverTyped) (records_nodesOfList argsTyped))
  | _, _, typed@(.field receiverTyped _) =>
      .cons (records_checked typed) (records_nodes receiverTyped)
  | _, _, typed@(.newInstance _) => .cons (records_checked typed) .nil
  | _, _, typed@(.newArray lengthTyped) =>
      .cons (records_checked typed) (records_nodes lengthTyped)
  | _, _, typed@(.index baseTyped positionTyped) =>
      .cons (records_checked typed)
        (List.rel_append (records_nodes baseTyped) (records_nodes positionTyped))
  | _, _, typed@.emptyArray => .cons (records_checked typed) .nil
  | _, _, typed@(.array firstTyped restTyped) =>
      .cons (records_checked typed)
        (List.rel_append (records_nodes firstTyped) (records_nodesOfList restTyped))

theorem records_nodesOfList : ∀ {exprs : List Expr} {tys : List Ty},
    Expr.HaveTys model exprs tys →
    List.Forall₂ (Expr.Records model) (Expr.nodesOfList exprs)
      (Expr.nodesOfList (checkExprs model exprs).value.1)
  | _, _, .nil => .nil
  | _, _, .cons firstTyped restTyped =>
      List.rel_append (records_nodes firstTyped) (records_nodesOfList restTyped)

end

/-- Every checked node of expressions that have types carries its own. -/
theorem records_flatMap_nodes : ∀ {exprs : List Expr},
    (∀ expr ∈ exprs, ∃ ty, expr.HasTy model ty) →
    List.Forall₂ (Expr.Records model) (exprs.flatMap Expr.nodes)
      ((exprs.map (Expr.checked model)).flatMap Expr.nodes)
  | [], _ => .nil
  | first :: rest, typed => by
      rw [List.forall_mem_cons] at typed
      rcases typed.1 with ⟨ty, firstTyped⟩
      rw [List.map_cons, List.flatMap_cons, List.flatMap_cons]
      exact List.rel_append (records_nodes firstTyped) (records_flatMap_nodes typed.2)

theorem exprs_checkDecl (decl : VarDecl) :
    (checkDecl model decl).value.exprs = decl.exprs.map (Expr.checked model) := by
  unfold checkDecl VarDecl.exprs
  cases hasInit : decl.init with
  | none => simp [hasInit]
  | some init => rfl

theorem exprs_checkAssignment (assignment : Assignment) :
    (checkAssignment model assignment).value.exprs =
      assignment.exprs.map (Expr.checked model) := by
  unfold checkAssignment Assignment.exprs
  cases assignment.index <;> rfl

theorem exprs_checkReturn (place : TypingPlace) (returned : Return) :
    (checkReturn place returned).value.exprs = returned.exprs.map (Expr.checked place.model) := by
  unfold checkReturn Return.exprs
  cases hasValue : returned.value with
  | none => simp [hasValue]
  | some value =>
      simp only [Reported.value_bind]
      split <;> rfl

mutual

/-- Checking a statement checks its expressions. -/
theorem exprs_checkStmt (place : TypingPlace) : ∀ (stmt : Stmt),
    (checkStmt place stmt).value.exprs = stmt.exprs.map (Expr.checked place.model)
  | .varDecl info decl => exprs_checkDecl decl
  | .assign assignment => exprs_checkAssignment assignment
  | .fieldAssign info receiver used value => rfl
  | .call info expr => rfl
  | .ifThen info condition body => congrArg _ (exprs_checkStmt place body)
  | .ifElse info condition body alternative => by
      simp only [checkStmt, Reported.value_bind, Reported.value_pure, Stmt.exprs, List.map_cons,
        List.map_append, exprs_checkStmt place body, exprs_checkStmt place alternative]
      rfl
  | .whileLoop info condition body => congrArg _ (exprs_checkStmt place body)
  | .forLoop info init condition update body scope => by
      simp only [checkStmt, Reported.value_bind, Reported.value_pure, Stmt.exprs, List.map_cons,
        List.map_append, exprs_checkDecl, exprs_checkAssignment, exprs_checkStmt place body]
      rfl
  | .ret info returned => exprs_checkReturn place returned
  | .block info stmts scope => exprs_checkStmts place stmts

theorem exprs_checkStmts (place : TypingPlace) : ∀ (stmts : List Stmt),
    Stmt.exprsOfList (checkStmts place stmts).value =
      (Stmt.exprsOfList stmts).map (Expr.checked place.model)
  | [] => rfl
  | first :: rest => by
      simp only [checkStmts, Reported.value_bind, Reported.value_pure, Stmt.exprsOfList,
        List.map_append, exprs_checkStmt place first, exprs_checkStmts place rest]

end

theorem exprs_checkFunction (decl : FunctionDecl) :
    (checkFunction model decl).value.exprs = decl.exprs.map (Expr.checked model) := by
  unfold checkFunction FunctionDecl.exprs
  cases decl.closing with
  | none => simp [exprs_checkStmts]
  | some returned => simp [exprs_checkStmts, exprs_checkReturn]

/-- What holds of the parts of a list's members holds of those of the list. -/
theorem flatMap_map_of_forall {α β : Type} {change : α → α} {parts : α → List β}
    {changePart : β → β} (members : List α)
    (changed : ∀ member, parts (change member) = (parts member).map changePart) :
    (members.map change).flatMap parts = (members.flatMap parts).map changePart := by
  rw [List.flatMap_map, List.map_flatMap]
  exact congrArg (members.flatMap ·) (funext changed)

theorem exprs_checkItem (item : Item) :
    (checkItem model item).value.exprs = item.exprs.map (Expr.checked model) := by
  cases item with
  | inclusion => rfl
  | enumeration => rfl
  | interface => rfl
  | classDecl decl =>
      simp only [checkItem, checkClass, Reported.value_bind, Reported.value_pure,
        Reported.value_mapM, Item.exprs, ClassDecl.exprs, List.map_append]
      rw [flatMap_map_of_forall decl.fields exprs_checkDecl,
        flatMap_map_of_forall decl.methods exprs_checkFunction]
  | function decl => exact exprs_checkFunction decl
  | globalVariable decl => exact exprs_checkDecl decl

end Typing

/-- Checking a file checks its expressions. -/
theorem Program.exprs_check (model : SymbolModel) (program : Program) :
    (program.check model).value.exprs = program.exprs.map (Expr.checked model) := by
  simp only [Program.check, Reported.value_bind, Reported.value_pure, Reported.value_mapM,
    Program.exprs]
  exact Typing.flatMap_map_of_forall program.items Typing.exprs_checkItem

end KnightFront
