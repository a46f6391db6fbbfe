import KnightFront.Proofs.Analysis.Annotated
import KnightFront.Proofs.Tree.Roles

namespace KnightFront

/-!
# Checking keeps every place

Checking rebuilds a tree, and it rebuilds it node by node: the checked tree has
the checked nodes of the old one, each in its old place, and the checked
declarations with their old types and parameters.
-/

variable {model : SymbolModel}

namespace Typing

mutual

/-- The nodes of a checked expression are the checked nodes. -/
theorem nodes_checked : ∀ expr : Expr,
    (expr.checked model).nodes = expr.nodes.map (Expr.checked model)
  | .int .. => rfl
  | .string .. => rfl
  | .bool .. => rfl
  | .name .. => rfl
  | .newInstance .. => rfl
  | .binary _ _ left right => by
      have leftNodes := nodes_checked left
      have rightNodes := nodes_checked right
      simp only [Expr.checked] at leftNodes rightNodes ⊢
      simp [checkExpr, Expr.nodes, Expr.checked, leftNodes, rightNodes]
  | .call _ _ args => by
      have argNodes := nodesOfList_checked args
      simp [Expr.checked, checkExpr, Expr.nodes, argNodes]
  | .methodCall _ receiver _ args => by
      have receiverNodes := nodes_checked receiver
      have argNodes := nodesOfList_checked args
      simp only [Expr.checked] at receiverNodes ⊢
      simp [checkExpr, Expr.nodes, Expr.checked, receiverNodes, argNodes]
  | .field _ receiver _ => by
      have receiverNodes := nodes_checked receiver
      simp only [Expr.checked] at receiverNodes ⊢
      simp [checkExpr, Expr.nodes, Expr.checked, receiverNodes]
  | .newArray _ _ length => by
      have lengthNodes := nodes_checked length
      simp only [Expr.checked] at lengthNodes ⊢
      simp [checkExpr, Expr.nodes, Expr.checked, lengthNodes]
  | .index _ base position => by
      have baseNodes := nodes_checked base
      have positionNodes := nodes_checked position
      simp only [Expr.checked] at baseNodes positionNodes ⊢
      simp [checkExpr, Expr.nodes, Expr.checked, baseNodes, positionNodes]
  | .array _ items => by
      have itemNodes := nodesOfList_checked items
      simp [Expr.checked, checkExpr, Expr.nodes, itemNodes]

theorem nodesOfList_checked : ∀ exprs : List Expr,
    Expr.nodesOfList (checkExprs model exprs).value.1 =
      (Expr.nodesOfList exprs).map (Expr.checked model)
  | [] => rfl
  | first :: rest => by
      have firstNodes := nodes_checked first
      have restNodes := nodesOfList_checked rest
      simp only [Expr.checked] at firstNodes
      simp [checkExprs, Expr.nodesOfList, firstNodes, restNodes]

end

/-- Checking expressions checks each of them. -/
theorem exprs_checkExprs (exprs : List Expr) :
    (checkExprs model exprs).value.1 = exprs.map (Expr.checked model) := by
  induction exprs with
  | nil => rfl
  | cons first rest inductionHypothesis =>
      simp [checkExprs, inductionHypothesis, Expr.checked]

/-- A place with its expression checked. -/
def checkPlace (model : SymbolModel) (place : ExprRole × Expr) : ExprRole × Expr :=
  (place.1, place.2.checked model)

theorem isCall_checkPlace (place : ExprRole × Expr) :
    (checkPlace model place).2.isCall = place.2.isCall := by
  cases held : place.2 <;> rw [checkPlace, held] <;> rfl

theorem map_checkPlace_each (role : ExprRole) (exprs : List Expr) :
    (role.each exprs).map (checkPlace model) = role.each (exprs.map (Expr.checked model)) := by
  simp [ExprRole.each, checkPlace]

/-- The parts of a checked node are the checked parts. -/
theorem parts_checked (expr : Expr) :
    (expr.checked model).parts = expr.parts.map (checkPlace model) := by
  cases expr <;>
    simp [Expr.checked, checkExpr, Expr.parts, exprs_checkExprs, map_checkPlace_each, checkPlace]

theorem held_checkDecl (decl : VarDecl) :
    (checkDecl model decl).value.held = decl.held.map (checkPlace model) := by
  rw [VarDecl.held, VarDecl.held, map_checkPlace_each]
  exact congrArg _ (exprs_checkDecl decl)

theorem held_checkAssignment (assignment : Assignment) :
    (checkAssignment model assignment).value.held = assignment.held.map (checkPlace model) := by
  unfold checkAssignment Assignment.held
  cases assignment.index <;> rfl

theorem held_checkReturn (place : TypingPlace) (returned : Return) :
    (checkReturn place returned).value.held = returned.held.map (checkPlace place.model) := by
  rw [Return.held, Return.held, map_checkPlace_each]
  exact congrArg _ (exprs_checkReturn place returned)

/-- A checked statement itself holds what the old one holds, checked. -/
theorem held_checkStmt (place : TypingPlace) (stmt : Stmt) :
    (checkStmt place stmt).value.held = stmt.held.map (checkPlace place.model) := by
  cases stmt with
  | varDecl info decl => exact held_checkDecl decl
  | assign assignment => exact held_checkAssignment assignment
  | ret info returned => exact held_checkReturn place returned
  | forLoop info init condition update body scope =>
      simp only [checkStmt, Reported.value_bind, Reported.value_pure, Stmt.held,
        held_checkDecl, held_checkAssignment, List.map_append, List.map_cons]
      rfl
  | _ => rfl

/-- A checked statement itself declares what the old one declares. -/
theorem decls_checkStmt (place : TypingPlace) (stmt : Stmt) :
    (checkStmt place stmt).value.decls =
      stmt.decls.map fun decl => (checkDecl place.model decl).value := by
  cases stmt <;> rfl

mutual

/-- The statements in a checked statement are the checked statements. -/
theorem nodes_checkStmt (place : TypingPlace) : ∀ stmt : Stmt,
    (checkStmt place stmt).value.nodes = stmt.nodes.map fun inner => (checkStmt place inner).value
  | .varDecl .. => rfl
  | .assign .. => rfl
  | .fieldAssign .. => rfl
  | .call .. => rfl
  | .ifThen _ _ body => congrArg (_ :: ·) (nodes_checkStmt place body)
  | .ifElse _ _ body alternative => by
      simp [checkStmt, Stmt.nodes, nodes_checkStmt place body, nodes_checkStmt place alternative]
  | .whileLoop _ _ body => congrArg (_ :: ·) (nodes_checkStmt place body)
  | .forLoop _ _ _ _ body _ => congrArg (_ :: ·) (nodes_checkStmt place body)
  | .ret .. => rfl
  | .block _ stmts _ => congrArg (_ :: ·) (nodesOfList_checkStmts place stmts)

theorem nodesOfList_checkStmts (place : TypingPlace) : ∀ stmts : List Stmt,
    Stmt.nodesOfList (checkStmts place stmts).value =
      (Stmt.nodesOfList stmts).map fun inner => (checkStmt place inner).value
  | [] => rfl
  | first :: rest => by
      simp [checkStmts, Stmt.nodesOfList, nodes_checkStmt place first,
        nodesOfList_checkStmts place rest]

end

/-- The statements of a checked function are the checked statements. -/
theorem stmts_checkFunction (decl : FunctionDecl) :
    (checkFunction model decl).value.stmts = decl.stmts.map fun stmt =>
      (checkStmt ⟨model, decl.head.name, decl.head.returnTy⟩ stmt).value := by
  unfold checkFunction FunctionDecl.stmts
  cases decl.closing <;> exact nodesOfList_checkStmts _ decl.body

theorem head_checkFunction (decl : FunctionDecl) :
    (checkFunction model decl).value.head = decl.head := by
  unfold checkFunction
  cases decl.closing <;> rfl

theorem closing_checkFunction (decl : FunctionDecl) :
    (checkFunction model decl).value.closing = decl.closing.map fun returned =>
      (checkReturn ⟨model, decl.head.name, decl.head.returnTy⟩ returned).value := by
  unfold checkFunction
  cases decl.closing <;> simp

theorem held_checkFunction (decl : FunctionDecl) :
    (checkFunction model decl).value.held = decl.held.map (checkPlace model) := by
  let checked := (checkFunction model decl).value
  have inStmts : checked.stmts.flatMap Stmt.held =
      (decl.stmts.flatMap Stmt.held).map (checkPlace model) := by
    rw [stmts_checkFunction, flatMap_map_of_forall decl.stmts (held_checkStmt _)]
  have inClosing : checked.closing.toList.flatMap Return.held =
      (decl.closing.toList.flatMap Return.held).map (checkPlace model) := by
    rw [closing_checkFunction]
    cases decl.closing with
    | none => rfl
    | some returned => simp [held_checkReturn]
  calc
    checked.held = checked.stmts.flatMap Stmt.held ++
        checked.closing.toList.flatMap Return.held := rfl
    _ = (decl.stmts.flatMap Stmt.held).map (checkPlace model) ++
          (decl.closing.toList.flatMap Return.held).map (checkPlace model) := by
      rw [inStmts, inClosing]
    _ = decl.held.map (checkPlace model) := List.map_append.symm

theorem localDecls_checkFunction (decl : FunctionDecl) :
    (checkFunction model decl).value.localDecls =
      decl.localDecls.map fun decl => (checkDecl model decl).value := by
  rw [FunctionDecl.localDecls, FunctionDecl.localDecls, stmts_checkFunction]
  exact flatMap_map_of_forall decl.stmts (decls_checkStmt _)

theorem members_checkItem (item : Item) :
    (checkItem model item).value.members =
      item.members.map fun decl => (checkDecl model decl).value := by
  cases item <;> simp [checkItem, checkClass, Item.members]

theorem held_checkItem (item : Item) :
    (checkItem model item).value.held = item.held.map (checkPlace model) := by
  calc
    (checkItem model item).value.held =
        (item.members.map fun decl => (checkDecl model decl).value).flatMap VarDecl.held ++
          (item.bodies.map fun decl => (checkFunction model decl).value).flatMap
            FunctionDecl.held := by
      rw [Item.held, members_checkItem, bodies_checkItem]
    _ = (item.members.flatMap VarDecl.held).map (checkPlace model) ++
          (item.bodies.flatMap FunctionDecl.held).map (checkPlace model) := by
      rw [flatMap_map_of_forall item.members held_checkDecl,
        flatMap_map_of_forall item.bodies held_checkFunction]
    _ = item.held.map (checkPlace model) := List.map_append.symm

theorem heads_checkItem (item : Item) : (checkItem model item).value.heads = item.heads := by
  cases item <;> simp [checkItem, checkClass, Item.heads, head_checkFunction, Function.comp_def]

theorem ty_checkDecl (decl : VarDecl) : (checkDecl model decl).value.ty = decl.ty := by
  unfold checkDecl
  cases decl.init <;> rfl

end Typing

namespace Program

open Typing

variable {program : Program}

theorem items_check : (program.check model).value.items =
    program.items.map fun item => (checkItem model item).value := by
  simp [check]

/-- The places of a checked file are the old ones, with their expressions
checked. -/
theorem places_check :
    (program.check model).value.places = program.places.map (checkPlace model) := by
  have held : (program.check model).value.held = program.held.map (checkPlace model) := by
    rw [Program.held, items_check]
    exact flatMap_map_of_forall program.items held_checkItem
  have nodes : (program.check model).value.nodes = program.nodes.map (Expr.checked model) := by
    rw [Program.nodes, exprs_check]
    exact flatMap_map_of_forall program.exprs nodes_checked
  calc
    (program.check model).value.places =
        program.held.map (checkPlace model) ++
          (program.nodes.map (Expr.checked model)).flatMap Expr.parts := by
      rw [places, held, nodes]
    _ = program.held.map (checkPlace model) ++
          (program.nodes.flatMap Expr.parts).map (checkPlace model) := by
      rw [flatMap_map_of_forall program.nodes parts_checked]
    _ = program.places.map (checkPlace model) := List.map_append.symm

theorem params_check : (program.check model).value.params = program.params := by
  calc
    (program.check model).value.params =
        ((program.items.map fun item => (checkItem model item).value).flatMap Item.heads).flatMap
          FunctionHead.params := by
      rw [params, items_check]
    _ = (program.items.flatMap Item.heads).flatMap FunctionHead.params := by
      rw [List.flatMap_map]
      simp only [heads_checkItem]

theorem varDecls_check : (program.check model).value.varDecls =
    program.varDecls.map fun decl => (checkDecl model decl).value := by
  calc
    (program.check model).value.varDecls =
        (program.items.map fun item => (checkItem model item).value).flatMap Item.members ++
          (program.bodies.map fun decl => (checkFunction model decl).value).flatMap
            FunctionDecl.localDecls := by
      rw [varDecls, items_check, bodies_check]
    _ = (program.items.flatMap Item.members).map (fun decl => (checkDecl model decl).value) ++
          (program.bodies.flatMap FunctionDecl.localDecls).map
            fun decl => (checkDecl model decl).value := by
      rw [flatMap_map_of_forall program.items members_checkItem,
        flatMap_map_of_forall program.bodies localDecls_checkFunction]
    _ = program.varDecls.map fun decl => (checkDecl model decl).value := List.map_append.symm

end Program

end KnightFront
