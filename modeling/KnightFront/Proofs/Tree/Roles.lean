import KnightFront.Proofs.Tree.Traversal
import Mathlib.Data.List.Perm.Basic

namespace KnightFront

/-!
# The place of an expression

What an expression is there for is decided by what surrounds it: it is an
operand, an argument, the value of a declaration, or it stands alone as a
statement.  The lists here collect the expressions of a tree together with
these roles.  Nothing is left out and nothing is listed twice: without the
roles, they are the lists of all expressions.
-/

/-- What an expression is there for. -/
inductive ExprRole where
  /-- A call that is a statement by itself. -/
  | standing
  | initialiser
  | assigned
  | returned
  | condition
  | operand
  | receiver
  | argument
  | element
  /-- The array that is indexed. -/
  | base
  | index
  | length
deriving DecidableEq, Repr

/-- Expressions that are all there for the same. -/
def ExprRole.each (role : ExprRole) (exprs : List Expr) : List (ExprRole × Expr) :=
  exprs.map fun expr => (role, expr)

@[simp]
theorem ExprRole.map_snd_each (role : ExprRole) (exprs : List Expr) :
    (role.each exprs).map Prod.snd = exprs := by
  rw [each, List.map_map]
  exact List.map_id exprs

/-- The expressions directly inside a node, and what they are there for. -/
def Expr.parts : Expr → List (ExprRole × Expr)
  | binary _ _ left right => [(.operand, left), (.operand, right)]
  | call _ _ args => ExprRole.argument.each args
  | methodCall _ receiver _ args => (.receiver, receiver) :: ExprRole.argument.each args
  | field _ receiver _ => [(.receiver, receiver)]
  | newArray _ _ length => [(.length, length)]
  | index _ base position => [(.base, base), (.index, position)]
  | array _ items => ExprRole.element.each items
  | _ => []

/-- The initial value of a declaration. -/
def VarDecl.held (decl : VarDecl) : List (ExprRole × Expr) :=
  ExprRole.initialiser.each decl.init.toList

/-- The index and the value of an assignment. -/
def Assignment.held (assignment : Assignment) : List (ExprRole × Expr) :=
  ExprRole.index.each assignment.index.toList ++ [(ExprRole.assigned, assignment.value)]

/-- The returned value. -/
def Return.held (returned : Return) : List (ExprRole × Expr) :=
  ExprRole.returned.each returned.value.toList

/-- The expressions that a statement itself holds, not those of the statements
inside it. -/
def Stmt.held : Stmt → List (ExprRole × Expr)
  | varDecl _ decl => decl.held
  | assign assignment => assignment.held
  | fieldAssign _ receiver _ value => [(.receiver, receiver), (.assigned, value)]
  | call _ expr => [(.standing, expr)]
  | ifThen _ condition _ => [(.condition, condition)]
  | ifElse _ condition _ _ => [(.condition, condition)]
  | whileLoop _ condition _ => [(.condition, condition)]
  | forLoop _ init condition update _ _ => init.held ++ (.condition, condition) :: update.held
  | ret _ returned => returned.held
  | block .. => []

/-- The expressions that a statement itself holds. -/
def Stmt.ownExprs (stmt : Stmt) : List Expr := stmt.held.map Prod.snd

/-- The expressions in the body of a function. -/
def FunctionDecl.held (decl : FunctionDecl) : List (ExprRole × Expr) :=
  decl.stmts.flatMap Stmt.held ++ decl.closing.toList.flatMap Return.held

namespace Item

/-- The fields and global variables of a declaration. -/
def members : Item → List VarDecl
  | classDecl decl => decl.fields
  | globalVariable decl => [decl]
  | _ => []

/-- The heads of functions and methods in a declaration. -/
def heads : Item → List FunctionHead
  | interface decl => decl.methods
  | classDecl decl => decl.methods.map FunctionDecl.head
  | function decl => [decl.head]
  | _ => []

/-- The expressions of a declaration. -/
def held (item : Item) : List (ExprRole × Expr) :=
  item.members.flatMap VarDecl.held ++ item.bodies.flatMap FunctionDecl.held

end Item

namespace Program

/-- The parameters of all functions and methods of a file, those of interfaces
among them. -/
def params (program : Program) : List Param :=
  (program.items.flatMap Item.heads).flatMap FunctionHead.params

/-- The global variables, fields and locals of a file. -/
def varDecls (program : Program) : List VarDecl :=
  program.items.flatMap Item.members ++ program.bodies.flatMap FunctionDecl.localDecls

/-- The expressions of a file that stand in no other expression. -/
def held (program : Program) : List (ExprRole × Expr) := program.items.flatMap Item.held

/-- Every expression node of a file, and what it is there for. -/
def places (program : Program) : List (ExprRole × Expr) :=
  program.held ++ program.nodes.flatMap Expr.parts

end Program

/-- An expression and all parts of its nodes are its nodes. -/
def Expr.Partitioned (expr : Expr) : Prop :=
  (expr :: expr.nodes.flatMap fun node => node.parts.map Prod.snd).Perm expr.nodes

namespace Expr

/-- A node comes before the nodes of its parts. -/
theorem nodes_eq_cons (expr : Expr) :
    expr.nodes = expr :: nodesOfList (expr.parts.map Prod.snd) := by
  cases expr <;> simp [nodes, parts, nodesOfList]

/-- Expressions and all parts of their nodes are the nodes of these expressions. -/
theorem perm_nodesOfList : ∀ (exprs : List Expr), (∀ expr ∈ exprs, expr.Partitioned) →
    (exprs ++ (nodesOfList exprs).flatMap fun node => node.parts.map Prod.snd).Perm
      (nodesOfList exprs)
  | [], _ => .nil
  | first :: rest, partitioned => by
      rw [List.forall_mem_cons] at partitioned
      have behind := perm_nodesOfList rest partitioned.2
      rw [nodesOfList, List.flatMap_append]
      refine List.Perm.trans ?_ (partitioned.1.append behind)
      rw [List.cons_append, List.cons_append]
      refine .cons first ?_
      rw [← List.append_assoc, ← List.append_assoc]
      exact .append_right _ List.perm_append_comm

/-- If the parts of a node are partitioned, then so is the node. -/
theorem partitioned_of_parts {expr : Expr}
    (partitioned : ∀ part ∈ expr.parts.map Prod.snd, part.Partitioned) : expr.Partitioned := by
  have inside := perm_nodesOfList _ partitioned
  rw [Partitioned, nodes_eq_cons, List.flatMap_cons]
  exact .cons expr inside

mutual

theorem partitioned : ∀ expr : Expr, expr.Partitioned
  | .int .. | .string .. | .bool .. | .name .. | .newInstance .. => partitioned_of_parts nofun
  | .binary _ _ left right => partitioned_of_parts (List.forall_mem_cons.mpr
      ⟨partitioned left, List.forall_mem_singleton.mpr (partitioned right)⟩)
  | .call _ _ args => partitioned_of_parts (by
      simpa [parts] using partitionedList args)
  | .methodCall _ receiver _ args => partitioned_of_parts (by
      simpa [parts] using And.intro (partitioned receiver) (partitionedList args))
  | .field _ receiver _ =>
      partitioned_of_parts (List.forall_mem_singleton.mpr (partitioned receiver))
  | .newArray _ _ length =>
      partitioned_of_parts (List.forall_mem_singleton.mpr (partitioned length))
  | .index _ base position => partitioned_of_parts (List.forall_mem_cons.mpr
      ⟨partitioned base, List.forall_mem_singleton.mpr (partitioned position)⟩)
  | .array _ items => partitioned_of_parts (by
      simpa [parts] using partitionedList items)

theorem partitionedList : ∀ exprs : List Expr, ∀ expr ∈ exprs, expr.Partitioned
  | [] => nofun
  | first :: rest => List.forall_mem_cons.mpr ⟨partitioned first, partitionedList rest⟩

end

end Expr

theorem VarDecl.map_snd_held (decl : VarDecl) : decl.held.map Prod.snd = decl.exprs := by
  simp [held, exprs]

theorem Assignment.map_snd_held (assignment : Assignment) :
    assignment.held.map Prod.snd = assignment.exprs := by
  simp [held, exprs]

theorem Return.map_snd_held (returned : Return) : returned.held.map Prod.snd = returned.exprs := by
  simp [held, exprs]

namespace Stmt

mutual

theorem flatMap_ownExprs_nodes : ∀ stmt : Stmt,
    stmt.nodes.flatMap ownExprs = stmt.exprs
  | .varDecl _ decl => by simp [nodes, ownExprs, held, exprs, decl.map_snd_held]
  | .assign assignment => by simp [nodes, ownExprs, held, exprs, assignment.map_snd_held]
  | .fieldAssign .. => rfl
  | .call .. => rfl
  | .ifThen _ _ body => by simp [nodes, ownExprs, held, exprs, flatMap_ownExprs_nodes body]
  | .ifElse _ _ body alternative => by
      simp [nodes, ownExprs, held, exprs, flatMap_ownExprs_nodes body, flatMap_ownExprs_nodes alternative]
  | .whileLoop _ _ body => by simp [nodes, ownExprs, held, exprs, flatMap_ownExprs_nodes body]
  | .forLoop _ init _ update body _ => by
      simp [nodes, ownExprs, held, exprs, flatMap_ownExprs_nodes body, init.map_snd_held, update.map_snd_held]
  | .ret _ returned => by simp [nodes, ownExprs, held, exprs, returned.map_snd_held]
  | .block _ stmts _ => by simp [nodes, ownExprs, held, exprs, flatMap_ownExprs_nodesOfList stmts]

theorem flatMap_ownExprs_nodesOfList : ∀ stmts : List Stmt,
    (nodesOfList stmts).flatMap ownExprs = exprsOfList stmts
  | [] => rfl
  | first :: rest => by
      simp [nodesOfList, exprsOfList, flatMap_ownExprs_nodes first, flatMap_ownExprs_nodesOfList rest]

end

end Stmt

theorem FunctionDecl.map_snd_held (decl : FunctionDecl) : decl.held.map Prod.snd = decl.exprs := by
  have body : decl.stmts.flatMap (fun stmt => stmt.held.map Prod.snd) =
      Stmt.exprsOfList decl.body := Stmt.flatMap_ownExprs_nodesOfList decl.body
  have closing : decl.closing.toList.flatMap (fun returned => returned.held.map Prod.snd) =
      decl.closing.toList.flatMap Return.exprs := by
    simp [Return.map_snd_held]
  rw [held, List.map_append, List.map_flatMap, List.map_flatMap]
  exact congrArg₂ (· ++ ·) body closing

/-- The expressions of a declaration are those of its variables and functions. -/
theorem Item.exprs_eq (item : Item) : item.exprs =
    item.members.flatMap VarDecl.exprs ++ item.bodies.flatMap FunctionDecl.exprs := by
  cases item <;> simp [exprs, members, bodies, ClassDecl.exprs]

theorem Item.map_snd_held (item : Item) : item.held.map Prod.snd = item.exprs := by
  simp [held, exprs_eq, List.map_flatMap, VarDecl.map_snd_held, FunctionDecl.map_snd_held]

namespace Program

/-- The roles leave out none of the expressions that stand in no other one. -/
theorem map_snd_held (program : Program) : program.held.map Prod.snd = program.exprs := by
  simp [held, exprs, List.map_flatMap, Item.map_snd_held]

/-- Every node of a file has exactly one place. -/
theorem perm_places (program : Program) : (program.places.map Prod.snd).Perm program.nodes := by
  have partitioned := Expr.perm_nodesOfList program.exprs fun expr _ => expr.partitioned
  rw [Expr.nodesOfList_eq_flatMap] at partitioned
  rwa [places, List.map_append, map_snd_held, List.map_flatMap]

end Program

end KnightFront
