import KnightFront.Tree.Program

namespace KnightFront

/-!
# Listing the parts of a tree

Properties of a whole tree are properties of all its expression nodes, or of
all the expressions that its statements and declarations hold.  Both are
listed here in textual order.  The list of a statement holds whole
expressions; the nodes inside them are reached through `Expr.nodes`.
-/

namespace Expr

mutual

/-- The nodes of an expression, a node before those inside it. -/
def nodes : Expr → List Expr
  | expr@(int ..) => [expr]
  | expr@(string ..) => [expr]
  | expr@(bool ..) => [expr]
  | expr@(name ..) => [expr]
  | expr@(binary _ _ left right) => expr :: (nodes left ++ nodes right)
  | expr@(call _ _ args) => expr :: nodesOfList args
  | expr@(methodCall _ receiver _ args) => expr :: (nodes receiver ++ nodesOfList args)
  | expr@(field _ receiver _) => expr :: nodes receiver
  | expr@(newInstance ..) => [expr]
  | expr@(newArray _ _ length) => expr :: nodes length
  | expr@(index _ base position) => expr :: (nodes base ++ nodes position)
  | expr@(array _ items) => expr :: nodesOfList items

/-- The nodes of several expressions. -/
def nodesOfList : List Expr → List Expr
  | [] => []
  | first :: rest => nodes first ++ nodesOfList rest

end

theorem nodesOfList_eq_flatMap (exprs : List Expr) : nodesOfList exprs = exprs.flatMap nodes := by
  induction exprs with
  | nil => rfl
  | cons first rest inductionHypothesis => simp [nodesOfList, inductionHypothesis]

end Expr

/-- The initial value of a declaration, if it has one. -/
def VarDecl.exprs (decl : VarDecl) : List Expr := decl.init.toList

/-- The index, if there is one, and the value of an assignment. -/
def Assignment.exprs (assignment : Assignment) : List Expr :=
  assignment.index.toList ++ [assignment.value]

/-- The returned value, if there is one. -/
def Return.exprs (returned : Return) : List Expr := returned.value.toList

namespace Stmt

mutual

/-- The expressions that a statement and those inside it hold. -/
def exprs : Stmt → List Expr
  | varDecl _ decl => decl.exprs
  | assign assignment => assignment.exprs
  | fieldAssign _ receiver _ value => [receiver, value]
  | call _ expr => [expr]
  | ifThen _ condition body => condition :: exprs body
  | ifElse _ condition body alternative => condition :: (exprs body ++ exprs alternative)
  | whileLoop _ condition body => condition :: exprs body
  | forLoop _ init condition update body _ =>
      init.exprs ++ condition :: (update.exprs ++ exprs body)
  | ret _ returned => returned.exprs
  | block _ stmts _ => exprsOfList stmts

/-- The expressions of several statements. -/
def exprsOfList : List Stmt → List Expr
  | [] => []
  | first :: rest => exprs first ++ exprsOfList rest

end

end Stmt

/-- The expressions in the body of a function. -/
def FunctionDecl.exprs (decl : FunctionDecl) : List Expr :=
  Stmt.exprsOfList decl.body ++ decl.closing.toList.flatMap Return.exprs

/-- The expressions in the fields and methods of a class. -/
def ClassDecl.exprs (decl : ClassDecl) : List Expr :=
  decl.fields.flatMap VarDecl.exprs ++ decl.methods.flatMap FunctionDecl.exprs

/-- The expressions of a declaration. -/
def Item.exprs : Item → List Expr
  | inclusion _ => []
  | enumeration _ => []
  | interface _ => []
  | classDecl decl => decl.exprs
  | function decl => decl.exprs
  | globalVariable decl => decl.exprs

namespace Program

/-- The expressions of a file that stand in no other expression. -/
def exprs (program : Program) : List Expr := program.items.flatMap Item.exprs

/-- Every expression node of a file. -/
def nodes (program : Program) : List Expr := program.exprs.flatMap Expr.nodes

end Program

/-!
## The room that a tree leaves for analysis

Reading a file leaves room in its tree: for the type of every expression, for
what every used name refers to, and for the scope of every construct that
opens one.  The lists here collect this room, so that one can say that all of
it has been filled in.
-/

/-- The name used in a node itself. -/
def Expr.nameUse? : Expr → Option NameUse
  | name _ used => some used
  | call _ callee _ => some callee
  | methodCall _ _ callee _ => some callee
  | field _ _ used => some used
  | newInstance _ className => some className
  | _ => none

namespace Stmt

mutual

/-- A statement and those inside it, an outer one before an inner one. -/
def nodes : Stmt → List Stmt
  | stmt@(varDecl ..) => [stmt]
  | stmt@(assign _) => [stmt]
  | stmt@(fieldAssign ..) => [stmt]
  | stmt@(call ..) => [stmt]
  | stmt@(ifThen _ _ body) => stmt :: nodes body
  | stmt@(ifElse _ _ body alternative) => stmt :: (nodes body ++ nodes alternative)
  | stmt@(whileLoop _ _ body) => stmt :: nodes body
  | stmt@(forLoop _ _ _ _ body _) => stmt :: nodes body
  | stmt@(ret ..) => [stmt]
  | stmt@(block _ stmts _) => stmt :: nodesOfList stmts

/-- Several statements and those inside them. -/
def nodesOfList : List Stmt → List Stmt
  | [] => []
  | first :: rest => nodes first ++ nodesOfList rest

end

theorem nodesOfList_eq_flatMap (stmts : List Stmt) : nodesOfList stmts = stmts.flatMap nodes := by
  induction stmts with
  | nil => rfl
  | cons first rest inductionHypothesis => simp [nodesOfList, inductionHypothesis]

/-- The names that a statement itself assigns to. -/
def targets : Stmt → List NameUse
  | assign assignment => [assignment.target]
  | fieldAssign _ _ used _ => [used]
  | forLoop _ _ _ update _ _ => [update.target]
  | _ => []

/-- The local that a statement itself declares. -/
def decls : Stmt → List VarDecl
  | varDecl _ decl => [decl]
  | forLoop _ init _ _ _ _ => [init]
  | _ => []

/-- The room for the scope that a statement itself opens. -/
def scopeSlots : Stmt → List (Option ScopeId)
  | forLoop _ _ _ _ _ scope => [scope]
  | block _ _ scope => [scope]
  | _ => []

end Stmt

/-- The statements of a function. -/
def FunctionDecl.stmts (decl : FunctionDecl) : List Stmt := Stmt.nodesOfList decl.body

/-- The declarations of locals in a function, in the order of the text. -/
def FunctionDecl.localDecls (decl : FunctionDecl) : List VarDecl := decl.stmts.flatMap Stmt.decls

/-- Where the parameters and locals of a function are declared. -/
def FunctionDecl.localPlaces (decl : FunctionDecl) : List Position :=
  decl.head.params.map (fun param => param.span.start) ++
    decl.localDecls.map fun decl => decl.nameSpan.start

namespace Item

/-- The functions and methods of a declaration. -/
def bodies : Item → List FunctionDecl
  | classDecl decl => decl.methods
  | function decl => [decl]
  | _ => []

/-- The names of classes and interfaces in the head of a declaration. -/
def heritage : Item → List NameUse
  | classDecl decl => decl.parent.toList ++ decl.uses
  | interface decl => decl.bases
  | _ => []

end Item

namespace Program

/-- Every function and method of a file. -/
def bodies (program : Program) : List FunctionDecl := program.items.flatMap Item.bodies

/-- Every statement of a file. -/
def stmts (program : Program) : List Stmt := program.bodies.flatMap FunctionDecl.stmts

/-- Every name use of a file: those in expressions, the targets of
assignments, and those in the heads of classes and interfaces. -/
def nameUses (program : Program) : List NameUse :=
  program.nodes.filterMap Expr.nameUse? ++ program.stmts.flatMap Stmt.targets ++
    program.items.flatMap Item.heritage

/-- The room for every scope of a file: two for each function, and one for
each block and loop with a declaration. -/
def scopeSlots (program : Program) : List (Option ScopeId) :=
  program.bodies.flatMap (fun decl => [decl.paramScope, decl.bodyScope]) ++
    program.stmts.flatMap Stmt.scopeSlots

end Program

end KnightFront
