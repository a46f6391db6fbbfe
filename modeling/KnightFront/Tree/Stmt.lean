import KnightFront.Symbols.Scope
import KnightFront.Tree.Expr

namespace KnightFront

/-!
# Statements

The tree of a statement.  Declarations of variables have the same form
whether they stand in a body, in a class or at the top level.  Constructs that
open a lexical scope have room for its index.
-/

/-- What a statement node carries. -/
structure StmtInfo where
  id : NodeId
  span : Span
deriving DecidableEq, Repr, Inhabited

/-- A declaration of a variable, with or without an initial value. -/
structure VarDecl where
  ty : Ty
  tySpan : Span
  name : String
  nameSpan : Span
  init : Option Expr
deriving Inhabited

/-- An assignment to a variable or, with an index, to an array element. -/
structure Assignment where
  info : StmtInfo
  target : NameUse
  index : Option Expr
  value : Expr
deriving Inhabited

/-- A return, with or without a value. -/
structure Return where
  value : Option Expr
  span : Span
deriving Inhabited

/-- A statement.  Of expressions only calls are statements. -/
inductive Stmt where
  | varDecl (info : StmtInfo) (decl : VarDecl)
  | assign (assignment : Assignment)
  | fieldAssign (info : StmtInfo) (receiver : Expr) (used : NameUse) (value : Expr)
  | call (info : StmtInfo) (expr : Expr)
  | ifThen (info : StmtInfo) (condition : Expr) (body : Stmt)
  | ifElse (info : StmtInfo) (condition : Expr) (body alternative : Stmt)
  | whileLoop (info : StmtInfo) (condition : Expr) (body : Stmt)
  | forLoop (info : StmtInfo) (init : VarDecl) (condition : Expr) (update : Assignment)
      (body : Stmt) (scope : Option ScopeId)
  | ret (info : StmtInfo) (returned : Return)
  | block (info : StmtInfo) (stmts : List Stmt) (scope : Option ScopeId)
deriving Inhabited

namespace Stmt

/-- What a statement carries besides its form. -/
def info : Stmt → StmtInfo
  | varDecl info _ => info
  | assign assignment => assignment.info
  | fieldAssign info .. => info
  | call info _ => info
  | ifThen info .. => info
  | ifElse info .. => info
  | whileLoop info .. => info
  | forLoop info .. => info
  | ret info _ => info
  | block info .. => info

/-- Whether a statement is a block. -/
def isBlock : Stmt → Bool
  | block .. => true
  | _ => false

end Stmt

end KnightFront
