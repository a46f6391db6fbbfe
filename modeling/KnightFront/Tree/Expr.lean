import KnightFront.Symbols.Binding
import KnightFront.Tree.Operator

namespace KnightFront

/-!
# Expressions

The tree of an expression.  Besides its form a node has an identity, which is
unique within a file, its span, and room for its type; a used name has room
for what it refers to.  Parsing leaves this room empty.  The later passes fill
it in by building new trees.
-/

/-- The identity of a node within its file. -/
abbrev NodeId := Nat

/-- The use of a name, and what it was found to refer to. -/
structure NameUse where
  text : String
  span : Span
  binding : Option Binding := none
deriving DecidableEq, Repr, Inhabited

/-- What every expression node carries. -/
structure ExprInfo where
  id : NodeId
  span : Span
  ty : Option Ty := none
deriving DecidableEq, Repr, Inhabited

/-- An expression.  A call names a function or a method of the current class; a
method call has a receiver. -/
inductive Expr where
  | int (info : ExprInfo) (value : Int)
  | string (info : ExprInfo) (value : String)
  | bool (info : ExprInfo) (value : Bool)
  | name (info : ExprInfo) (used : NameUse)
  | binary (info : ExprInfo) (op : BinaryOp) (left right : Expr)
  | call (info : ExprInfo) (callee : NameUse) (args : List Expr)
  | methodCall (info : ExprInfo) (receiver : Expr) (callee : NameUse) (args : List Expr)
  | field (info : ExprInfo) (receiver : Expr) (used : NameUse)
  | newInstance (info : ExprInfo) (className : NameUse)
  | newArray (info : ExprInfo) (element : ElementTy) (length : Expr)
  | index (info : ExprInfo) (base position : Expr)
  | array (info : ExprInfo) (items : List Expr)
deriving Inhabited

namespace Expr

/-- What a node carries besides its form. -/
def info : Expr → ExprInfo
  | int info _ => info
  | string info _ => info
  | bool info _ => info
  | name info _ => info
  | binary info .. => info
  | call info .. => info
  | methodCall info .. => info
  | field info .. => info
  | newInstance info _ => info
  | newArray info .. => info
  | index info .. => info
  | array info _ => info

/-- The identity of an expression. -/
def id (expr : Expr) : NodeId := expr.info.id

/-- The span of an expression.  Parentheses around it do not belong to it. -/
def span (expr : Expr) : Span := expr.info.span

/-- The type found for an expression. -/
def ty (expr : Expr) : Option Ty := expr.info.ty

/-- Where an expression begins. -/
def position (expr : Expr) : Position := expr.span.start

/-- Whether an expression is a call, with or without a receiver. -/
def isCall : Expr → Bool
  | call .. => true
  | methodCall .. => true
  | _ => false

end Expr

end KnightFront
