import KnightFront.Parse.Expr
import KnightFront.Proofs.Token.Spelling
import KnightFront.Proofs.Tree.Traversal

namespace KnightFront

/-!
# Trees that source text can write

A tree can hold what no text writes: a name that is a reserved word, a number
that does not fit, the type of a function, or a statement where no statement
may stand.  The predicates here exclude this.  Every tree that is read from a
source file satisfies them, and they are what printing needs.  Reading binds
no name, so the name uses in such a tree are free of bindings too.

Some of them speak of what a text would read back differently.  An
alternative belongs to the nearest condition, so the statement before it must
not end in a condition without an alternative.  A return before the brace
closes a function, so such a return is no part of the body.
-/

/-- A type that a declaration can write. -/
def Ty.Written : Ty → Prop
  | named name => IsIdentifier name
  | function => False
  | error => False
  | _ => True

/-- A name use as source text can write it, with nothing found for it yet. -/
structure NameUse.Written (used : NameUse) : Prop where
  identifier : IsIdentifier used.text
  unbound : used.binding = none

namespace Expr

/-- Whether the name or number in a node itself can be written. -/
def WrittenNode : Expr → Prop
  | int _ value => 0 ≤ value ∧ value ≤ Parser.largestNumber
  | name _ used => used.Written
  | call _ callee _ => callee.Written
  | methodCall _ _ callee _ => callee.Written
  | field _ _ used => used.Written
  | newInstance _ className => className.Written
  | _ => True

/-- An expression that source text can write. -/
def Written (expr : Expr) : Prop := ∀ node ∈ expr.nodes, node.WrittenNode

/-- Several expressions that source text can write. -/
def WrittenList (exprs : List Expr) : Prop := ∀ node ∈ nodesOfList exprs, node.WrittenNode

@[simp]
theorem writtenList_nil : WrittenList [] := by simp [WrittenList, nodesOfList]

@[simp]
theorem writtenList_cons {first : Expr} {rest : List Expr} :
    WrittenList (first :: rest) ↔ first.Written ∧ WrittenList rest := by
  simp [WrittenList, Written, nodesOfList, or_imp, forall_and]

theorem writtenList_iff {exprs : List Expr} :
    WrittenList exprs ↔ ∀ expr ∈ exprs, expr.Written := by
  induction exprs with
  | nil => simp
  | cons first rest inductionHypothesis => simp [inductionHypothesis]

section Nodes

attribute [local simp] Written WrittenList nodes WrittenNode

variable {info : ExprInfo} {used : NameUse} {left right : Expr} {exprs : List Expr}

@[simp]
theorem written_int {value : Int} :
    (int info value).Written ↔ 0 ≤ value ∧ value ≤ Parser.largestNumber := by
  simp

@[simp]
theorem written_string {value : String} : (string info value).Written := by
  simp

@[simp]
theorem written_bool {value : Bool} : (bool info value).Written := by
  simp

@[simp]
theorem written_name : (name info used).Written ↔ used.Written := by
  simp

@[simp]
theorem written_binary {op : BinaryOp} :
    (binary info op left right).Written ↔ left.Written ∧ right.Written := by
  simp [or_imp, forall_and]

@[simp]
theorem written_call : (call info used exprs).Written ↔ used.Written ∧ WrittenList exprs := by
  simp

@[simp]
theorem written_methodCall :
    (methodCall info left used exprs).Written ↔
      used.Written ∧ left.Written ∧ WrittenList exprs := by
  simp [or_imp, forall_and]

@[simp]
theorem written_field : (field info left used).Written ↔ used.Written ∧ left.Written := by
  simp

@[simp]
theorem written_newInstance : (newInstance info used).Written ↔ used.Written := by
  simp

@[simp]
theorem written_newArray {element : ElementTy} :
    (newArray info element left).Written ↔ left.Written := by
  simp

@[simp]
theorem written_index : (index info left right).Written ↔ left.Written ∧ right.Written := by
  simp [or_imp, forall_and]

@[simp]
theorem written_array : (array info exprs).Written ↔ WrittenList exprs := by
  simp

end Nodes

/-- Whether an expression is a name, a call, or a member behind such an
expression.  Only these begin with a name and are not parenthesised. -/
def isPath : Expr → Bool
  | name .. => true
  | call .. => true
  | methodCall _ receiver _ _ => isPath receiver
  | field _ receiver _ => isPath receiver
  | _ => false

end Expr

/-- A declaration that source text can write. -/
structure VarDecl.Written (decl : VarDecl) : Prop where
  ty : decl.ty.Written
  name : IsIdentifier decl.name
  exprs : ∀ expr ∈ decl.exprs, expr.Written

/-- An assignment that source text can write. -/
structure Assignment.Written (assignment : Assignment) : Prop where
  target : assignment.target.Written
  exprs : ∀ expr ∈ assignment.exprs, expr.Written

/-- A return that source text can write. -/
def Return.Written (returned : Return) : Prop := ∀ expr ∈ returned.exprs, expr.Written

namespace Stmt

/-- Whether a statement is a declaration. -/
def isVarDecl : Stmt → Bool
  | varDecl .. => true
  | _ => false

/-- Whether a statement is a return. -/
def isRet : Stmt → Bool
  | ret .. => true
  | _ => false

/-- Whether a statement ends in a condition without an alternative, so that an
alternative behind it would belong to that condition. -/
def takesElse : Stmt → Bool
  | ifThen .. => true
  | ifElse _ _ _ alternative => takesElse alternative
  | whileLoop _ _ body => takesElse body
  | forLoop _ _ _ _ body _ => takesElse body
  | _ => false

mutual

/-- A statement that source text can write. -/
def Written : Stmt → Prop
  | varDecl _ decl => decl.Written
  | assign assignment => assignment.Written
  | fieldAssign _ receiver used value =>
      receiver.Written ∧ receiver.isPath = true ∧ used.Written ∧ value.Written
  | call _ expr => expr.Written ∧ expr.isCall = true ∧ expr.isPath = true
  | ifThen _ condition body => condition.Written ∧ Written body ∧ body.isVarDecl = false
  | ifElse _ condition body alternative =>
      condition.Written ∧ Written body ∧ Written alternative ∧ body.isVarDecl = false ∧
        alternative.isVarDecl = false ∧ body.takesElse = false
  | whileLoop _ condition body => condition.Written ∧ Written body ∧ body.isVarDecl = false
  | forLoop _ init condition update body _ =>
      init.Written ∧ condition.Written ∧ update.Written ∧ Written body ∧ body.isVarDecl = false
  | ret _ returned => returned.Written
  | block _ stmts _ => WrittenList stmts

/-- Statements that source text can write in one block. -/
def WrittenList : List Stmt → Prop
  | [] => True
  | first :: rest => Written first ∧ WrittenList rest

end

theorem writtenList_iff {stmts : List Stmt} :
    WrittenList stmts ↔ ∀ stmt ∈ stmts, stmt.Written := by
  induction stmts with
  | nil => simp [WrittenList]
  | cons first rest inductionHypothesis => simp [WrittenList, inductionHypothesis]

end Stmt

/-- A parameter that source text can write. -/
structure Param.Written (param : Param) : Prop where
  ty : param.ty.Written
  name : IsIdentifier param.name

/-- The head of a function that source text can write. -/
structure FunctionHead.Written (head : FunctionHead) : Prop where
  name : IsIdentifier head.name
  params : ∀ param ∈ head.params, param.Written
  returnTy : head.returnTy.Written

/-- A function that source text can write. -/
structure FunctionDecl.Written (decl : FunctionDecl) : Prop where
  head : decl.head.Written
  body : ∀ stmt ∈ decl.body, stmt.Written
  closing : ∀ returned ∈ decl.closing, returned.Written
  /-- Without a return of its own, the body does not end in one. -/
  closes : decl.closing = none → ∀ stmt ∈ decl.body.getLast?, stmt.isRet = false

/-- A class that source text can write. -/
structure ClassDecl.Written (decl : ClassDecl) : Prop where
  name : IsIdentifier decl.name
  parent : ∀ used ∈ decl.parent, used.Written
  uses : ∀ used ∈ decl.uses, used.Written
  fields : ∀ field ∈ decl.fields, field.Written
  methods : ∀ method ∈ decl.methods, method.Written

/-- An interface that source text can write. -/
structure InterfaceDecl.Written (decl : InterfaceDecl) : Prop where
  name : IsIdentifier decl.name
  bases : ∀ used ∈ decl.bases, used.Written
  methods : ∀ head ∈ decl.methods, head.Written

/-- A declaration that source text can write. -/
def Item.Written : Item → Prop
  | inclusion decl => IsIdentifier decl.name
  | enumeration decl => IsIdentifier decl.name ∧ ∀ member ∈ decl.members, IsIdentifier member.1
  | interface decl => decl.Written
  | classDecl decl => decl.Written
  | function decl => decl.Written
  | globalVariable decl => decl.Written

/-- A file whose declarations source text can write. -/
def Program.Written (program : Program) : Prop := ∀ item ∈ program.items, item.Written

end KnightFront
