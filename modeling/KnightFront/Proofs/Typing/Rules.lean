import KnightFront.Proofs.Symbols.Ancestry
import KnightFront.Proofs.Tree.Traversal
import Mathlib.Data.List.Forall2

namespace KnightFront

/-!
# The type system

The rules that say which type an expression has, and which statements and
declarations are well typed.  They speak of a tree whose names are bound, and
of the classes that are declared.  There is no rule for a name that is not
bound and none that gives the error type to a mistake: what is wrong has no
type.  The types that a checker may have recorded on the nodes do not count.
-/

variable (model : SymbolModel)

/-- Two types whose values can be compared with each other. -/
inductive Comparable : Ty → Ty → Prop where
  | int : Comparable .int .int
  | string : Comparable .string .string
  | bool : Comparable .bool .bool
  | below {upper lower : String} (fits : Assignable model (.named upper) (.named lower)) :
      Comparable (.named upper) (.named lower)
  | above {upper lower : String} (fits : Assignable model (.named upper) (.named lower)) :
      Comparable (.named lower) (.named upper)

/-- The operand types and the result type of an operator. -/
inductive BinaryOp.HasTy : BinaryOp → Ty → Ty → Ty → Prop where
  | sum : HasTy .plus .int .int .int
  | concatenation : HasTy .plus .string .string .string
  | numberInFront : HasTy .plus .int .string .string
  | numberBehind : HasTy .plus .string .int .string
  | arithmetic {op : BinaryOp} (kind : op.isArithmetic = true) : HasTy op .int .int .int
  | ordering {op : BinaryOp} (kind : op.isOrdering = true) : HasTy op .int .int .bool
  | logical {op : BinaryOp} (kind : op.isLogical = true) : HasTy op .bool .bool .bool
  | equality {op : BinaryOp} {left right : Ty} (kind : op.isEquality = true)
      (fits : Comparable model left right) : HasTy op left right .bool

/-- The name of a function of this signature. -/
def NameUse.Calls (used : NameUse) (signature : Signature) : Prop :=
  used.binding.bind Binding.signature? = some signature

/-- The name of this variable. -/
def NameUse.Assigns (used : NameUse) (entity : Variable) : Prop :=
  used.binding.bind Binding.entity? = some entity

/-- A signature accepts arguments of these types. -/
def Signature.Accepts (signature : Signature) (args : List Ty) : Prop :=
  List.Forall₂ (Assignable model) signature.parameterTys args

namespace Expr

mutual

/-- The type of an expression. -/
inductive HasTy : Expr → Ty → Prop where
  | int {info : ExprInfo} {value : Int} : HasTy (.int info value) .int
  | string {info : ExprInfo} {value : String} : HasTy (.string info value) .string
  | bool {info : ExprInfo} {value : Bool} : HasTy (.bool info value) .bool
  | name {info : ExprInfo} {used : NameUse} {binding : Binding}
      (bound : used.binding = some binding) : HasTy (.name info used) binding.ty
  | binary {info : ExprInfo} {op : BinaryOp} {left right : Expr} {leftTy rightTy ty : Ty}
      (leftTyped : HasTy left leftTy) (rightTyped : HasTy right rightTy)
      (applies : op.HasTy model leftTy rightTy ty) : HasTy (.binary info op left right) ty
  | call {info : ExprInfo} {callee : NameUse} {args : List Expr} {argTys : List Ty}
      {signature : Signature} (calls : callee.Calls signature) (argsTyped : HaveTys args argTys)
      (accepts : signature.Accepts model argTys) : HasTy (.call info callee args) signature.returnTy
  | methodCall {info : ExprInfo} {receiver : Expr} {callee : NameUse} {args : List Expr}
      {receiverTy : Ty} {argTys : List Ty} {signature : Signature}
      (receiverTyped : HasTy receiver receiverTy) (calls : callee.Calls signature)
      (argsTyped : HaveTys args argTys) (accepts : signature.Accepts model argTys) :
      HasTy (.methodCall info receiver callee args) signature.returnTy
  | field {info : ExprInfo} {receiver : Expr} {used : NameUse} {receiverTy : Ty} {binding : Binding}
      (receiverTyped : HasTy receiver receiverTy) (bound : used.binding = some binding) :
      HasTy (.field info receiver used) binding.ty
  | newInstance {info : ExprInfo} {className : NameUse} {binding : Binding}
      (bound : className.binding = some binding) : HasTy (.newInstance info className) binding.ty
  | newArray {info : ExprInfo} {element : ElementTy} {length : Expr}
      (lengthTyped : HasTy length .int) : HasTy (.newArray info element length) (.array element)
  | index {info : ExprInfo} {base position : Expr} {element : ElementTy}
      (baseTyped : HasTy base (.array element)) (positionTyped : HasTy position .int) :
      HasTy (.index info base position) element.ty
  | emptyArray {info : ExprInfo} : HasTy (.array info []) (.array .int)
  | array {info : ExprInfo} {first : Expr} {rest : List Expr} {element : ElementTy}
      (firstTyped : HasTy first element.ty)
      (restTyped : HaveTys rest (List.replicate rest.length element.ty)) :
      HasTy (.array info (first :: rest)) (.array element)

/-- The types of expressions, one by one. -/
inductive HaveTys : List Expr → List Ty → Prop where
  | nil : HaveTys [] []
  | cons {first : Expr} {rest : List Expr} {firstTy : Ty} {restTys : List Ty}
      (firstTyped : HasTy first firstTy) (restTyped : HaveTys rest restTys) :
      HaveTys (first :: rest) (firstTy :: restTys)

end

/-- The type of an expression whose value is put where the given type is
required. -/
def Fits (expected : Ty) (expr : Expr) : Prop :=
  ∃ actual, HasTy model expr actual ∧ Assignable model expected actual

end Expr

/-- A declaration is of a type that has values, and the initial value fits. -/
structure VarDecl.WellTyped (decl : VarDecl) : Prop where
  notVoid : decl.ty ≠ .void
  init : ∀ init ∈ decl.init, init.Fits model decl.ty

/-- An assignment to a variable or, with an index, to an element of an array
variable, of a value that fits. -/
def Assignment.WellTyped (assignment : Assignment) : Prop :=
  ∃ entity, assignment.target.Assigns entity ∧
    match assignment.index with
    | none => assignment.value.Fits model entity.ty
    | some index =>
        index.HasTy model .int ∧
          ∃ element, entity.ty = .array element ∧ assignment.value.Fits model element.ty

/-- A return without a value from a void function, or with a value that fits
from another one. -/
def Return.WellTyped (returnTy : Ty) (returned : Return) : Prop :=
  match returned.value with
  | none => returnTy = .void
  | some value => returnTy ≠ .void ∧ value.Fits model returnTy

namespace Stmt

mutual

/-- A well typed statement in a function of the given return type. -/
def WellTyped (returnTy : Ty) : Stmt → Prop
  | varDecl _ decl => decl.WellTyped model
  | assign assignment => assignment.WellTyped model
  | fieldAssign _ receiver used value =>
      (∃ receiverTy, receiver.HasTy model receiverTy) ∧
        ∃ entity, used.Assigns entity ∧ value.Fits model entity.ty
  | call _ expr => ∃ ty, expr.HasTy model ty
  | ifThen _ condition body => condition.HasTy model .bool ∧ WellTyped returnTy body
  | ifElse _ condition body alternative =>
      condition.HasTy model .bool ∧ WellTyped returnTy body ∧ WellTyped returnTy alternative
  | whileLoop _ condition body => condition.HasTy model .bool ∧ WellTyped returnTy body
  | forLoop _ init condition update body _ =>
      init.WellTyped model ∧ condition.HasTy model .bool ∧ update.WellTyped model ∧
        WellTyped returnTy body
  | ret _ returned => returned.WellTyped model returnTy
  | block _ stmts _ => WellTypedList returnTy stmts

/-- Well typed statements, one after another. -/
def WellTypedList (returnTy : Ty) : List Stmt → Prop
  | [] => True
  | first :: rest => WellTyped returnTy first ∧ WellTypedList returnTy rest

end

end Stmt

/-- A function whose statements are well typed.  Unless it is void, a return
closes its body. -/
structure FunctionDecl.WellTyped (decl : FunctionDecl) : Prop where
  body : Stmt.WellTypedList model decl.head.returnTy decl.body
  closing : ∀ returned ∈ decl.closing, returned.WellTyped model decl.head.returnTy
  closes : decl.closing = none → decl.head.returnTy = .void

/-- A class whose fields and methods are well typed. -/
structure ClassDecl.WellTyped (decl : ClassDecl) : Prop where
  fields : ∀ field ∈ decl.fields, field.WellTyped model
  methods : ∀ method ∈ decl.methods, method.WellTyped model

/-- A well typed declaration at the top level. -/
def Item.WellTyped : Item → Prop
  | inclusion _ => True
  | enumeration _ => True
  | interface _ => True
  | classDecl decl => decl.WellTyped model
  | function decl => decl.WellTyped model
  | globalVariable decl => decl.WellTyped model

/-- A well typed file. -/
def Program.WellTyped (program : Program) : Prop := ∀ item ∈ program.items, item.WellTyped model

end KnightFront
