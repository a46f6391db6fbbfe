import KnightFront.Proofs.Retyping.Types
import KnightFront.Proofs.Tree.Roles

namespace KnightFront

/-!
# Programs with an unknown type

Two programs are alike but that variables of a class or interface type may be
declared with an unknown type instead.  Fields, globals and locals may be
retyped, parameters and what functions return are left alone.  The spans around a
type stay as they are.
-/

/-- A declaration that is left alone, or that has the unknown type instead of a
class or interface type. -/
inductive VarDecl.Retyped (unknown : String) : VarDecl → VarDecl → Prop where
  | same (decl : VarDecl) : Retyped unknown decl decl
  | changed {decl : VarDecl} {name : String} (named : decl.ty = .named name) (tySpan : Span) :
      Retyped unknown decl { decl with ty := .named unknown, tySpan := tySpan }

mutual

/-- Statements that are alike but for the types of locals. -/
inductive Stmt.Retyped (unknown : String) : Stmt → Stmt → Prop where
  | varDecl {info : StmtInfo} {decl decl' : VarDecl} (declaration : decl.Retyped unknown decl') :
      Retyped unknown (.varDecl info decl) (.varDecl info decl')
  | assign {assignment : Assignment} : Retyped unknown (.assign assignment) (.assign assignment)
  | fieldAssign {info : StmtInfo} {receiver : Expr} {used : NameUse} {value : Expr} :
      Retyped unknown (.fieldAssign info receiver used value)
        (.fieldAssign info receiver used value)
  | call {info : StmtInfo} {expr : Expr} : Retyped unknown (.call info expr) (.call info expr)
  | ifThen {info : StmtInfo} {condition : Expr} {body body' : Stmt}
      (inside : Retyped unknown body body') :
      Retyped unknown (.ifThen info condition body) (.ifThen info condition body')
  | ifElse {info : StmtInfo} {condition : Expr} {body body' alternative alternative' : Stmt}
      (inside : Retyped unknown body body') (other : Retyped unknown alternative alternative') :
      Retyped unknown (.ifElse info condition body alternative)
        (.ifElse info condition body' alternative')
  | whileLoop {info : StmtInfo} {condition : Expr} {body body' : Stmt}
      (inside : Retyped unknown body body') :
      Retyped unknown (.whileLoop info condition body) (.whileLoop info condition body')
  | forLoop {info : StmtInfo} {init init' : VarDecl} {condition : Expr} {update : Assignment}
      {body body' : Stmt} {scope : Option ScopeId} (declaration : init.Retyped unknown init')
      (inside : Retyped unknown body body') :
      Retyped unknown (.forLoop info init condition update body scope)
        (.forLoop info init' condition update body' scope)
  | ret {info : StmtInfo} {returned : Return} :
      Retyped unknown (.ret info returned) (.ret info returned)
  | block {info : StmtInfo} {stmts stmts' : List Stmt} {scope : Option ScopeId}
      (inside : Stmt.RetypedList unknown stmts stmts') :
      Retyped unknown (.block info stmts scope) (.block info stmts' scope)

/-- Lists of statements that are alike but for the types of locals. -/
inductive Stmt.RetypedList (unknown : String) : List Stmt → List Stmt → Prop where
  | nil : RetypedList unknown [] []
  | cons {first first' : Stmt} {rest rest' : List Stmt} (head : Stmt.Retyped unknown first first')
      (tail : RetypedList unknown rest rest') :
      RetypedList unknown (first :: rest) (first' :: rest')

end

/-- Functions that are alike but for the types of locals. -/
inductive FunctionDecl.Retyped (unknown : String) : FunctionDecl → FunctionDecl → Prop where
  | body {decl : FunctionDecl} {body' : List Stmt}
      (inside : Stmt.RetypedList unknown decl.body body') :
      Retyped unknown decl { decl with body := body' }

/-- Classes that are alike but for the types of fields and of locals. -/
inductive ClassDecl.Retyped (unknown : String) : ClassDecl → ClassDecl → Prop where
  | members {decl : ClassDecl} {fields' : List VarDecl} {methods' : List FunctionDecl}
      (fields : List.Forall₂ (VarDecl.Retyped unknown) decl.fields fields')
      (methods : List.Forall₂ (FunctionDecl.Retyped unknown) decl.methods methods') :
      Retyped unknown decl { decl with fields := fields', methods := methods' }

/-- Declarations at the top level that are alike but for the types of
variables. -/
inductive Item.Retyped (unknown : String) : Item → Item → Prop where
  | inclusion (decl : IncludeDecl) : Retyped unknown (.inclusion decl) (.inclusion decl)
  | enumeration (decl : EnumDecl) : Retyped unknown (.enumeration decl) (.enumeration decl)
  | interface (decl : InterfaceDecl) : Retyped unknown (.interface decl) (.interface decl)
  | classDecl {decl decl' : ClassDecl} (inside : decl.Retyped unknown decl') :
      Retyped unknown (.classDecl decl) (.classDecl decl')
  | function {decl decl' : FunctionDecl} (inside : decl.Retyped unknown decl') :
      Retyped unknown (.function decl) (.function decl')
  | globalVariable {decl decl' : VarDecl} (inside : decl.Retyped unknown decl') :
      Retyped unknown (.globalVariable decl) (.globalVariable decl')

/-- Files that are alike but for the types of variables. -/
inductive Program.Retyped (unknown : String) : Program → Program → Prop where
  | items {program : Program} {items' : List Item}
      (inside : List.Forall₂ (Item.Retyped unknown) program.items items') :
      Retyped unknown program { program with items := items' }

namespace VarDecl

variable {unknown : String} {decl decl' : VarDecl}

namespace Retyped

variable (retyped : decl.Retyped unknown decl')

include retyped

theorem ty : decl.ty.Retyped unknown decl'.ty := by
  cases retyped with
  | same => exact .same _
  | changed named => rw [named]; exact .changed _

theorem name_eq : decl'.name = decl.name := by
  cases retyped <;> rfl

theorem nameSpan_eq : decl'.nameSpan = decl.nameSpan := by
  cases retyped <;> rfl

theorem init_eq : decl'.init = decl.init := by
  cases retyped <;> rfl

end Retyped

/-- What is to be reported of a declaration with the unknown type. -/
def unknownTys (unknown : String) (decl : VarDecl) : List Finding :=
  if decl.ty = .named unknown then [⟨decl.tySpan.start, .unknownType unknown⟩] else []

theorem unknownTys_of_eq (strange : decl.ty = .named unknown) :
    decl.unknownTys unknown = [⟨decl.tySpan.start, .unknownType unknown⟩] :=
  if_pos strange

theorem unknownTys_of_ne (known : decl.ty ≠ .named unknown) : decl.unknownTys unknown = [] :=
  if_neg known

end VarDecl

end KnightFront
