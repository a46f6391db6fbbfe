import KnightFront.Analysis.Resolution
import KnightFront.Proofs.Symbols.Closed
import KnightFront.Proofs.Tree.Written

namespace KnightFront

/-!
# Linked trees

What name resolution leaves behind when it finds no error.  Every name is
bound to something of declared types, with one exception: a member behind a
receiver that names and literals give no type stays unbound, and nothing is
reported.  Such a receiver has no type in the type system either, so typing
reports it later.  Until then the exception is part of the definition.
-/

/-- A name bound to something of declared types. -/
def NameUse.Bound (known : SymbolModel) (used : NameUse) : Prop :=
  ∃ binding, used.binding = some binding ∧ binding.Declared known

/-- A name bound to a function of declared types. -/
def NameUse.Callable (known : SymbolModel) (used : NameUse) : Prop :=
  ∃ signature, used.binding.bind Binding.signature? = some signature ∧ signature.Declared known

/-- A name bound to something that has a value of a declared type. -/
def NameUse.Valued (known : SymbolModel) (used : NameUse) : Prop :=
  ∃ binding, used.binding = some binding ∧ binding.ty.Declared known

/-- A member behind a receiver is linked as it should be if the receiver has a
type, which is not that of a function, and stays unbound otherwise. -/
structure NameUse.MemberOf (receiver : Option Ty) (linked : NameUse → Prop) (used : NameUse) :
    Prop where
  unbound : receiver = none → used.binding = none
  linked : ∀ ty, receiver = some ty → ty ≠ .function ∧ linked used

namespace Expr

variable (known : SymbolModel)

mutual

/-- An expression with linked names. -/
def Linked : Expr → Prop
  | name _ used => used.Bound known
  | binary _ _ left right => Linked left ∧ Linked right
  | call _ callee args => callee.Callable known ∧ LinkedList args
  | methodCall _ receiver callee args =>
      Linked receiver ∧ LinkedList args ∧
        callee.MemberOf receiver.staticTy? (NameUse.Callable known)
  | field _ receiver used =>
      Linked receiver ∧ used.MemberOf receiver.staticTy? (NameUse.Valued known)
  | newInstance _ className => className.Valued known
  | newArray _ _ length => Linked length
  | index _ base position => Linked base ∧ Linked position
  | array _ items => LinkedList items
  | int .. | string .. | bool .. => True

/-- Expressions with linked names. -/
def LinkedList : List Expr → Prop
  | [] => True
  | first :: rest => Linked first ∧ LinkedList rest

end

end Expr

/-- A declaration of a declared type, with a linked initial value. -/
structure VarDecl.Linked (known : SymbolModel) (decl : VarDecl) : Prop where
  ty : decl.ty.Declared known
  init : ∀ init ∈ decl.init, init.Linked known

/-- An assignment with linked names. -/
structure Assignment.Linked (known : SymbolModel) (assignment : Assignment) : Prop where
  target : assignment.target.Bound known
  index : ∀ index ∈ assignment.index, index.Linked known
  value : assignment.value.Linked known

/-- A return with linked names. -/
def Return.Linked (known : SymbolModel) (returned : Return) : Prop :=
  ∀ value ∈ returned.value, value.Linked known

namespace Stmt

variable (known : SymbolModel)

mutual

/-- A statement with linked names.  Constructs that open a scope know it. -/
def Linked : Stmt → Prop
  | varDecl _ decl => decl.Linked known
  | assign assignment => assignment.Linked known
  | fieldAssign _ receiver used value =>
      receiver.Linked known ∧ used.MemberOf receiver.staticTy? (NameUse.Valued known) ∧
        value.Linked known
  | call _ expr => expr.Linked known ∧ expr.isCall = true
  | ifThen _ condition body => condition.Linked known ∧ Linked body
  | ifElse _ condition body alternative =>
      condition.Linked known ∧ Linked body ∧ Linked alternative
  | whileLoop _ condition body => condition.Linked known ∧ Linked body
  | forLoop _ init condition update body scope =>
      init.Linked known ∧ condition.Linked known ∧ update.Linked known ∧ Linked body ∧
        scope.isSome = true
  | ret _ returned => returned.Linked known
  | block _ stmts scope => LinkedList stmts ∧ scope.isSome = true

/-- Statements with linked names. -/
def LinkedList : List Stmt → Prop
  | [] => True
  | first :: rest => Linked first ∧ LinkedList rest

end

end Stmt

/-- A function of a declared signature, with linked names in its body. -/
structure FunctionDecl.Linked (known : SymbolModel) (decl : FunctionDecl) : Prop where
  tys : ∀ ty ∈ decl.head.tys, ty.Declared known
  body : Stmt.LinkedList known decl.body
  closing : ∀ returned ∈ decl.closing, returned.Linked known
  paramScope : decl.paramScope.isSome = true
  bodyScope : decl.bodyScope.isSome = true

/-- A class with linked names. -/
structure ClassDecl.Linked (known : SymbolModel) (decl : ClassDecl) : Prop where
  parent : ∀ used ∈ decl.parent, used.Bound known
  uses : ∀ used ∈ decl.uses, used.Bound known
  fields : ∀ field ∈ decl.fields, field.Linked known
  methods : ∀ method ∈ decl.methods, method.Linked known

/-- An interface with linked names. -/
structure InterfaceDecl.Linked (known : SymbolModel) (decl : InterfaceDecl) : Prop where
  bases : ∀ used ∈ decl.bases, used.Bound known
  tys : ∀ head ∈ decl.methods, ∀ ty ∈ head.tys, ty.Declared known

/-- A declaration with linked names. -/
def Item.Linked (known : SymbolModel) : Item → Prop
  | inclusion _ => True
  | enumeration _ => True
  | interface decl => decl.Linked known
  | classDecl decl => decl.Linked known
  | function decl => decl.Linked known
  | globalVariable decl => decl.Linked known

/-- A file with linked names. -/
def Program.Linked (known : SymbolModel) (program : Program) : Prop :=
  ∀ item ∈ program.items, item.Linked known

section StaticTypes

variable {known : SymbolModel} {used : NameUse} {binding : Binding}

/-- A binding of declared types has such a type itself, unless it is one of a
function. -/
theorem Binding.Declared.ty (declared : binding.Declared known) :
    binding.ty.Declared known ∨ binding.ty = .function := by
  cases binding with
  | function => exact Or.inr rfl
  | _ => exact Or.inl declared

/-- The return type of a callable name is declared. -/
theorem NameUse.Callable.returnTy (callable : used.Callable known) {ty : Ty}
    (found : (used.binding.bind Binding.signature?).map Signature.returnTy = some ty) :
    ty.Declared known := by
  rcases callable with ⟨signature, bound, declared⟩
  rw [bound] at found
  cases found
  exact declared.returnTy

/-- The type of a valued name is declared. -/
theorem NameUse.Valued.ty (valued : used.Valued known) {ty : Ty}
    (found : used.binding.map Binding.ty = some ty) : ty.Declared known := by
  rcases valued with ⟨binding, bound, declared⟩
  rw [bound] at found
  cases found
  exact declared

/-- If names and literals decide a type for a linked expression, then it is a
declared one or that of a function. -/
theorem Expr.Linked.staticTy {expr : Expr} (linked : expr.Linked known) {ty : Ty}
    (found : expr.staticTy? = some ty) : ty.Declared known ∨ ty = .function := by
  cases expr with
  | int | string | bool | newArray => cases found; exact Or.inl trivial
  | name info used =>
      rcases linked with ⟨binding, bound, declared⟩
      rw [staticTy?, bound] at found
      cases found
      exact declared.ty
  | binary info op left right =>
      rw [staticTy?] at found
      split at found
      next => cases found; exact Or.inl trivial
      next => split at found <;> cases found <;> exact Or.inl trivial
  | call info callee args => exact Or.inl (linked.1.returnTy found)
  | methodCall info receiver callee args =>
      have member := linked.2.2
      cases known : receiver.staticTy? with
      | none =>
          rw [staticTy?, member.unbound known] at found
          cases found
      | some receiverTy => exact Or.inl ((member.linked _ known).2.returnTy found)
  | field info receiver used =>
      have member := linked.2
      cases known : receiver.staticTy? with
      | none =>
          rw [staticTy?, member.unbound known] at found
          cases found
      | some receiverTy => exact Or.inl ((member.linked _ known).2.ty found)
  | newInstance info className => exact Or.inl (NameUse.Valued.ty linked found)
  | index info base position =>
      rw [staticTy?] at found
      rcases Option.bind_eq_some_iff.mp found with ⟨array, _, isElement⟩
      cases array with
      | array element => cases element <;> cases isElement <;> exact Or.inl trivial
      | _ => cases isElement
  | array info items =>
      cases items with
      | nil => cases found; exact Or.inl trivial
      | cons first rest =>
          rw [staticTy?, staticArrayTy?] at found
          rcases Option.bind_eq_some_iff.mp found with ⟨element, _, isArray⟩
          cases element <;> cases isArray <;> exact Or.inl trivial

end StaticTypes

end KnightFront
