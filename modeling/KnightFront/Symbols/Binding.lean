import KnightFront.Symbols.Entity

namespace KnightFront

/-!
# Bindings

What a used name refers to.  A binding carries a copy of the declaration, so
a bound tree can be typed without looking anything up again.
-/

/-- The declaration behind a used name. -/
inductive Binding where
  | localVariable (entity : Variable)
  | parameter (entity : Variable)
  /-- `owner` is the class that declares the field. -/
  | field (owner : String) (entity : Variable)
  | globalVariable (entity : Variable)
  /-- `owner` is the declaring class or interface of a method; a free
  function has none. -/
  | function (owner : Option String) (name : String) (signature : Signature)
  | classType (name : String)
  | interfaceType (name : String)
deriving DecidableEq, Repr, Inhabited

namespace Binding

/-- The declared type of what is bound. -/
def ty : Binding → Ty
  | localVariable entity => entity.ty
  | parameter entity => entity.ty
  | field _ entity => entity.ty
  | globalVariable entity => entity.ty
  | function .. => .function
  | classType name => .named name
  | interfaceType name => .named name

/-- The variable that is bound, if it is one. -/
def entity? : Binding → Option Variable
  | localVariable entity => some entity
  | parameter entity => some entity
  | field _ entity => some entity
  | globalVariable entity => some entity
  | _ => none

/-- The signature that is bound, if it is a function's. -/
def signature? : Binding → Option Signature
  | function _ _ signature => some signature
  | _ => none

/-- A binding of a variable has the variable's type. -/
theorem ty_of_entity? {binding : Binding} {entity : Variable}
    (found : binding.entity? = some entity) : binding.ty = entity.ty := by
  cases binding <;> cases found <;> rfl

end Binding

end KnightFront
