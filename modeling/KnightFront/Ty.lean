namespace KnightFront

/-!
# Types

The types a declaration can write and the types an expression can have.  Only
`int` and `string` have array forms, so an array type holds one of these two
and not a type.  A class or interface type is known by its name alone; which
of the two it is, the declarations decide.

`function` is the type of a name bound to a function, and `error` stands for
what could not be typed.  No program text writes these two.
-/

/-- The types that an array can hold. -/
inductive ElementTy where
  | int
  | string
deriving DecidableEq, Repr, Inhabited

/-- A type. -/
inductive Ty where
  | int
  | string
  | bool
  | void
  | array (element : ElementTy)
  | function
  | named (name : String)
  | error
deriving DecidableEq, Repr, Inhabited

/-- The type of a single element. -/
def ElementTy.ty : ElementTy → Ty
  | int => .int
  | string => .string

namespace Ty

/-- The type of an array's elements. -/
def element? : Ty → Option Ty
  | array element => some element.ty
  | _ => none

/-- The array type over an element type. -/
def arrayOf? : Ty → Option Ty
  | int => some (.array .int)
  | string => some (.array .string)
  | _ => none

/-- The spelling of a type.  A class of the name `function` is spelled like
the function type. -/
def describe : Ty → String
  | int => "int"
  | string => "string"
  | bool => "bool"
  | void => "void"
  | array .int => "int[]"
  | array .string => "string[]"
  | function => "function"
  | named name => name
  | error => "<error>"

end Ty

end KnightFront
