import KnightFront.Source.Position
import KnightFront.Symbols.NameSet
import KnightFront.Symbols.Table
import KnightFront.Ty

namespace KnightFront

/-!
# What programs declare

The records that declarations leave behind.  They speak of types and
positions only, so they can be compared and looked up without the tree that
declared them.
-/

/-- A global, field, parameter or local.  Parameters and locals have a slot,
which counts the parameters and locals of their function in the order of
declaration; globals and fields have none. -/
structure Variable where
  name : String
  ty : Ty
  slot : Option Nat
  position : Position
deriving DecidableEq, Repr, Inhabited

instance : Named Variable := ⟨Variable.name⟩

/-- The named parameters of a function and its return type. -/
structure Signature where
  parameters : List (String × Ty)
  returnTy : Ty
deriving DecidableEq, Repr, Inhabited

namespace Signature

/-- The types that a call must supply, in order. -/
def parameterTys (signature : Signature) : List Ty :=
  signature.parameters.map Prod.snd

/-- The same parameter types in the same order and the same return type.
Parameter names do not count. -/
def agrees (first second : Signature) : Bool :=
  decide (first.returnTy = second.returnTy) && decide (first.parameterTys = second.parameterTys)

theorem agrees_eq_true_iff {first second : Signature} :
    first.agrees second = true ↔
      first.returnTy = second.returnTy ∧ first.parameterTys = second.parameterTys := by
  simp [agrees]

end Signature

/-- A function or method.  `locals` holds its parameters and locals by name,
the first declaration of a name before later ones in inner blocks. -/
structure FunctionRecord where
  name : String
  signature : Signature
  locals : Table Variable
  position : Position
  builtin : Bool
deriving Inhabited

instance : Named FunctionRecord := ⟨FunctionRecord.name⟩

/-- A class with its fields and methods, the name of its parent and the names
of the interfaces it uses.  The names need not be declared anywhere. -/
structure ClassRecord where
  name : String
  parent : Option String
  methods : Table FunctionRecord
  fields : Table Variable
  uses : NameSet
  position : Position
deriving Inhabited

instance : Named ClassRecord := ⟨ClassRecord.name⟩

/-- An interface with its methods and the names of the interfaces it
extends. -/
structure InterfaceRecord where
  name : String
  methods : Table FunctionRecord
  bases : NameSet
  position : Position
deriving Inhabited

instance : Named InterfaceRecord := ⟨InterfaceRecord.name⟩

end KnightFront
