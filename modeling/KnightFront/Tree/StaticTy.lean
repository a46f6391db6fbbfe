import KnightFront.Tree.Expr

namespace KnightFront
namespace Expr

/-!
# Types that names decide

Once the names in an expression are bound, they and the literals decide a
type for it, without a check that the parts fit together.  Name resolution
needs this type to find the class in which a member is sought.  Where a name
is not bound there is no type.
-/

mutual

/-- The type of an expression as far as names and literals decide it. -/
def staticTy? : Expr → Option Ty
  | int .. => some .int
  | string .. => some .string
  | bool .. => some .bool
  | name _ used => used.binding.map Binding.ty
  | binary _ op left right =>
      if op.isLogical || op.isEquality || op.isOrdering then some .bool
      else if op = .plus ∧ (staticTy? left = some .string ∨ staticTy? right = some .string) then
        some .string
      else some .int
  | call _ callee _ => (callee.binding.bind Binding.signature?).map Signature.returnTy
  | methodCall _ _ callee _ => (callee.binding.bind Binding.signature?).map Signature.returnTy
  | field _ _ used => used.binding.map Binding.ty
  | newInstance _ className => className.binding.map Binding.ty
  | newArray _ element _ => some (.array element)
  | index _ base _ => (staticTy? base).bind Ty.element?
  | array _ items => staticArrayTy? items

/-- The type of an array literal with the given items.  The first item
decides, and the empty literal holds numbers. -/
def staticArrayTy? : List Expr → Option Ty
  | [] => some (.array .int)
  | first :: _ => (staticTy? first).bind Ty.arrayOf?

end

end Expr
end KnightFront
