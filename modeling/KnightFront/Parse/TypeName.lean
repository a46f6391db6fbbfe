import KnightFront.Parse.Cursor

namespace KnightFront
namespace Parser

/-!
# Reading type names

A type is a type word, `int` or `string` with brackets behind it, or the name
of a class or interface.  No other type has an array form.
-/

/-- The type of an element word, or its array type if brackets follow. -/
def arraySuffix (element : ElementTy) : Parser Ty := do
  if (← currentKind) = .openBracket then
    let _ ← take
    let _ ← expect .closeBracket
    return .array element
  else return element.ty

/-- A type and its span. -/
def typeName : Parser (Ty × Span) := do
  let start ← position
  let ty ←
    match ← currentKind with
    | .intWord => do
        let _ ← take
        arraySuffix .int
    | .stringWord => do
        let _ ← take
        arraySuffix .string
    | .boolWord => do
        let _ ← take
        pure .bool
    | .voidWord => do
        let _ ← take
        pure .void
    | .identifier => do
        let token ← take
        pure (.named token.value)
    | _ => misplaced "expected a type"
  return (ty, ← spanFrom start)

/-- Whether a declaration of a variable begins here: a type word, or two
names in a row. -/
def startsDeclaration : Parser Bool := do
  match ← currentKind with
  | .intWord | .stringWord | .boolWord | .voidWord => return true
  | .identifier => return decide ((← nextKind) = .identifier)
  | _ => return false

end Parser
end KnightFront
