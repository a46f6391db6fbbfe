import KnightFront.Diagnostics.Diagnostic
import KnightFront.Tree.Operator
import KnightFront.Ty

namespace KnightFront

/-!
# Problems

What analysis can find wrong with a program that has been read.  Every
problem but one is an error; the conversion of a number in a concatenation is
a warning.
-/

/-- Whether members were sought in a class or in an interface. -/
inductive OwnerKind where
  | classType
  | interfaceType
deriving DecidableEq, Repr, Inhabited

/-- The word for a kind of owner. -/
def OwnerKind.name : OwnerKind → String
  | classType => "class"
  | interfaceType => "interface"

/-- What is wrong at some place of a program. -/
inductive Problem where
  /- Declarations of a name that is taken. -/
  | duplicateFunction (name : String)
  | duplicateVariable (name : String)
  | duplicateEnumMember (member enumeration : String)
  | duplicateInterface (name : String)
  | duplicateInterfaceMethod (method interface : String)
  | duplicateClass (name : String)
  | duplicateField (field owner : String)
  | duplicateMethod (method owner : String)
  | duplicateParameter (name function : String)
  | duplicateLocal (name function : String)
  /- Hierarchies that come back to where they began. -/
  | cyclicInheritance (name : String)
  | cyclicExtension (name : String)
  /- Names that refer to nothing. -/
  | undefinedClass (name : String)
  | undefinedInterface (name : String)
  | unknownType (name : String)
  | undefinedVariable (name : String)
  | undefinedFunction (name : String)
  | undefinedMethod (method : String) (kind : OwnerKind) (owner : String)
  | undefinedField (field : String) (kind : OwnerKind) (owner : String)
  | methodOfValue (method : String) (ty : Ty)
  | fieldOfValue (field : String) (ty : Ty)
  | interfaceInstance (name : String)
  | unknownInstance (name : String)
  /- Interfaces that a class does not keep. -/
  | missingMethod (className method interface : String)
  | mismatchedMethod (className method interface : String)
  /- Types that do not fit. -/
  | voidVariable (name : String)
  | unassignable (name : String) (expected actual : Ty)
  | notAssignable (name : String)
  | notIndexable (ty : Ty)
  | missingReturn (function : String) (expected : Ty)
  | missingReturnValue (function : String) (expected : Ty)
  | returnFromVoid (function : String)
  | mismatchedReturn (function : String) (expected actual : Ty)
  | conditionNotBool (actual : Ty)
  | indexNotInt (actual : Ty)
  | lengthNotInt (actual : Ty)
  | mixedArray
  | operandMismatch (op : BinaryOp) (left right : Ty)
  | argumentMismatch (callee : String) (actual expected : List Ty)
  /- Types that fit only after a conversion. -/
  | implicitConversion
deriving DecidableEq, Repr, Inhabited

namespace Problem

/-- How grave a problem is. -/
def severity : Problem → Severity
  | implicitConversion => .warning
  | _ => .error

private def named (name : String) : String := "'" ++ name ++ "'"

private def listed (tys : List Ty) : String := ", ".intercalate (tys.map Ty.describe)

/-- The wording of a problem. -/
def message : Problem → String
  | duplicateFunction name => "Function " ++ named name ++ " is already defined"
  | duplicateVariable name => "Variable " ++ named name ++ " is already defined"
  | duplicateEnumMember member enumeration =>
      "Enum member " ++ named member ++ " of " ++ named enumeration ++ " is already defined"
  | duplicateInterface name => "Interface " ++ named name ++ " is already defined"
  | duplicateInterfaceMethod method interface =>
      "Method " ++ named method ++ " is already declared in interface " ++ named interface
  | duplicateClass name => "Class " ++ named name ++ " is already defined"
  | duplicateField field owner =>
      "Field " ++ named field ++ " is already defined in class " ++ named owner
  | duplicateMethod method owner =>
      "Method " ++ named method ++ " is already defined in class " ++ named owner
  | duplicateParameter name function =>
      "Parameter " ++ named name ++ " is already defined in function " ++ named function
  | duplicateLocal name function =>
      "Variable " ++ named name ++ " is already defined in function " ++ named function
  | cyclicInheritance name => "Cyclic inheritance involving class " ++ named name
  | cyclicExtension name => "Cyclic extension involving interface " ++ named name
  | undefinedClass name => "Undefined class " ++ named name
  | undefinedInterface name => "Undefined interface " ++ named name
  | unknownType name => "Unknown type " ++ named name
  | undefinedVariable name => "Undefined variable " ++ named name
  | undefinedFunction name => "Undefined function " ++ named name
  | undefinedMethod method kind owner =>
      "Undefined method " ++ named method ++ " in " ++ kind.name ++ " " ++ named owner
  | undefinedField field kind owner =>
      "Undefined field " ++ named field ++ " in " ++ kind.name ++ " " ++ named owner
  | methodOfValue method ty =>
      "Cannot call method " ++ named method ++ " on a value of type " ++ ty.describe
  | fieldOfValue field ty =>
      "Cannot access field " ++ named field ++ " on a value of type " ++ ty.describe
  | interfaceInstance name => "Cannot instantiate interface " ++ named name
  | unknownInstance name => "Cannot instantiate undefined class " ++ named name
  | missingMethod className method interface =>
      "Class " ++ named className ++ " does not implement method " ++ named method ++
        " of interface " ++ named interface
  | mismatchedMethod className method interface =>
      "Method " ++ named method ++ " of class " ++ named className ++
        " does not match its declaration in interface " ++ named interface
  | voidVariable name => "Variable " ++ named name ++ " cannot have type void"
  | unassignable name expected actual =>
      "Type mismatch: cannot assign " ++ actual.describe ++ " to " ++ named name ++ " of type " ++
        expected.describe
  | notAssignable name => "Cannot assign to " ++ named name
  | notIndexable ty => "Cannot index a value of type " ++ ty.describe
  | missingReturn function expected =>
      "Function " ++ named function ++ " must end with a return statement of type " ++
        expected.describe
  | missingReturnValue function expected =>
      "Function " ++ named function ++ " must return a value of type " ++ expected.describe
  | returnFromVoid function => "Void function " ++ named function ++ " cannot return a value"
  | mismatchedReturn function expected actual =>
      "Return type mismatch in function " ++ named function ++ ": expected " ++
        expected.describe ++ ", found " ++ actual.describe
  | conditionNotBool actual => "Condition must be of type bool, found " ++ actual.describe
  | indexNotInt actual => "Array index must be of type int, found " ++ actual.describe
  | lengthNotInt actual => "Array length must be of type int, found " ++ actual.describe
  | mixedArray => "Array elements must be all int or all string"
  | operandMismatch op left right =>
      "Operator " ++ op.symbol ++ " cannot be applied to " ++ left.describe ++ " and " ++
        right.describe
  | argumentMismatch callee actual expected =>
      "No matching function for call to " ++ callee ++ "(" ++ listed actual ++ "); expected " ++
        callee ++ "(" ++ listed expected ++ ")"
  | implicitConversion => "Implicit conversion to string in concatenation"

end Problem

/-- A problem and where it is reported. -/
structure Finding where
  position : Position
  problem : Problem
deriving DecidableEq, Repr, Inhabited

namespace Finding

/-- A finding in words. -/
def diagnostic (finding : Finding) : Diagnostic where
  position := finding.position
  message := finding.problem.message
  severity := finding.problem.severity

/-- Whether a finding is an error. -/
def isError (finding : Finding) : Bool := finding.diagnostic.isError

end Finding

/-- How far a pass over programs has come. -/
inductive PassState where
  | notStarted
  | traversing
  | completed
  | completedWithDiagnostics
deriving DecidableEq, Repr, Inhabited

namespace PassState

/-- The name of a state. -/
def name : PassState → String
  | notStarted => "NotStarted"
  | traversing => "Traversing"
  | completed => "Completed"
  | completedWithDiagnostics => "CompletedWithDiagnostics"

/-- The state after a pass with these findings.  Warnings do not count. -/
def finished (findings : List Finding) : PassState :=
  if findings.any Finding.isError then completedWithDiagnostics else completed

end PassState

end KnightFront
