import KnightFront.Diagnostics.Reported
import KnightFront.Symbols.Hierarchy
import KnightFront.Tree.Program

namespace KnightFront

/-!
# Typing

The third pass finds the type of every expression in a resolved file, records
it on the node and checks it against what its place requires.  An expression
that cannot be typed has the error type, which fits everywhere, so one mistake
is reported once.
-/

/-- An expression's information with its type recorded. -/
def ExprInfo.typed (info : ExprInfo) (ty : Ty) : ExprInfo := { info with ty := some ty }

/-- The declared type of a bound name; an unbound one has been reported. -/
def NameUse.boundTy (used : NameUse) : Ty :=
  match used.binding with
  | none => .error
  | some binding => binding.ty

namespace Typing

open Reported (report reportIf)

/-- Whether a type is known and differs from the one required. -/
def differs (required actual : Ty) : Bool := decide (actual ≠ .error ∧ actual ≠ required)

/-- Whether two types can be compared with each other: two numbers, two
strings, two truth values, or two classes of which one extends the other. -/
def comparable (model : SymbolModel) (left right : Ty) : Bool :=
  match left, right with
  | .int, .int => true
  | .string, .string => true
  | .bool, .bool => true
  | .named _, .named _ => model.isAssignable left right || model.isAssignable right left
  | _, _ => false

/-- The type of a binary expression over operands that have types, or nothing
if the operator does not apply. -/
def operatorTy? (model : SymbolModel) (op : BinaryOp) (left right : Ty) : Option Ty :=
  match op with
  | .plus =>
      match left, right with
      | .int, .int => some .int
      | .string, .string => some .string
      | .int, .string => some .string
      | .string, .int => some .string
      | _, _ => none
  | .minus | .modulus | .times | .divide =>
      if left = .int ∧ right = .int then some .int else none
  | .less | .lessEquals | .greater | .greaterEquals =>
      if left = .int ∧ right = .int then some .bool else none
  | .or | .and => if left = .bool ∧ right = .bool then some .bool else none
  | .equals | .notEquals => if comparable model left right then some .bool else none

/-- Whether an operator turns a number into a string. -/
def converts (op : BinaryOp) (left right : Ty) : Bool :=
  decide (op = .plus ∧ (left = .int ∧ right = .string ∨ left = .string ∧ right = .int))

/-- The type of a binary expression. -/
def binaryTy (model : SymbolModel) (op : BinaryOp) (left right : Ty) (position : Position) :
    Reported Ty :=
  if left = .error ∨ right = .error then return .error
  else
    match operatorTy? model op left right with
    | some ty => do
        reportIf (converts op left right) position .implicitConversion
        return ty
    | none => do
        report position (.operandMismatch op left right)
        return .error

/-- The type of an array literal.  An empty one holds numbers; the items of
any other are all numbers or all strings. -/
def arrayTy (items : List Ty) (position : Position) : Reported Ty :=
  match items with
  | [] => return .array .int
  | first :: rest =>
      if items.contains .error then return .error
      else
        match first.arrayOf? with
        | some array =>
            if rest.all fun ty => decide (ty = first) then return array
            else do
              report position .mixedArray
              return .error
        | none => do
            report position .mixedArray
            return .error

/-- The type of an element of a base. -/
def elementTy (base : Ty) (position : Position) : Reported Ty :=
  match base.element? with
  | some element => return element
  | none => do
      reportIf (decide (base ≠ .error)) position (.notIndexable base)
      return .error

/-- Whether arguments match parameters in number and, pair by pair, in
type. -/
def argumentsMatch (model : SymbolModel) (expected actual : List Ty) : Bool :=
  decide (expected.length = actual.length) &&
    (expected.zip actual).all fun pair => model.isAssignable pair.1 pair.2

/-- The type of a call.  The call of an unbound name has been reported. -/
def callTy (model : SymbolModel) (callee : NameUse) (args : List Ty) : Reported Ty :=
  match callee.binding.bind Binding.signature? with
  | none => return .error
  | some signature =>
      if argumentsMatch model signature.parameterTys args then return signature.returnTy
      else do
        report callee.span.start (.argumentMismatch callee.text args signature.parameterTys)
        return .error

mutual

/-- Find the type of an expression and record it on every node. -/
def checkExpr (model : SymbolModel) : Expr → Reported (Expr × Ty)
  | .int info value => return (.int (info.typed .int) value, .int)
  | .string info value => return (.string (info.typed .string) value, .string)
  | .bool info value => return (.bool (info.typed .bool) value, .bool)
  | .name info used => return (.name (info.typed used.boundTy) used, used.boundTy)
  | .binary info op left right => do
      let (left, leftTy) ← checkExpr model left
      let (right, rightTy) ← checkExpr model right
      let ty ← binaryTy model op leftTy rightTy info.span.start
      return (.binary (info.typed ty) op left right, ty)
  | .call info callee args => do
      let (args, argTys) ← checkExprs model args
      let ty ← callTy model callee argTys
      return (.call (info.typed ty) callee args, ty)
  | .methodCall info receiver callee args => do
      let (receiver, _) ← checkExpr model receiver
      let (args, argTys) ← checkExprs model args
      let ty ← callTy model callee argTys
      return (.methodCall (info.typed ty) receiver callee args, ty)
  | .field info receiver used => do
      let (receiver, _) ← checkExpr model receiver
      return (.field (info.typed used.boundTy) receiver used, used.boundTy)
  | .newInstance info className =>
      return (.newInstance (info.typed className.boundTy) className, className.boundTy)
  | .newArray info element length => do
      let start := length.position
      let (length, lengthTy) ← checkExpr model length
      reportIf (differs .int lengthTy) start (.lengthNotInt lengthTy)
      return (.newArray (info.typed (.array element)) element length, .array element)
  | .index info base position => do
      let (base, baseTy) ← checkExpr model base
      let start := position.position
      let (position, positionTy) ← checkExpr model position
      reportIf (differs .int positionTy) start (.indexNotInt positionTy)
      let ty ← elementTy baseTy info.span.start
      return (.index (info.typed ty) base position, ty)
  | .array info items => do
      let (items, itemTys) ← checkExprs model items
      let ty ← arrayTy itemTys info.span.start
      return (.array (info.typed ty) items, ty)

/-- Find the types of expressions, first to last. -/
def checkExprs (model : SymbolModel) : List Expr → Reported (List Expr × List Ty)
  | [] => return ([], [])
  | first :: rest => do
      let (first, firstTy) ← checkExpr model first
      let (rest, restTys) ← checkExprs model rest
      return (first :: rest, firstTy :: restTys)

end

/-- Where statements are typed: the declarations, and the function around
them. -/
structure TypingPlace where
  model : SymbolModel
  functionName : String
  returnTy : Ty

/-- Require that a value can be assigned to what a name stands for. -/
def requireAssignable (model : SymbolModel) (name : String) (expected actual : Ty)
    (position : Position) : Reported Unit :=
  reportIf (!model.isAssignable expected actual) position (.unassignable name expected actual)

/-- The type of an assignment's target.  Only variables can be assigned. -/
def targetTy (target : NameUse) : Reported Ty :=
  match target.binding with
  | none => return .error
  | some binding =>
      match binding.entity? with
      | some entity => return entity.ty
      | none => do
          report target.span.start (.notAssignable target.text)
          return .error

/-- Check a declaration.  No variable is of type `void`. -/
def checkDecl (model : SymbolModel) (decl : VarDecl) : Reported VarDecl := do
  reportIf (decide (decl.ty = .void)) decl.tySpan.start (.voidVariable decl.name)
  match decl.init with
  | none => return decl
  | some init => do
      let (typed, actual) ← checkExpr model init
      requireAssignable model decl.name decl.ty actual init.position
      return { decl with init := some typed }

/-- Check a condition, which is a truth value. -/
def checkCondition (model : SymbolModel) (condition : Expr) : Reported Expr := do
  let (typed, ty) ← checkExpr model condition
  reportIf (differs .bool ty) condition.position (.conditionNotBool ty)
  return typed

/-- Check an index, which is a number. -/
def checkIndex (model : SymbolModel) (index : Expr) : Reported Expr := do
  let (typed, ty) ← checkExpr model index
  reportIf (differs .int ty) index.position (.indexNotInt ty)
  return typed

/-- Check an assignment to a variable or an array element. -/
def checkAssignment (model : SymbolModel) (assignment : Assignment) : Reported Assignment := do
  let target := assignment.target
  let declared ← targetTy target
  match assignment.index with
  | none => do
      let (value, actual) ← checkExpr model assignment.value
      requireAssignable model target.text declared actual assignment.value.position
      return { assignment with value }
  | some index => do
      let index ← checkIndex model index
      let (value, actual) ← checkExpr model assignment.value
      let expected ← elementTy declared target.span.start
      requireAssignable model target.text expected actual assignment.value.position
      return { assignment with index := some index, value }

/-- Check a return against the type of its function. -/
def checkReturn (place : TypingPlace) (returned : Return) : Reported Return := do
  let expected := place.returnTy
  match returned.value with
  | none => do
      reportIf (differs .void expected) returned.span.start
        (.missingReturnValue place.functionName expected)
      return returned
  | some value => do
      let (value, actual) ← checkExpr place.model value
      if expected = .void then report returned.span.start (.returnFromVoid place.functionName)
      else
        reportIf (!place.model.isAssignable expected actual) returned.span.start
          (.mismatchedReturn place.functionName expected actual)
      return { returned with value := some value }

mutual

/-- Check a statement. -/
def checkStmt (place : TypingPlace) : Stmt → Reported Stmt
  | .varDecl info decl => do
      let decl ← checkDecl place.model decl
      return .varDecl info decl
  | .assign assignment => do
      let assignment ← checkAssignment place.model assignment
      return .assign assignment
  | .fieldAssign info receiver used value => do
      let (receiver, _) ← checkExpr place.model receiver
      let expected ← targetTy used
      let start := value.position
      let (value, actual) ← checkExpr place.model value
      requireAssignable place.model used.text expected actual start
      return .fieldAssign info receiver used value
  | .call info expr => do
      let (expr, _) ← checkExpr place.model expr
      return .call info expr
  | .ifThen info condition body => do
      let condition ← checkCondition place.model condition
      let body ← checkStmt place body
      return .ifThen info condition body
  | .ifElse info condition body alternative => do
      let condition ← checkCondition place.model condition
      let body ← checkStmt place body
      let alternative ← checkStmt place alternative
      return .ifElse info condition body alternative
  | .whileLoop info condition body => do
      let condition ← checkCondition place.model condition
      let body ← checkStmt place body
      return .whileLoop info condition body
  | .forLoop info init condition update body scope => do
      let init ← checkDecl place.model init
      let condition ← checkCondition place.model condition
      let update ← checkAssignment place.model update
      let body ← checkStmt place body
      return .forLoop info init condition update body scope
  | .ret info returned => do
      let returned ← checkReturn place returned
      return .ret info returned
  | .block info stmts scope => do
      let stmts ← checkStmts place stmts
      return .block info stmts scope

/-- Check statements, first to last. -/
def checkStmts (place : TypingPlace) : List Stmt → Reported (List Stmt)
  | [] => return []
  | first :: rest => do
      let first ← checkStmt place first
      let rest ← checkStmts place rest
      return first :: rest

end

/-- Check a function.  Unless it is void, a return closes its body. -/
def checkFunction (model : SymbolModel) (decl : FunctionDecl) : Reported FunctionDecl := do
  let place : TypingPlace := ⟨model, decl.head.name, decl.head.returnTy⟩
  let body ← checkStmts place decl.body
  match decl.closing with
  | some returned => do
      let returned ← checkReturn place returned
      return { decl with body, closing := some returned }
  | none => do
      reportIf (differs .void place.returnTy) decl.head.span.start
        (.missingReturn place.functionName place.returnTy)
      return { decl with body }

/-- The ways in which a class does not keep the interfaces it uses, together
with what they extend.  A missing method is reported where the interface is
named, a method of another signature where it is declared.  Only the
declaration that the symbol model has taken up is judged. -/
def conformanceFindings (model : SymbolModel) (decl : ClassDecl) : List Finding :=
  match model.class? decl.name with
  | none => []
  | some record =>
      if record.position ≠ decl.span.start then []
      else
        decl.uses.flatMap fun used =>
          (model.interfaceClosure used.text).flatMap fun interface =>
            interface.methods.sorted.flatMap fun required =>
              match model.findMethod? decl.name required.name with
              | none =>
                  [⟨used.span.start, .missingMethod decl.name required.name interface.name⟩]
              | some (_, found) =>
                  if found.signature.agrees required.signature then []
                  else
                    [⟨found.position, .mismatchedMethod decl.name required.name interface.name⟩]

/-- Check a class: its fields, its methods and the interfaces it uses. -/
def checkClass (model : SymbolModel) (decl : ClassDecl) : Reported ClassDecl := do
  let fields ← decl.fields.mapM (checkDecl model)
  let methods ← decl.methods.mapM (checkFunction model)
  Reported.mk () (conformanceFindings model decl)
  return { decl with fields, methods }

/-- Check a declaration at the top level. -/
def checkItem (model : SymbolModel) : Item → Reported Item
  | .inclusion decl => return .inclusion decl
  | .enumeration decl => return .enumeration decl
  | .interface decl => return .interface decl
  | .classDecl decl => do
      let decl ← checkClass model decl
      return .classDecl decl
  | .function decl => do
      let decl ← checkFunction model decl
      return .function decl
  | .globalVariable decl => do
      let decl ← checkDecl model decl
      return .globalVariable decl

end Typing

/-- Find and check the types of a resolved file. -/
def Program.check (model : SymbolModel) (program : Program) : Reported Program := do
  let items ← program.items.mapM (Typing.checkItem model)
  return { program with items }

end KnightFront
