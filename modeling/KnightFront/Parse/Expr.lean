import KnightFront.Parse.Cursor

namespace KnightFront

/-!
# Reading expressions

One level of an expression is read from left to right with a stack of
operators and a stack of operands.  Before an operator is put on its stack,
every stacked operator that binds at least as strongly is applied, so equal
priorities associate to the left.  At the end of the level all are applied and
a single operand is left.

Parentheses, arguments, indices and array lengths are levels of their own.
An index binds less than a member, so a member behind a bracket belongs to
what stands in the bracket: `p[i].m` is `p` at the index `i.m`.
-/

/-- An operator that waits for its operands. -/
inductive StackedOperator where
  | binary (op : BinaryOp)
  /-- The dot between a receiver and a member. -/
  | member
  /-- A bracket, with the span of its closing sign. -/
  | index (close : Span)
  /-- A class instance, with the span of its keyword. -/
  | instantiation (keyword : Span)
deriving DecidableEq, Repr, Inhabited

/-- How strongly a stacked operator binds. -/
def StackedOperator.priority : StackedOperator → Priority
  | binary op => op.priority
  | member => .member
  | index _ => .index
  | instantiation _ => .instantiation

/-- The two stacks of one level of an expression, their tops first. -/
structure ExprStacks where
  operators : List StackedOperator
  operands : List Expr

namespace ExprStacks

open KnightFront.Parser (defective freshId)

/-- Nothing is stacked at the beginning of a level. -/
def empty : ExprStacks := ⟨[], []⟩

/-- The state with one more operand. -/
def pushOperand (state : ExprStacks) (operand : Expr) : ExprStacks :=
  { state with operands := operand :: state.operands }

/-- Apply an operator to the topmost operands.  A binary expression and an
index get identities of their own; a member keeps that of its call or name and
an instance that of its class name. -/
def apply : StackedOperator → List Expr → Parser (List Expr)
  | .binary op, right :: left :: below => do
      let id ← freshId
      return .binary { id, span := left.span.through right.span } op left right :: below
  | .member, right :: receiver :: below =>
      let span := receiver.span.through right.span
      match right with
      | .call info callee args =>
          return .methodCall { id := info.id, span } receiver callee args :: below
      | .name info used => return .field { id := info.id, span } receiver used :: below
      | _ => defective .strayMember
  | .index close, position :: base :: below => do
      let id ← freshId
      return .index { id, span := base.span.through close } base position :: below
  | .instantiation keyword, operand :: below =>
      match operand with
      | .name info className =>
          return .newInstance { id := info.id, span := keyword.through operand.span } className ::
            below
      | _ => defective .strayInstance
  | _, _ => defective .missingOperand

/-- Apply stacked operators from the top as long as they bind at least as
strongly as `least`. -/
def reduceList (least : Priority) : List StackedOperator → List Expr → Parser ExprStacks
  | [], operands => return ⟨[], operands⟩
  | top :: below, operands =>
      if least ≤ top.priority then do reduceList least below (← apply top operands)
      else return ⟨top :: below, operands⟩

/-- Make room for an operator of a priority. -/
def reduce (state : ExprStacks) (least : Priority) : Parser ExprStacks :=
  reduceList least state.operators state.operands

/-- Put an operator on its stack. -/
def pushOperator (state : ExprStacks) (operator : StackedOperator) : Parser ExprStacks := do
  let reduced ← state.reduce operator.priority
  return { reduced with operators := operator :: reduced.operators }

/-- Apply everything that is stacked.  One operand is left. -/
def result (state : ExprStacks) : Parser Expr := do
  match (← state.reduce .sentinel).operands with
  | [only] => return only
  | _ => defective .leftoverOperands

end ExprStacks

namespace Parser

/-- The smallest number of 64 bits. -/
def smallestNumber : Int := -9223372036854775808

/-- The largest number of 64 bits. -/
def largestNumber : Int := 9223372036854775807

/-- The natural number that decimal digits write. -/
def natural? (digits : List Char) : Option Nat :=
  if digits.isEmpty || !digits.all Char.isDigit then none
  else some (digits.foldl (fun total digit => 10 * total + (digit.toNat - '0'.toNat)) 0)

/-- The number that decimal digits write behind an optional sign. -/
def integer? : List Char → Option Int
  | '-' :: digits => (natural? digits).map fun size : Nat => -(size : Int)
  | '+' :: digits => (natural? digits).map fun size : Nat => (size : Int)
  | digits => (natural? digits).map fun size : Nat => (size : Int)

/-- The number of 64 bits that a literal writes.  Source text has no signs in
its literals, but a list of tokens may hold one. -/
def decimal? (literal : List Char) : Option Int :=
  (integer? literal).filter fun value => smallestNumber ≤ value ∧ value ≤ largestNumber

/-- Digits without a sign write a natural number. -/
theorem integer?_of_isDigit {digits : List Char}
    (unsigned : ∀ character ∈ digits, character.isDigit = true) :
    integer? digits = (natural? digits).map fun size : Nat => (size : Int) := by
  unfold integer?
  split
  · exact absurd (unsigned '-' List.mem_cons_self) (by decide)
  · exact absurd (unsigned '+' List.mem_cons_self) (by decide)
  · rfl

theorem decimal?_eq_some_iff {literal : List Char} {value : Int} :
    decimal? literal = some value ↔
      integer? literal = some value ∧ smallestNumber ≤ value ∧ value ≤ largestNumber := by
  simp [decimal?, Option.filter_eq_some_iff]

/-- Expressions between parentheses. -/
def arguments (nested : Parser Expr) : Parser (List Expr) := do
  let _ ← expect .openParen
  let args ← listUpTo .closeParen nested
  let _ ← expect .closeParen
  return args

/-- A name, or a call if an argument list follows it. -/
def nameOrCall (nested : Parser Expr) (id : NodeId) (token : Token) : Parser Expr := do
  let used : NameUse := { text := token.value, span := token.span }
  if (← currentKind) = .openParen then
    let args ← arguments nested
    return .call { id, span := ← spanFrom token.span.start } used args
  else return .name { id, span := token.span } used

/-- What may follow a dot: the call of a method or the name of a field. -/
def member (nested : Parser Expr) : Parser Expr := do
  let id ← freshId
  let token ← expectOr .identifier "expected a method call or field name after `.`"
  nameOrCall nested id token

/-- A number literal. -/
def numberLiteral (id : NodeId) : Parser Expr := do
  let token ← take
  match decimal? token.value.toList with
  | some value => return .int { id, span := token.span } value
  | none => faulty (.numberTooLarge token.value) token.span.start

/-- An array literal. -/
def arrayLiteral (nested : Parser Expr) (id : NodeId) : Parser Expr := do
  let start ← position
  let _ ← take
  let items ← listUpTo .closeBracket nested
  let _ ← expect .closeBracket
  return .array { id, span := ← spanFrom start } items

/-- The length of a new array, behind its keyword. -/
def arrayInstance (nested : Parser Expr) (id : NodeId) (start : Position) (element : ElementTy) :
    Parser Expr := do
  let _ ← take
  let _ ← expect .openBracket
  let length ← nested
  let _ ← expect .closeBracket
  return .newArray { id, span := ← spanFrom start } element length

/-- A new class instance or array.  An instance goes over the operator stack
with its class name as operand; an array is an operand by itself. -/
def creation (nested : Parser Expr) (id : NodeId) (state : ExprStacks) : Parser ExprStacks := do
  let keyword ← expect .newWord
  match ← currentKind with
  | .identifier => do
      let className ← take
      let _ ← expect .openParen
      let _ ← expect .closeParen
      let span ← spanFrom className.span.start
      let pushed ← state.pushOperator (.instantiation keyword.span)
      return pushed.pushOperand
        (.name { id, span } { text := className.value, span := className.span })
  | .intWord => return state.pushOperand (← arrayInstance nested id keyword.span.start .int)
  | .stringWord => return state.pushOperand (← arrayInstance nested id keyword.span.start .string)
  | _ => misplaced "expected a class name, `int` or `string` after `new`"

/-- One operand, put on its stack.  Its identity is taken before anything is
read. -/
def operand (nested : Parser Expr) (state : ExprStacks) : Parser ExprStacks := do
  let id ← freshId
  match ← currentKind with
  | .number => return state.pushOperand (← numberLiteral id)
  | .string => do
      let token ← take
      return state.pushOperand (.string { id, span := token.span } token.value)
  | .trueWord => do
      let token ← take
      return state.pushOperand (.bool { id, span := token.span } true)
  | .falseWord => do
      let token ← take
      return state.pushOperand (.bool { id, span := token.span } false)
  | .identifier => do
      let token ← take
      return state.pushOperand (← nameOrCall nested id token)
  | .openParen => do
      let _ ← take
      let inner ← nested
      let _ ← expect .closeParen
      return state.pushOperand inner
  | .openBracket => return state.pushOperand (← arrayLiteral nested id)
  | .newWord => creation nested id state
  | _ => misplaced "expected an expression"

/-- One operator with the operand behind it, or the end of the level. -/
def operatorRound (nested : Parser Expr) (state : ExprStacks) :
    Parser (Round ExprStacks Expr) := do
  let kind ← currentKind
  match BinaryOp.ofToken? kind with
  | some op => do
      let _ ← take
      let pushed ← state.pushOperator (.binary op)
      return .again (← operand nested pushed)
  | none =>
      if kind = .dot then do
        let _ ← take
        let pushed ← state.pushOperator .member
        return .again (pushed.pushOperand (← member nested))
      else if kind = .openBracket then do
        let _ ← take
        let reduced ← state.reduce .index
        let inner ← nested
        let close ← expect .closeBracket
        return .again ⟨.index close.span :: reduced.operators, inner :: reduced.operands⟩
      else return .done (← state.result)

/-- One level of an expression. -/
def exprLevel (nested : Parser Expr) : Parser Expr := do
  let state ← operand nested .empty
  rounds (operatorRound nested) state

/-- An expression. -/
def expr : Parser Expr := nesting exprLevel

end Parser

end KnightFront
