import KnightFront.Parse.Expr

namespace KnightFront

/-!
# Stacks shared by all levels

The reader of expressions gives each level stacks of its own.  Here expressions
are read with one pair of stacks for all levels.  A level begins with a mark on
the operators, and nothing but the balance of the stacks keeps it from applying
the operators, or taking the operands, of the levels around it.  An empty stack
of operands, a mark that is taken for an operator, an instance of something
other than a name, a dot in front of something other than a call or a name, and
a level that does not leave exactly one operand are defects.
-/

/-- What lies on a stack of operators that all levels share. -/
inductive SharedOperator where
  /-- The bottom of a level. -/
  | mark
  | waiting (operator : StackedOperator)
deriving DecidableEq, Repr, Inhabited

/-- The two stacks of all levels of an expression, their tops first. -/
structure SharedStacks where
  operators : List SharedOperator
  operands : List Expr

/-- A reader with shared stacks. -/
abbrev Stacking := StateT SharedStacks Parser

namespace Stacking

open KnightFront.Parser (defective misplaced currentKind take expect expectOr freshId position
  spanFrom Round)

variable {α σ : Type}

/-- What a round decides, with the stacks it leaves. -/
def attach : Round σ α × SharedStacks → Round (σ × SharedStacks) (α × SharedStacks)
  | (.again next, behind) => .again (next, behind)
  | (.done result, behind) => .done (result, behind)

/-- Repeat a round that works on the stacks until it is done. -/
def rounds (round : σ → Stacking (Round σ α)) (state : σ) : Stacking α := fun shared =>
  Parser.rounds (fun state => attach <$> (round state.1).run state.2) (state, shared)

/-- A phrase that may contain phrases of its own kind and works on the
stacks. -/
def nesting (level : Stacking α → Stacking α) : Stacking α := fun shared cursor =>
  level
    (fun inner behind =>
      if behind.remaining < cursor.remaining then nesting level inner behind
      else .error (.defect .stalled))
    shared cursor
termination_by _ cursor => cursor.remaining

def pushOperand (operand : Expr) : Stacking Unit :=
  modify fun shared => { shared with operands := operand :: shared.operands }

/-- Take the topmost operand, whichever level it belongs to. -/
def popOperand : Stacking Expr := do
  match (← get).operands with
  | [] => defective .missingOperand
  | top :: below => do
      modify fun shared => { shared with operands := below }
      return top

/-- The expression that an operator makes of the topmost operands. -/
def applied : StackedOperator → Stacking Expr
  | .binary op => do
      let right ← popOperand
      let left ← popOperand
      let id ← freshId
      return .binary { id, span := left.span.through right.span } op left right
  | .member => do
      let right ← popOperand
      let receiver ← popOperand
      let span := receiver.span.through right.span
      match right with
      | .call info callee args => return .methodCall { id := info.id, span } receiver callee args
      | .name info used => return .field { id := info.id, span } receiver used
      | _ => defective .strayMember
  | .index close => do
      let position ← popOperand
      let base ← popOperand
      let id ← freshId
      return .index { id, span := base.span.through close } base position
  | .instantiation keyword => do
      let operand ← popOperand
      match operand with
      | .name info className =>
          return .newInstance { id := info.id, span := keyword.through operand.span } className
      | _ => defective .strayInstance

/-- Apply the topmost operator. -/
def popOperator : Stacking Unit := do
  match (← get).operators with
  | [] => return ()
  | .mark :: _ => defective .strayMark
  | .waiting operator :: below => do
      modify fun shared => { shared with operators := below }
      pushOperand (← applied operator)

/-- Apply operators from the top, as long as they are strong, down to the next
mark. -/
def reduceList (strong : StackedOperator → Bool) : List SharedOperator → Stacking Unit
  | .waiting top :: below =>
      if strong top then do
        popOperator
        reduceList strong below
      else return ()
  | _ => return ()

def reduce (strong : StackedOperator → Bool) : Stacking Unit := do
  reduceList strong (← get).operators

/-- Put an operator on its stack.  Operators that bind at least as strongly
are applied before. -/
def pushOperator (operator : StackedOperator) : Stacking Unit := do
  reduce fun top => decide (operator.priority ≤ top.priority)
  modify fun shared => { shared with operators := .waiting operator :: shared.operators }

/-- Give the index on top of the operators the span of its closing sign. -/
def closeIndex (close : Span) : Stacking Unit :=
  modify fun shared =>
    match shared.operators with
    | .waiting (.index _) :: below => { shared with operators := .waiting (.index close) :: below }
    | _ => shared

/-- One or more expressions with commas between them. -/
def commaSeparated (nested : Stacking Expr) : Stacking (List Expr) :=
  rounds
    (fun collected => do
      let found ← nested
      if (← currentKind) = .comma then
        let _ ← take
        return .again (found :: collected)
      else return .done (found :: collected).reverse)
    []

/-- Expressions with commas between them up to a closing token. -/
def listUpTo (close : TokenKind) (nested : Stacking Expr) : Stacking (List Expr) := do
  if (← currentKind) = close then return [] else commaSeparated nested

def arguments (nested : Stacking Expr) : Stacking (List Expr) := do
  let _ ← expect .openParen
  let args ← listUpTo .closeParen nested
  let _ ← expect .closeParen
  return args

/-- A name, or a call if an argument list follows it. -/
def nameOrCall (nested : Stacking Expr) (id : NodeId) (token : Token) : Stacking Unit := do
  let used : NameUse := { text := token.value, span := token.span }
  if (← currentKind) = .openParen then
    let args ← arguments nested
    pushOperand (.call { id, span := ← spanFrom token.span.start } used args)
  else pushOperand (.name { id, span := token.span } used)

/-- What may follow a dot. -/
def member (nested : Stacking Expr) : Stacking Unit := do
  let id ← freshId
  let token ← expectOr .identifier "expected a method call or field name after `.`"
  nameOrCall nested id token

def arrayLiteral (nested : Stacking Expr) (id : NodeId) : Stacking Unit := do
  let start ← position
  let _ ← take
  let items ← listUpTo .closeBracket nested
  let _ ← expect .closeBracket
  pushOperand (.array { id, span := ← spanFrom start } items)

def arrayInstance (nested : Stacking Expr) (id : NodeId) (start : Position)
    (element : ElementTy) : Stacking Unit := do
  let _ ← take
  let _ ← expect .openBracket
  let length ← nested
  let _ ← expect .closeBracket
  pushOperand (.newArray { id, span := ← spanFrom start } element length)

/-- A new class instance or array. -/
def creation (nested : Stacking Expr) (id : NodeId) : Stacking Unit := do
  let keyword ← expect .newWord
  match ← currentKind with
  | .identifier => do
      let className ← take
      let _ ← expect .openParen
      let _ ← expect .closeParen
      let span ← spanFrom className.span.start
      pushOperator (.instantiation keyword.span)
      pushOperand (.name { id, span } { text := className.value, span := className.span })
  | .intWord => arrayInstance nested id keyword.span.start .int
  | .stringWord => arrayInstance nested id keyword.span.start .string
  | _ => misplaced "expected a class name, `int` or `string` after `new`"

/-- One operand, put on its stack. -/
def operand (nested : Stacking Expr) : Stacking Unit := do
  let id ← freshId
  match ← currentKind with
  | .number => do pushOperand (← Parser.numberLiteral id)
  | .string => do
      let token ← take
      pushOperand (.string { id, span := token.span } token.value)
  | .trueWord => do
      let token ← take
      pushOperand (.bool { id, span := token.span } true)
  | .falseWord => do
      let token ← take
      pushOperand (.bool { id, span := token.span } false)
  | .identifier => do
      let token ← take
      nameOrCall nested id token
  | .openParen => do
      let _ ← take
      let inner ← nested
      let _ ← expect .closeParen
      pushOperand inner
  | .openBracket => arrayLiteral nested id
  | .newWord => creation nested id
  | _ => misplaced "expected an expression"

/-- The end of a level that found `base` operands: its operators are applied,
its mark is taken away, and its only operand is handed out. -/
def finish (base : Nat) : Stacking Expr := do
  reduce fun _ => true
  modify fun shared => { shared with operators := shared.operators.tail }
  if (← get).operands.length = base + 1 then popOperand
  else defective .leftoverOperands

/-- One operator with the operand behind it, or the end of the level. -/
def operatorRound (nested : Stacking Expr) (base : Nat) : Stacking (Round Unit Expr) := do
  let kind ← currentKind
  match BinaryOp.ofToken? kind with
  | some op => do
      let _ ← take
      pushOperator (.binary op)
      operand nested
      return .again ()
  | none =>
      if kind = .dot then do
        let _ ← take
        pushOperator .member
        member nested
        return .again ()
      else if kind = .openBracket then do
        let opening ← take
        pushOperator (.index opening.span)
        let inner ← nested
        let close ← expect .closeBracket
        closeIndex close.span
        pushOperand inner
        return .again ()
      else return .done (← finish base)

/-- One level of an expression, between a mark and the end of the level. -/
def exprLevel (nested : Stacking Expr) : Stacking Expr := do
  let base := (← get).operands.length
  modify fun shared => { shared with operators := .mark :: shared.operators }
  operand nested
  rounds (fun _ => operatorRound nested base) ()

/-- An expression, read with the stacks of all levels. -/
def expr : Stacking Expr := nesting exprLevel

end Stacking
end KnightFront
