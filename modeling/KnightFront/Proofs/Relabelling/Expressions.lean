import KnightFront.Parse.Expr
import KnightFront.Proofs.Relabelling.Readers

namespace KnightFront

/-!
# Expressions of relabelled tokens

An expression read from relabelled tokens is the relabelled expression, and where
there is none the reader fails with the relabelled fault.
-/

variable {change : Relabelling}

@[simp]
theorem Span.through_relabel (first last : Span) :
    (first.relabel change).through (last.relabel change) = (first.through last).relabel change := rfl

namespace Expr

@[simp]
theorem info_relabel (expr : Expr) : (expr.relabel change).info = expr.info.relabel change := by
  cases expr <;> rfl

@[simp]
theorem span_relabel (expr : Expr) : (expr.relabel change).span = expr.span.relabel change :=
  congrArg ExprInfo.span expr.info_relabel

@[simp]
theorem span_name (info : ExprInfo) (used : NameUse) : (name info used).span = info.span := rfl

@[simp]
theorem span_call (info : ExprInfo) (callee : NameUse) (args : List Expr) :
    (call info callee args).span = info.span := rfl

@[simp]
theorem isCall_relabel (expr : Expr) : (expr.relabel change).isCall = expr.isCall := by
  cases expr <;> rfl

end Expr

/-- A stacked operator with its place moved. -/
def StackedOperator.relabel (change : Relabelling) : StackedOperator → StackedOperator
  | binary op => .binary op
  | member => .member
  | index close => .index (close.relabel change)
  | instantiation keyword => .instantiation (keyword.relabel change)

@[simp]
theorem StackedOperator.priority_relabel (operator : StackedOperator) :
    (operator.relabel change).priority = operator.priority := by
  cases operator <;> rfl

namespace ExprStacks

open KnightFront.Parser (Follows)

/-- Stacks with all that they hold relabelled. -/
def relabel (change : Relabelling) (state : ExprStacks) : ExprStacks where
  operators := state.operators.map (StackedOperator.relabel change)
  operands := state.operands.map (Expr.relabel change)

theorem pushOperand_relabel (state : ExprStacks) (operand : Expr) :
    (state.relabel change).pushOperand (operand.relabel change) =
      (state.pushOperand operand).relabel change := rfl

theorem follows_apply : ∀ (operator : StackedOperator) (operands : List Expr) (cursor : Cursor),
    Follows change (List.map (Expr.relabel change)) (apply operator operands)
      (apply (operator.relabel change) (operands.map (Expr.relabel change))) cursor
  | .binary _, _ :: _ :: _, _ | .index _, _ :: _ :: _, _ => by
      simp [apply, StackedOperator.relabel, Expr.relabel, ExprInfo.relabel, -bind_pure_comp]
  | .member, right :: _ :: _, _ => by
      cases right <;> simp [apply, StackedOperator.relabel, Expr.relabel, ExprInfo.relabel]
  | .instantiation _, operand :: _, _ => by
      cases operand <;> simp [apply, StackedOperator.relabel, Expr.relabel, ExprInfo.relabel]
  | .binary _, [], _ | .binary _, [_], _ | .index _, [], _ | .index _, [_], _ | .member, [], _
  | .member, [_], _ | .instantiation _, [], _ => Parser.follows_defective

theorem follows_reduceList (least : Priority) (operators : List StackedOperator)
    (operands : List Expr) (cursor : Cursor) :
    Follows change (relabel change) (reduceList least operators operands)
      (reduceList least (operators.map (StackedOperator.relabel change))
        (operands.map (Expr.relabel change))) cursor := by
  induction operators generalizing operands cursor with
  | nil => simp [reduceList, relabel]
  | cons top below inductionHypothesis =>
      simp only [reduceList, List.map_cons, StackedOperator.priority_relabel, Parser.follows_ite]
      split
      · exact (follows_apply top operands cursor).bind inductionHypothesis
      · simp [relabel]

theorem follows_reduce (state : ExprStacks) (least : Priority) (cursor : Cursor) :
    Follows change (relabel change) (state.reduce least) ((state.relabel change).reduce least)
      cursor :=
  follows_reduceList least state.operators state.operands cursor

theorem follows_pushOperator (state : ExprStacks) (operator : StackedOperator) (cursor : Cursor) :
    Follows change (relabel change) (state.pushOperator operator)
      ((state.relabel change).pushOperator (operator.relabel change)) cursor := by
  unfold pushOperator
  rw [StackedOperator.priority_relabel]
  refine (follows_reduce state operator.priority cursor).bind fun reduced behind => ?_
  simp [relabel]

theorem follows_result (state : ExprStacks) (cursor : Cursor) :
    Follows change (Expr.relabel change) state.result (state.relabel change).result cursor := by
  unfold result
  refine (follows_reduce state .sentinel cursor).bind fun reduced behind => ?_
  match held : reduced.operands with
  | [] | _ :: _ :: _ | [only] => simp [relabel, held]

end ExprStacks

namespace Parser

variable {nested : Parser Expr}

theorem follows_arguments
    (inner : ∀ cursor, Follows change (Expr.relabel change) nested nested cursor)
    (cursor : Cursor) :
    Follows change (List.map (Expr.relabel change)) (arguments nested) (arguments nested)
      cursor := by
  simp only [arguments, follows_expect]
  intro _
  refine (follows_listUpTo inner cursor.advance).bind fun args behind => ?_
  simp [-bind_pure_comp]

theorem follows_nameOrCall
    (inner : ∀ cursor, Follows change (Expr.relabel change) nested nested cursor)
    (id : NodeId) {token : Token} (identifier : token.kind = .identifier) (cursor : Cursor) :
    Follows change (Expr.relabel change) (nameOrCall nested id token)
      (nameOrCall nested id (token.relabel change)) cursor := by
  simp only [nameOrCall, follows_currentKind, follows_ite]
  split
  · refine (follows_arguments inner cursor).bind fun args behind => ?_
    simp [Expr.relabel, Expr.relabelList_eq_map, Token.relabel, identifier, NameUse.relabel,
      ExprInfo.relabel, Span.relabel, -bind_pure_comp]
  · simp [Expr.relabel, Token.relabel, identifier, NameUse.relabel, ExprInfo.relabel]

theorem follows_member
    (inner : ∀ cursor, Follows change (Expr.relabel change) nested nested cursor)
    (cursor : Cursor) :
    Follows change (Expr.relabel change) (member nested) (member nested) cursor := by
  simp only [member, follows_freshId, follows_expectOr]
  intro kind
  exact follows_nameOrCall inner _ ((Cursor.current_kind _).trans kind) _

theorem follows_numberLiteral (id : NodeId) {cursor : Cursor}
    (number : headKind cursor.contents = .number) :
    Follows change (Expr.relabel change) (numberLiteral id) (numberLiteral id) cursor := by
  have value : (cursor.current.relabel change).value = cursor.current.value := by
    simp [Token.relabel, number, Relabelling.value]
  simp only [numberLiteral, follows_take, value]
  split
  · simp [Expr.relabel, ExprInfo.relabel, Token.relabel]
  · simp [SyntaxFault.Cause.relabel, Token.relabel, Span.relabel]

theorem follows_arrayLiteral
    (inner : ∀ cursor, Follows change (Expr.relabel change) nested nested cursor)
    (id : NodeId) (cursor : Cursor) :
    Follows change (Expr.relabel change) (arrayLiteral nested id) (arrayLiteral nested id)
      cursor := by
  simp only [arrayLiteral, follows_position, follows_take]
  refine (follows_listUpTo inner cursor.advance).bind fun items behind => ?_
  simp [Expr.relabel, Expr.relabelList_eq_map, ExprInfo.relabel, Span.relabel, -bind_pure_comp]

theorem follows_arrayInstance
    (inner : ∀ cursor, Follows change (Expr.relabel change) nested nested cursor)
    (id : NodeId) (start : Position) (element : ElementTy) (cursor : Cursor) :
    Follows change (Expr.relabel change) (arrayInstance nested id start element)
      (arrayInstance nested id (change.start start) element) cursor := by
  simp only [arrayInstance, follows_take, follows_expect]
  intro _
  refine (inner _).bind fun length behind => ?_
  simp [Expr.relabel, ExprInfo.relabel, Span.relabel, -bind_pure_comp]

theorem follows_pushOperand {parser other : Parser Expr} {cursor : Cursor}
    (read : Follows change (Expr.relabel change) parser other cursor) (state : ExprStacks) :
    Follows change (ExprStacks.relabel change) (do return state.pushOperand (← parser))
      (do return (state.relabel change).pushOperand (← other)) cursor :=
  read.bind fun value _ => follows_pure.mpr (state.pushOperand_relabel value)

theorem follows_creation
    (inner : ∀ cursor, Follows change (Expr.relabel change) nested nested cursor)
    (id : NodeId) (state : ExprStacks) (cursor : Cursor) :
    Follows change (ExprStacks.relabel change) (creation nested id state)
      (creation nested id (state.relabel change)) cursor := by
  simp only [creation, follows_expect, follows_currentKind, Cursor.contents_advance]
  intro _
  cases kind : headKind cursor.contents.tail with
  | identifier =>
      simp only [follows_take, follows_expect, follows_spanFrom]
      intro _ _
      refine (ExprStacks.follows_pushOperator state _ _).bind fun pushed behind => ?_
      simp [ExprStacks.pushOperand, ExprStacks.relabel, Expr.relabel, ExprInfo.relabel,
        NameUse.relabel, Token.relabel, kind, Span.relabel]
  | intWord | stringWord => exact follows_pushOperand (follows_arrayInstance inner id _ _ _) state
  | _ => exact follows_misplaced

theorem follows_operand
    (inner : ∀ cursor, Follows change (Expr.relabel change) nested nested cursor)
    (state : ExprStacks) (cursor : Cursor) :
    Follows change (ExprStacks.relabel change) (operand nested state)
      (operand nested (state.relabel change)) cursor := by
  simp only [operand, follows_freshId, follows_currentKind, Cursor.contents_withNextId]
  cases kind : headKind cursor.contents with
  | number =>
      refine follows_pushOperand (follows_numberLiteral _ ?_) state
      exact kind
  | string | trueWord | falseWord =>
      simp [follows_take, ExprStacks.pushOperand, ExprStacks.relabel, Expr.relabel,
        ExprInfo.relabel, Token.relabel, kind, Relabelling.value, -bind_pure_comp]
  | identifier =>
      simp only [follows_take]
      exact follows_pushOperand
        (follows_nameOrCall inner _ ((Cursor.current_kind _).trans kind) _) state
  | openParen =>
      simp only [follows_take]
      refine (inner _).bind fun value behind => ?_
      simp [ExprStacks.pushOperand_relabel, -bind_pure_comp]
  | openBracket => exact follows_pushOperand (follows_arrayLiteral inner _ _) state
  | newWord => exact follows_creation inner _ state _
  | _ => exact follows_misplaced

theorem follows_operatorRound
    (inner : ∀ cursor, Follows change (Expr.relabel change) nested nested cursor)
    (state : ExprStacks) (cursor : Cursor) :
    Follows change (Round.relabel (ExprStacks.relabel change) (Expr.relabel change))
      (operatorRound nested state) (operatorRound nested (state.relabel change)) cursor := by
  simp only [operatorRound, follows_currentKind]
  cases BinaryOp.ofToken? (headKind cursor.contents) with
  | some op =>
      simp only [follows_take]
      refine (ExprStacks.follows_pushOperator state (.binary op) _).bind fun pushed behind => ?_
      refine (follows_operand inner pushed behind).bind fun next further => ?_
      simp [Round.relabel]
  | none =>
      simp only [follows_ite, follows_take]
      split
      · refine (ExprStacks.follows_pushOperator state .member _).bind fun pushed behind => ?_
        refine (follows_member inner behind).bind fun found further => ?_
        simp [Round.relabel, ExprStacks.pushOperand_relabel]
      split
      · refine (ExprStacks.follows_reduce state .index _).bind fun reduced behind => ?_
        refine (inner behind).bind fun position further => ?_
        simp [Round.relabel, ExprStacks.relabel, StackedOperator.relabel, Token.relabel,
          -bind_pure_comp]
      · refine (ExprStacks.follows_result state cursor).bind fun found behind => ?_
        simp [Round.relabel]

theorem follows_exprLevel
    (inner : ∀ cursor, Follows change (Expr.relabel change) nested nested cursor)
    (cursor : Cursor) :
    Follows change (Expr.relabel change) (exprLevel nested) (exprLevel nested) cursor :=
  (follows_operand inner .empty cursor).bind fun state behind =>
    follows_rounds _ _ (follows_operatorRound inner) state behind

/-- An expression read from relabelled tokens is relabelled. -/
theorem follows_expr (cursor : Cursor) : Follows change (Expr.relabel change) expr expr cursor :=
  follows_nesting (fun _ inner => follows_exprLevel inner) cursor

end Parser

end KnightFront
