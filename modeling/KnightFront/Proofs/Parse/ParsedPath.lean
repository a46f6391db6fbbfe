import KnightFront.Proofs.Parse.Rules
import KnightFront.Proofs.Tree.Written

namespace KnightFront

/-!
# Expressions that begin with a name

An expression whose first token is a name has this name at the far left of its
tree.  It is then a path, unless a binary operator or an index stands at its
top.  So where a member or a call has been read at the beginning of a
statement, printing it again begins with the same name.

The stacks show it while a level is read: either a path is being read, or an
operator that binds less than a member waits at the bottom.
-/

open KnightFront.Parser (Ensures)

variable {cursor : Cursor} {nested : Parser Expr} {least : Priority}

/-- Whether an expression has a binary operator or an index at its top. -/
def Expr.isOpen : Expr → Bool
  | binary .. => true
  | index .. => true
  | _ => false

namespace ExprStacks

variable {state : ExprStacks}

/-- Whether an operator that binds less than a member waits at the bottom. -/
def Anchored (state : ExprStacks) : Prop :=
  ∃ bottom ∈ state.operators.getLast?, bottom.priority < .member

/-- The stacks of a level that begins with a name, between two operators. -/
inductive Leads : ExprStacks → Prop where
  | path {value : Expr} (path : value.isPath = true) : Leads ⟨[], [value]⟩
  | member {right receiver : Expr} (path : receiver.isPath = true) :
      Leads ⟨[.member], [right, receiver]⟩
  | anchored {state : ExprStacks} (anchored : state.Anchored) : Leads state

theorem Anchored.push {operators : List StackedOperator} {operands more : List Expr}
    (anchored : Anchored ⟨operators, operands⟩) (operator : StackedOperator) :
    Anchored ⟨operator :: operators, more⟩ := by
  rcases anchored with ⟨bottom, last, weak⟩
  refine ⟨bottom, ?_, weak⟩
  cases operators with
  | nil => cases last
  | cons top below => simpa using last

/-- Applying the operator at the bottom leaves it at the top of the tree. -/
theorem ensures_apply_of_lt {bottom : StackedOperator} (weak : bottom.priority < .member)
    (operands : List Expr) :
    Ensures (apply bottom operands) cursor fun applied _ =>
      ∃ value below, applied = value :: below ∧ value.isOpen = true := by
  unfold apply
  split
  · simp [Expr.isOpen]
  · exact absurd weak (by decide)
  · simp [Expr.isOpen]
  · exact absurd (show Priority.instantiation < Priority.member from weak) (by decide)
  · simp

/-- Applying operators either leaves the one at the bottom waiting, or applies
it last. -/
theorem ensures_reduce_of_anchored (anchored : state.Anchored) :
    Ensures (state.reduce least) cursor fun reduced _ =>
      reduced.Anchored ∨ least < .member ∧ reduced.operators = [] ∧
        ∃ value below, reduced.operands = value :: below ∧ value.isOpen = true := by
  rcases state with ⟨operators, operands⟩
  induction operators generalizing operands cursor with
  | nil => rcases anchored with ⟨bottom, last, -⟩; cases last
  | cons top below inductionHypothesis =>
      simp only [reduce, reduceList]
      split
      · next binds =>
          simp only [Parser.ensures_bind]
          cases below with
          | nil =>
              rcases anchored with ⟨bottom, last, weak⟩
              obtain rfl : top = bottom := by simpa using last
              refine (ensures_apply_of_lt weak operands).mono fun applied behind facts => ?_
              rw [reduceList, Parser.ensures_pure]
              exact .inr ⟨Nat.lt_of_le_of_lt binds weak, rfl, facts⟩
          | cons next others =>
              rcases anchored with ⟨bottom, last, weak⟩
              exact Parser.ensures_of_forall fun applied behind =>
                inductionHypothesis applied ⟨bottom, by simpa using last, weak⟩
      · rw [Parser.ensures_pure]
        exact .inl anchored

theorem ensures_reduce_sentinel :
    Ensures (state.reduce .sentinel) cursor fun reduced _ => reduced.operators = [] := by
  rcases state with ⟨operators, operands⟩
  induction operators generalizing operands cursor with
  | nil => simp [reduce, reduceList]
  | cons top below inductionHypothesis =>
      have lowest : Priority.sentinel ≤ top.priority := Nat.zero_le _
      simp only [reduce, reduceList, lowest, if_true, Parser.ensures_bind]
      exact Parser.ensures_of_forall fun applied behind => inductionHypothesis applied

/-- What becomes of the stacks of a level that begins with a name when
operators are applied for a member or a weaker one. -/
theorem ensures_reduce_of_leads (leads : state.Leads) (weak : least ≤ .member) :
    Ensures (state.reduce least) cursor fun reduced _ =>
      (∃ value, value.isPath = true ∧ reduced = ⟨[], [value]⟩) ∨ reduced.Anchored ∨
        least < .member ∧ reduced.operators = [] ∧
          ∃ value below, reduced.operands = value :: below ∧ value.isOpen = true := by
  cases leads with
  | path path => simpa [reduce, reduceList] using .inl path
  | @member right receiver path =>
      have binds : least ≤ StackedOperator.member.priority := weak
      simp only [reduce, reduceList, binds, if_true, apply]
      cases right with
      | call => simpa [Expr.isPath] using .inl path
      | name => simpa [Expr.isPath] using .inl path
      | _ => simp
  | anchored anchored => exact (ensures_reduce_of_anchored anchored).mono fun _ _ facts => .inr facts

/-- From then on an operator that binds less than a member waits at the
bottom. -/
theorem ensures_reduce_anchored (leads : state.Leads) {operator : StackedOperator}
    (weak : operator.priority < .member) :
    Ensures (state.reduce operator.priority) cursor fun reduced _ =>
      ∀ operands, Anchored ⟨operator :: reduced.operators, operands⟩ := by
  refine (ensures_reduce_of_leads leads (Nat.le_of_lt weak)).mono fun reduced behind facts operands => ?_
  rcases facts with ⟨value, -, rfl⟩ | stays | ⟨-, none, -⟩
  · exact ⟨operator, rfl, weak⟩
  · exact stays.push operator
  · exact ⟨operator, by simp [none], weak⟩

theorem ensures_result_of_anchored (anchored : state.Anchored) :
    Ensures state.result cursor fun value _ => value.isOpen = true := by
  simp only [result, Parser.ensures_bind]
  refine ((ensures_reduce_of_anchored anchored).and ensures_reduce_sentinel).mono
    fun reduced behind facts => ?_
  rcases facts with ⟨⟨bottom, last, -⟩ | ⟨-, -, value, below, top, isOpen⟩, none⟩
  · simp [none] at last
  · split
    · next only held =>
        rw [Parser.ensures_pure]
        rw [held] at top
        cases top
        exact isOpen
    · simp

/-- What a level that begins with a name returns is a path, or has the operator
from the bottom at its top. -/
theorem ensures_result_of_leads (leads : state.Leads) :
    Ensures state.result cursor fun value _ => value.isPath = true ∨ value.isOpen = true := by
  cases leads with
  | path path => simpa [result, reduce, reduceList] using .inl path
  | @member right receiver path =>
      have binds : Priority.sentinel ≤ StackedOperator.member.priority := by decide
      simp only [result, reduce, reduceList, binds, if_true, apply]
      cases right with
      | call => simpa [Expr.isPath] using .inl path
      | name => simpa [Expr.isPath] using .inl path
      | _ => simp
  | anchored anchored => exact (ensures_result_of_anchored anchored).mono fun _ _ isOpen => .inr isOpen

theorem ensures_pushOperator_of_anchored (anchored : state.Anchored) {operator : StackedOperator}
    (strong : ¬ operator.priority < .member) :
    Ensures (state.pushOperator operator) cursor fun pushed _ => pushed.Anchored := by
  simp only [pushOperator, Parser.ensures_bind, Parser.ensures_pure]
  refine (ensures_reduce_of_anchored anchored).mono fun reduced behind facts => ?_
  rcases facts with stays | ⟨weak, -⟩
  · exact stays.push operator
  · exact absurd weak strong

end ExprStacks

namespace Parser

open ExprStacks (Anchored Leads)

variable {state : ExprStacks}

theorem ensures_operand_of_anchored (anchored : state.Anchored) :
    Ensures (operand nested state) cursor fun pushed _ => pushed.Anchored := by
  have pushed (value : Expr) : (state.pushOperand value).Anchored := anchored
  simp only [operand, ensures_bind, ensures_freshId, ensures_currentKind]
  split
  · simp only [ensures_bind, ensures_pure]
    exact ensures_of_forall fun value _ => pushed value
  · simpa using pushed _
  · simpa using pushed _
  · simpa using pushed _
  · simp only [ensures_bind, ensures_pure]
    exact ensures_of_forall fun _ _ => ensures_of_forall fun value _ => pushed value
  · simp only [ensures_bind, ensures_pure]
    exact ensures_of_forall fun _ _ => ensures_of_forall fun value _ =>
      ensures_of_forall fun _ _ => pushed value
  · simp only [ensures_bind, ensures_pure]
    exact ensures_of_forall fun value _ => pushed value
  · simp only [creation, ensures_bind, ensures_expect, ensures_currentKind]
    intro _
    split
    · simp only [ensures_bind, ensures_take, ensures_expect, ensures_spanFrom, ensures_pure]
      intro _ _
      exact (ExprStacks.ensures_pushOperator_of_anchored anchored (by simp [StackedOperator.priority]; decide)).mono
        fun state _ stays => stays
    · simp only [ensures_bind, ensures_pure]
      exact ensures_of_forall fun value _ => pushed value
    · simp only [ensures_bind, ensures_pure]
      exact ensures_of_forall fun value _ => pushed value
    · simp
  · simp

/-- Any operator but a dot waits at the bottom or above one that does, unless
the level ends. -/
theorem ensures_operatorRound_of_not_dot {finished : Expr → Prop} (leads : state.Leads)
    (result : ∀ inner, Ensures state.result inner fun value _ => finished value)
    (other : headKind cursor.contents ≠ .dot) :
    Ensures (operatorRound nested state) cursor fun outcome _ =>
      match outcome with
      | .done value => finished value
      | .again next => next.Anchored := by
  simp only [operatorRound, ensures_bind, ensures_currentKind, other, if_false]
  split
  · next op read =>
      simp only [ensures_bind, ensures_take, ExprStacks.pushOperator, ensures_pure]
      have weak : (StackedOperator.binary op).priority < .member :=
        Nat.lt_trans op.priority_lt_index (by decide)
      refine (ExprStacks.ensures_reduce_anchored leads weak).mono fun reduced behind anchored => ?_
      exact ensures_operand_of_anchored (anchored _)
  · split
    · simp only [ensures_bind, ensures_take, ensures_expect, ensures_pure]
      have weak (close : Span) : (StackedOperator.index close).priority < .member :=
        show Priority.index < Priority.member by decide
      intro reduced behind read
      refine ensures_of_forall fun position further _ => ?_
      exact ExprStacks.ensures_reduce_anchored leads (weak further.current.span) _ _ read _
    · simp only [ensures_bind, ensures_pure]
      exact result cursor

/-- A dot leaves what waits at the bottom where it is. -/
theorem ensures_operatorRound_of_dot (dot : headKind cursor.contents = .dot)
    (anchored : state.Anchored) :
    Ensures (operatorRound nested state) cursor fun outcome _ =>
      match outcome with
      | .done _ => False
      | .again next => next.Anchored := by
  simp only [operatorRound, ensures_bind, ensures_currentKind, dot, BinaryOp.ofToken?, if_true,
    ensures_take, ensures_pure]
  refine (ExprStacks.ensures_pushOperator_of_anchored anchored (by decide)).mono
    fun pushed behind stays => ?_
  exact ensures_of_forall fun right _ => stays

/-- What waits at the bottom stays there until the level ends, and is then at
the top of the tree. -/
theorem ensures_operatorRound_of_anchored (anchored : state.Anchored) :
    Ensures (operatorRound nested state) cursor fun outcome _ =>
      match outcome with
      | .done value => value.isOpen = true
      | .again next => next.Anchored := by
  by_cases dot : headKind cursor.contents = .dot
  · refine (ensures_operatorRound_of_dot dot anchored).mono fun outcome _ facts => ?_
    cases outcome with
    | done => exact facts.elim
    | again => exact facts
  · exact ensures_operatorRound_of_not_dot (.anchored anchored)
      (fun _ => ExprStacks.ensures_result_of_anchored anchored) dot

/-- Every operator keeps the stacks of a level that begins with a name, and
what the level returns is a path or has an operator or index at its top. -/
theorem ensures_operatorRound_of_leads (leads : state.Leads) :
    Ensures (operatorRound nested state) cursor fun outcome _ =>
      match outcome with
      | .done value => value.isPath = true ∨ value.isOpen = true
      | .again next => next.Leads := by
  by_cases dot : headKind cursor.contents = .dot
  · simp only [operatorRound, ensures_bind, ensures_currentKind, dot, BinaryOp.ofToken?, if_true,
      ensures_take, ExprStacks.pushOperator, ensures_pure]
    refine (ExprStacks.ensures_reduce_of_leads leads (by decide)).mono fun reduced behind facts => ?_
    refine ensures_of_forall fun right _ => ?_
    rcases facts with ⟨value, path, rfl⟩ | stays | ⟨impossible, -⟩
    · exact .member path
    · exact .anchored (stays.push .member)
    · exact absurd impossible (by decide)
  · refine (ensures_operatorRound_of_not_dot leads
      (fun _ => ExprStacks.ensures_result_of_leads leads) dot).mono fun outcome _ facts => ?_
    cases outcome with
    | done => exact facts
    | again => exact .anchored facts

theorem ensures_nameOrCall_isPath (id : NodeId) (token : Token) :
    Ensures (nameOrCall nested id token) cursor fun value _ => value.isPath = true := by
  simp only [nameOrCall, ensures_bind, ensures_currentKind]
  split
  · simp only [ensures_bind, ensures_spanFrom, ensures_pure]
    exact ensures_of_forall fun _ _ => rfl
  · simp [Expr.isPath]

/-- An expression that begins with a name is a path, or has an operator or an
index at its top. -/
theorem ensures_expr_of_identifier (kind : headKind cursor.contents = .identifier) :
    Ensures expr cursor fun value _ => value.isPath = true ∨ value.isOpen = true := by
  refine ensures_nesting (fun inner => headKind inner.contents = .identifier)
    (fun _ (value : Expr) _ => value.isPath = true ∨ value.isOpen = true)
    (fun nested _ inner innerKind => ?_) cursor kind
  simp only [exprLevel, operand, ensures_bind, ensures_freshId, ensures_currentKind,
    Cursor.contents_withNextId, innerKind, ensures_take, ensures_pure]
  refine (ensures_nameOrCall_isPath _ _).mono fun value behind path => ?_
  refine ensures_rounds (fun state _ => state.Leads) (fun state further leads => ?_) (.path path)
  refine (ensures_operatorRound_of_leads leads).mono fun outcome _ facts => ?_
  cases outcome <;> exact facts

end Parser
end KnightFront
