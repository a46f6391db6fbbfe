import KnightFront.Proofs.Parse.ParsedPath
import KnightFront.Proofs.Parse.Stacks
import KnightFront.Proofs.Grammar.Reading

namespace KnightFront
namespace Grammar

/-!
# Balanced stacks

The stacks of an expression never run out of operands and never leave one
over.  In front of an operand as many operands are stacked as operators, all of
which bind less than a member; behind an operand there is one more, and a
member or an instance can be on top of the operators.  So operators are
applied without failing, and one operand is left at the end.
-/

open KnightFront.Parser (Ensures Yields)

/-- What can stand behind a dot: a name, or a call. -/
inductive Part : Bool → Expr → Prop where
  | name (info : ExprInfo) (used : NameUse) : Part false (.name info used)
  | call (info : ExprInfo) (callee : NameUse) (args : List Expr) : Part true (.call info callee args)

/-- As many operands as operators, which all bind less than a member. -/
structure Awaiting (state : ExprStacks) : Prop where
  loose : ∀ operator ∈ state.operators, operator.priority < .member
  balanced : state.operands.length = state.operators.length

/-- One more operand than operators, which all bind less than a member. -/
structure Settled (state : ExprStacks) : Prop where
  loose : ∀ operator ∈ state.operators, operator.priority < .member
  balanced : state.operands.length = state.operators.length + 1

/-- The stacks behind an operand. -/
inductive Filled : ExprStacks → Prop where
  | settled {state : ExprStacks} (settled : Settled state) : Filled state
  | member {operators : List StackedOperator} {operands : List Expr} {receiver right : Expr}
      {called : Bool} (part : Part called right) (settled : Settled ⟨operators, receiver :: operands⟩) :
      Filled ⟨.member :: operators, right :: receiver :: operands⟩
  | instantiation {operators : List StackedOperator} {operands : List Expr} (keyword : Span)
      (info : ExprInfo) (used : NameUse) (awaiting : Awaiting ⟨operators, operands⟩) :
      Filled ⟨.instantiation keyword :: operators, .name info used :: operands⟩

variable {cursor : Cursor} {state : ExprStacks} {least : Priority}

theorem awaiting_empty : Awaiting .empty := ⟨by simp [ExprStacks.empty], rfl⟩

theorem Awaiting.pushOperand (awaiting : Awaiting state) (value : Expr) :
    Settled (state.pushOperand value) :=
  ⟨awaiting.loose, congrArg (· + 1) awaiting.balanced⟩

/-- An instance binds stronger than all that waits. -/
theorem Awaiting.pushOperator_instantiation (awaiting : Awaiting state) (keyword : Span) :
    state.pushOperator (.instantiation keyword) =
      pure { state with operators := .instantiation keyword :: state.operators } := by
  have waits : state.reduce (StackedOperator.instantiation keyword).priority = pure state := by
    refine ExprStacks.reduce_of_lt fun top isTop => ?_
    exact Nat.lt_trans (awaiting.loose top (List.mem_of_mem_head? isTop))
      (show Priority.member < .instantiation by decide)
  simp [ExprStacks.pushOperator, waits]

/-- On top of settled stacks a weak operator waits for its second operand. -/
theorem Settled.push (settled : Settled state) {operator : StackedOperator}
    (weak : operator.priority < .member) :
    Awaiting { state with operators := operator :: state.operators } := by
  refine ⟨fun stacked member => ?_, settled.balanced⟩
  rcases List.mem_cons.mp member with rfl | below
  · exact weak
  · exact settled.loose stacked below

/-- An operator that binds less than a member can be applied to two operands
and gives one. -/
theorem yields_apply {operator : StackedOperator} (weak : operator.priority < .member)
    (left right : Expr) (below : List Expr) :
    Yields (ExprStacks.apply operator (right :: left :: below)) cursor fun applied behind =>
      (∃ value, applied = value :: below) ∧ behind.contents = cursor.contents := by
  cases operator with
  | binary | index => simp [ExprStacks.apply]
  | member => exact absurd weak (by decide)
  | instantiation => exact absurd (show Priority.instantiation < .member from weak) (by decide)

theorem Settled.yields_reduce (settled : Settled state) :
    Yields (state.reduce least) cursor fun reduced behind =>
      Settled reduced ∧ behind.contents = cursor.contents := by
  rcases state with ⟨operators, operands⟩
  induction operators generalizing operands cursor with
  | nil => simpa [ExprStacks.reduce, ExprStacks.reduceList] using settled
  | cons top below inductionHypothesis =>
      by_cases binds : least ≤ top.priority
      · rw [ExprStacks.reduce_cons_of_le binds, Parser.yields_bind]
        rcases operands with - | ⟨right, - | ⟨left, others⟩⟩
        · cases settled.balanced
        · cases settled.balanced
        refine (yields_apply (settled.loose top List.mem_cons_self) left right others).mono
          fun applied behind facts => ?_
        rcases facts with ⟨⟨value, rfl⟩, same⟩
        rw [← same]
        refine inductionHypothesis (value :: others) ⟨fun operator member => ?_, ?_⟩
        · exact settled.loose operator (List.mem_cons_of_mem top member)
        · simpa using settled.balanced
      · have waits : ExprStacks.reduce ⟨top :: below, operands⟩ least =
            pure ⟨top :: below, operands⟩ := by
          refine ExprStacks.reduce_of_lt fun first isFirst => ?_
          cases isFirst
          exact Nat.lt_of_not_le binds
        simpa only [waits, Parser.yields_pure, and_true] using settled

/-- In front of a member or a weaker operator the stacks become settled. -/
theorem Filled.yields_reduce (filled : Filled state) (weak : least ≤ .member) :
    Yields (state.reduce least) cursor fun reduced behind =>
      Settled reduced ∧ behind.contents = cursor.contents := by
  cases filled with
  | settled settled => exact settled.yields_reduce
  | @member operators operands receiver right called part settled =>
      have binds : least ≤ StackedOperator.member.priority := weak
      have replaced (value : Expr) : Settled ⟨operators, value :: operands⟩ :=
        ⟨settled.loose, settled.balanced⟩
      rw [ExprStacks.reduce_cons_of_le binds]
      cases part <;>
        simpa only [ExprStacks.apply, pure_bind] using (replaced _).yields_reduce
  | instantiation keyword info used awaiting =>
      have binds : least ≤ (StackedOperator.instantiation keyword).priority :=
        Nat.le_trans weak (show Priority.member ≤ Priority.instantiation by decide)
      rw [ExprStacks.reduce_cons_of_le binds]
      simp only [ExprStacks.apply, pure_bind]
      exact (awaiting.pushOperand _).yields_reduce

/-- At the end of a level one operand is left. -/
theorem Filled.yields_result (filled : Filled state) :
    Yields state.result cursor fun _ behind => behind.contents = cursor.contents := by
  rw [ExprStacks.result, Parser.yields_bind]
  rcases filled.yields_reduce (by decide : Priority.sentinel ≤ .member) with
    ⟨⟨operators, operands⟩, behind, read, settled, same⟩
  have empty : operators = [] := ExprStacks.ensures_reduce_sentinel _ _ read
  subst empty
  rcases List.length_eq_one_iff.mp settled.balanced with ⟨value, rfl⟩
  exact ⟨_, behind, read, by simpa using same⟩

/-- An operator that binds less than a member is put on settled stacks. -/
theorem Filled.yields_pushOperator (filled : Filled state) {operator : StackedOperator}
    (weak : operator.priority < .member) :
    Yields (state.pushOperator operator) cursor fun pushed behind =>
      Awaiting pushed ∧ behind.contents = cursor.contents := by
  simp only [ExprStacks.pushOperator, Parser.yields_bind, Parser.yields_pure]
  exact (filled.yields_reduce (Nat.le_of_lt weak)).mono fun reduced behind facts =>
    ⟨facts.1.push weak, facts.2⟩

/-- The stacks behind a dot: a receiver is stacked, and its member is missing. -/
inductive OpenMember : ExprStacks → Prop where
  | intro {operators : List StackedOperator} {operands : List Expr} {receiver : Expr}
      (settled : Settled ⟨operators, receiver :: operands⟩) :
      OpenMember ⟨.member :: operators, receiver :: operands⟩

theorem OpenMember.pushOperand (isOpen : OpenMember state) {called : Bool}
    {right : Expr} (part : Part called right) : Filled (state.pushOperand right) := by
  cases isOpen with
  | intro settled => exact .member part settled

/-- A dot is put on the stacks behind an operand. -/
theorem Filled.yields_pushMember (filled : Filled state) :
    Yields (state.pushOperator .member) cursor fun pushed behind =>
      OpenMember pushed ∧ behind.contents = cursor.contents := by
  simp only [ExprStacks.pushOperator, Parser.yields_bind, Parser.yields_pure]
  refine (filled.yields_reduce (Nat.le_refl _)).mono fun reduced behind facts => ⟨?_, facts.2⟩
  rcases reduced with ⟨operators, - | ⟨receiver, operands⟩⟩
  · cases facts.1.balanced
  · exact .intro facts.1

end Grammar
end KnightFront
