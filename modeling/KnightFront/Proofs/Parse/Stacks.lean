import KnightFront.Parse.Expr
import KnightFront.Proofs.Parse.Rules
import KnightFront.Proofs.Printing.Reread

namespace KnightFront

/-!
# The stacks of an expression

An operand that is read on top of waiting binary operators leaves the stacks
in one of few states.  Applying what binds as strongly as a member brings them
down to two: the operand is complete, or an index waits for its position,
which a member may still extend.  The theorems here say how these states arise
and how they go on when a member, an index or a weaker operator follows.
-/

namespace ExprStacks

open KnightFront.Parser (Yields)

variable {cursor : Cursor} {least middle : Priority} {base state : ExprStacks}

/-- Nothing is applied if the topmost operator binds less. -/
theorem reduce_of_lt (weaker : ∀ top ∈ state.operators.head?, top.priority < least) :
    state.reduce least = pure state := by
  rcases state with ⟨operators, operands⟩
  cases operators with
  | nil => rfl
  | cons top below =>
      have binds : ¬ least ≤ top.priority := Nat.not_le_of_lt (weaker top rfl)
      simp [reduce, reduceList, binds]

/-- The topmost operator is applied first if it binds strongly enough. -/
theorem reduce_cons_of_le {top : StackedOperator} {below : List StackedOperator}
    {operands : List Expr} (binds : least ≤ top.priority) :
    reduce ⟨top :: below, operands⟩ least =
      (do reduce ⟨below, ← apply top operands⟩ least) := by
  simp [reduce, reduceList, binds]

/-- Applying down to a priority can pause at any higher one. -/
theorem yields_reduce_trans (higher : least ≤ middle) {post : ExprStacks → Cursor → Prop} :
    Yields (state.reduce least) cursor post ↔
      Yields (state.reduce middle) cursor fun paused behind =>
        Yields (paused.reduce least) behind post := by
  rcases state with ⟨operators, operands⟩
  induction operators generalizing operands cursor with
  | nil => simp [reduce, reduceList]
  | cons top below inductionHypothesis =>
      by_cases binds : middle ≤ top.priority
      · have weakly : least ≤ top.priority := Nat.le_trans higher binds
        simp only [reduce] at inductionHypothesis
        simp [reduce, reduceList, binds, weakly, inductionHypothesis]
      · simp [reduce, reduceList, binds]

/-- Whether only operators that bind less than an index wait on top. -/
def Open (state : ExprStacks) : Prop := ∀ top ∈ state.operators.head?, top.priority < .index

/-- What is on top of the stacks when nothing that binds like a member waits:
an operand that is no index, or an index that is not yet applied. -/
inductive Settled (base : ExprStacks) : Expr → ExprStacks → Prop where
  | operand {value : Expr} (plain : value.isIndex = false) :
      Settled base value.bare ⟨base.operators, value :: base.operands⟩
  | index (close : Span) (outer position : Expr) :
      Settled base (.index .bare outer.bare position.bare)
        ⟨.index close :: base.operators, position :: outer :: base.operands⟩

/-- The stacks stand for an expression of a shape on top of others, once
everything that binds like a member is applied. -/
def Represents (base : ExprStacks) (shape : Expr) (state : ExprStacks) : Prop :=
  ∀ cursor, Yields (state.reduce .member) cursor fun settled behind =>
    Settled base shape settled ∧ behind.contents = cursor.contents

variable {shape : Expr}

/-- Nothing binds like a member when an operand lies on waiting binary
operators. -/
theorem Open.reduce_member (opened : base.Open) {operands : List Expr} :
    reduce ⟨base.operators, operands⟩ .member = pure ⟨base.operators, operands⟩ :=
  reduce_of_lt fun top first => Nat.lt_trans (opened top first) (by decide)

theorem Open.reduce_index (opened : base.Open) {operands : List Expr} :
    reduce ⟨base.operators, operands⟩ .index = pure ⟨base.operators, operands⟩ :=
  reduce_of_lt opened

/-- An operand by itself stands for its shape. -/
theorem Represents.operand (opened : base.Open) {value : Expr} (plain : value.isIndex = false)
    (bare : value.bare = shape) : Represents base shape (base.pushOperand value) := by
  intro cursor
  subst bare
  simp only [pushOperand, opened.reduce_member, Parser.yields_pure, and_true]
  exact .operand plain

/-- A class name below a waiting instance stands for the instance. -/
theorem Represents.instantiation (opened : base.Open) {keyword : Span} {info : ExprInfo}
    {className used : NameUse} (same : className.text = used.text) :
    Represents base (.newInstance .bare used.bare)
      ⟨.instantiation keyword :: base.operators, .name info className :: base.operands⟩ := by
  intro cursor
  rw [← NameUse.bare_eq_iff.mpr same]
  have binds : Priority.member ≤ (StackedOperator.instantiation keyword).priority :=
    show Priority.member ≤ Priority.instantiation by decide
  simp only [reduce_cons_of_le binds, apply, pure_bind, opened.reduce_member, Parser.yields_pure,
    and_true]
  exact .operand (show (Expr.newInstance _ className).isIndex = false from rfl)

/-- An index that is not yet applied stands for the index. -/
theorem Represents.index (close : Span) (outer position : Expr) :
    Represents base (.index .bare outer.bare position.bare)
      ⟨.index close :: base.operators, position :: outer :: base.operands⟩ := by
  intro cursor
  have waits : reduce ⟨.index close :: base.operators, position :: outer :: base.operands⟩ .member =
      pure ⟨.index close :: base.operators, position :: outer :: base.operands⟩ :=
    reduce_of_lt (by simp [StackedOperator.priority]; decide)
  simp only [waits, Parser.yields_pure, and_true]
  exact .index close outer position

/-- A member on top of settled stacks stands for the expression with the member
put behind it. -/
theorem Represents.member (opened : base.Open) {settled : ExprStacks} (holds : Settled base shape settled)
    {right : Expr} {put member : Expr → Expr}
    (applied : ∀ receiver below,
      apply .member (right :: receiver :: below) = pure (put receiver :: below))
    (plain : ∀ receiver, (put receiver).isIndex = false)
    (bare : ∀ receiver, (put receiver).bare = member receiver.bare) :
    Represents base (shape.behind member)
      ⟨.member :: settled.operators, right :: settled.operands⟩ := by
  intro cursor
  have binds : Priority.member ≤ StackedOperator.member.priority := by decide
  cases holds with
  | @operand value plainValue =>
      simp only [reduce_cons_of_le binds, applied, pure_bind, opened.reduce_member,
        Parser.yields_pure, and_true]
      have shape : value.bare.behind member = (put value).bare := by
        rw [Expr.behind_of_isIndex_eq_false (value.isIndex_bare ▸ plainValue), bare]
      exact shape ▸ .operand (plain value)
  | index close outer position =>
      simp only [reduce_cons_of_le binds, applied, pure_bind]
      have extended : Represents base _ _ := .index close outer (put position)
      simpa only [bare, Expr.behind] using extended cursor

/-- In front of an operator that binds less than an index, the expression is
completed. -/
theorem Represents.complete (represents : Represents base shape state)
    (weak : least ≤ .index) {post : ExprStacks → Cursor → Prop}
    (completed : ∀ value behind, value.bare = shape → behind.contents = cursor.contents →
      Yields (reduce ⟨base.operators, value :: base.operands⟩ least) behind post) :
    Yields (state.reduce least) cursor post := by
  rw [yields_reduce_trans (Nat.le_trans weak (by decide) : least ≤ .member)]
  refine (represents cursor).mono fun settled behind facts => ?_
  rcases facts with ⟨holds, same⟩
  cases holds with
  | operand => exact completed _ behind rfl same
  | index close outer position =>
      rw [reduce_cons_of_le (show least ≤ (StackedOperator.index close).priority from weak)]
      simp only [apply, Parser.yields_bind, Parser.yields_freshId, Parser.yields_pure]
      exact completed _ _ rfl same

end ExprStacks
end KnightFront
