import KnightFront.Proofs.Parse.ParsedPath
import KnightFront.Proofs.Parse.Stacks
import KnightFront.Proofs.Precedence.Grouping

namespace KnightFront

/-!
# Partly applied stacks

Between two steps of a level, the stacks hold the right grouping of the row
that has been read so far, cut open along its right side.  Every operator that
waits has its left side below it, and binds more than those that wait under it.
Applying operators moves the cut and leaves the grouping as it is.  So when
what binds at least as strongly as the next joint is applied, the new operand
is put where the extended grouping has it.
-/

/-- The joint that an operator stands for.  An instance is an operand that has
not been put together yet. -/
def StackedOperator.joint? : StackedOperator → Option Joint
  | binary op => some (.binary op)
  | member => some .member
  | index _ => some .index
  | instantiation _ => none

theorem StackedOperator.priority_of_joint? {operator : StackedOperator} {joint : Joint}
    (waits : operator.joint? = some joint) : operator.priority = joint.priority := by
  cases operator <;> cases waits <;> rfl

/-- A joint that waits for its right side, with its left side. -/
abbrev OpenGroup := Grouping × Joint

/-- The grouping that arises when everything that waits is applied. -/
def Grouping.closed : List OpenGroup → Grouping → Grouping
  | [], grouping => grouping
  | frame :: frames, grouping => closed frames (.joined frame.2 frame.1 grouping)

/-- Behind a grouping that binds strongly enough, an operand goes to where the
cut is. -/
theorem Grouping.extend_closed {frames : List OpenGroup} {grouping : Grouping} {joint : Joint}
    {value : Expr} (weaker : ∀ frame ∈ frames, frame.2.priority < joint.priority)
    (strong : ∀ top ∈ grouping.top?, joint.priority ≤ top.priority) :
    (closed frames grouping).extend joint value =
      closed ((grouping, joint) :: frames) (.operand value) := by
  suffices within : (closed frames grouping).extend joint value =
      closed frames (grouping.extend joint value) by
    calc
      (closed frames grouping).extend joint value =
          closed frames (grouping.extend joint value) := within
      _ = closed frames (.joined joint grouping (.operand value)) := by
        rw [extend_of_le strong]
      _ = closed ((grouping, joint) :: frames) (.operand value) := rfl
  clear strong
  induction frames generalizing grouping with
  | nil => rfl
  | cons frame frames inductionHypothesis =>
      rw [List.forall_mem_cons] at weaker
      have binds : ¬ joint.priority ≤ frame.2.priority := Nat.not_le_of_lt weaker.1
      calc
        (closed (frame :: frames) grouping).extend joint value =
            closed frames ((Grouping.joined frame.2 frame.1 grouping).extend joint value) :=
          inductionHypothesis weaker.2
        _ = closed frames (.joined frame.2 frame.1 (grouping.extend joint value)) := by
          rw [Grouping.extend, if_neg binds]
        _ = closed (frame :: frames) (grouping.extend joint value) := rfl

namespace ExprStacks

open KnightFront.Parser (Ensures)

/-- The operators that wait, each above its left side. -/
inductive Waiting : List OpenGroup → List StackedOperator → List Expr → Prop where
  | none : Waiting [] [] []
  | frame {left : Grouping} {joint : Joint} {operator : StackedOperator} {value : Expr}
      {frames : List OpenGroup} {operators : List StackedOperator} {operands : List Expr}
      (waits : operator.joint? = some joint) (shape : value.bare = left.expr)
      (above : ∀ lower ∈ frames, lower.2.priority < joint.priority)
      (below : Waiting frames operators operands) :
      Waiting ((left, joint) :: frames) (operator :: operators) (value :: operands)

/-- The stacks hold a grouping that is cut open at its last operand. -/
inductive Holds : Grouping → ExprStacks → Prop where
  | operand {frames : List OpenGroup} {operators : List StackedOperator} {value : Expr}
      {operands : List Expr} (waiting : Waiting frames operators operands) :
      Holds (.closed frames (.operand value.bare)) ⟨operators, value :: operands⟩
  | instantiation {frames : List OpenGroup} {operators : List StackedOperator} {keyword : Span}
      {info : ExprInfo} {className : NameUse} {operands : List Expr}
      (waiting : Waiting frames operators operands) :
      Holds (.closed frames (.operand (.newInstance .bare className.bare)))
        ⟨.instantiation keyword :: operators, .name info className :: operands⟩

/-- The stacks hold a grouping that is cut open where everything before the cut
binds less than a priority, and nothing behind it does. -/
def CutAt (least : Priority) (whole : Grouping) (state : ExprStacks) : Prop :=
  ∃ frames grouping value operands, state.operands = value :: operands ∧
    Waiting frames state.operators operands ∧ value.bare = grouping.expr ∧
    Grouping.closed frames grouping = whole ∧ (∀ frame ∈ frames, frame.2.priority < least) ∧
    ∀ top ∈ grouping.top?, least ≤ top.priority

variable {frames : List OpenGroup} {operators : List StackedOperator} {operands : List Expr}
  {grouping whole : Grouping} {cursor : Cursor} {least : Priority} {state : ExprStacks}

/-- The tree that a joint makes of two trees has the shape of the joined
shapes. -/
theorem ensures_waits_apply {operator : StackedOperator} {joint : Joint} {left right : Expr}
    (waits : operator.joint? = some joint) :
    Ensures (apply operator (right :: left :: operands)) cursor fun applied behind =>
      behind.contents = cursor.contents ∧
        ∃ value, applied = value :: operands ∧ value.bare = joint.expr left.bare right.bare := by
  cases operator with
  | binary op =>
      cases waits
      simp [apply, Joint.expr, Expr.bare]
  | member =>
      cases waits
      cases right <;> simp [apply, Joint.expr, Expr.dotted, Expr.bare]
  | index close =>
      cases waits
      simp [apply, Joint.expr, Expr.bare]
  | instantiation keyword => cases waits

/-- Applying what binds at least as strongly as a priority moves the cut. -/
theorem ensures_reduceList {value : Expr} (waiting : Waiting frames operators operands)
    (shape : value.bare = grouping.expr) (strong : ∀ top ∈ grouping.top?, least ≤ top.priority) :
    Ensures (reduceList least operators (value :: operands)) cursor fun reduced behind =>
      behind.contents = cursor.contents ∧ CutAt least (.closed frames grouping) reduced := by
  induction waiting generalizing grouping value cursor with
  | none =>
      simp only [reduceList, Parser.ensures_pure, true_and]
      exact ⟨[], grouping, value, [], rfl, .none, shape, rfl, by simp, strong⟩
  | @frame left joint operator receiver frames operators operands waits bare above below
      inductionHypothesis =>
      by_cases binds : least ≤ operator.priority
      · simp only [reduceList, binds, if_true, Parser.ensures_bind]
        refine (ensures_waits_apply waits).mono fun applied middle facts => ?_
        rcases facts with ⟨same, made, rfl, joined⟩
        rw [← same]
        have grown : made.bare = (Grouping.joined joint left grouping).expr := by
          rw [joined, bare, shape, Grouping.expr]
        refine inductionHypothesis grown fun top isTop => ?_
        obtain rfl : joint = top := Option.some.inj isTop
        rwa [StackedOperator.priority_of_joint? waits] at binds
      · simp only [reduceList, binds, if_false, Parser.ensures_pure, true_and]
        have weak : joint.priority < least := by
          rw [← StackedOperator.priority_of_joint? waits]
          exact Nat.lt_of_not_le binds
        refine ⟨_, grouping, value, _, rfl, .frame waits bare above below, shape, rfl, ?_, strong⟩
        rw [List.forall_mem_cons]
        exact ⟨weak, fun lower member => Nat.lt_trans (above lower member) weak⟩

/-- A waiting instance is put together first. -/
theorem Holds.ensures_reduce (holds : Holds whole state) (weak : least ≤ .member) :
    Ensures (state.reduce least) cursor fun reduced behind =>
      behind.contents = cursor.contents ∧ CutAt least whole reduced := by
  cases holds with
  | operand waiting => exact ensures_reduceList waiting rfl (by simp [Grouping.top?])
  | @instantiation frames operators keyword info className operands waiting =>
      have binds : least ≤ (StackedOperator.instantiation keyword).priority :=
        Nat.le_trans weak (show Priority.member ≤ Priority.instantiation by decide)
      rw [reduce_cons_of_le binds]
      simp only [apply, pure_bind]
      exact ensures_reduceList waiting rfl (by simp [Grouping.top?])

/-- An operator that is put on the stacks starts a frame. -/
theorem CutAt.push {joint : Joint} (cut : CutAt joint.priority whole state)
    (operator : StackedOperator) (waits : operator.joint? = some joint) :
    ∃ frames, Waiting frames (operator :: state.operators) state.operands ∧
      ∀ value, Grouping.closed frames (.operand value) = whole.extend joint value := by
  rcases cut with ⟨frames, grouping, value, operands, same, waiting, shape, rfl, weak, strong⟩
  refine ⟨(grouping, joint) :: frames, ?_, fun value => ?_⟩
  · rw [same]
    exact .frame waits shape weak waiting
  · rw [Grouping.extend_closed weak strong]

/-- At the end of a level the grouping is a tree. -/
theorem Holds.ensures_result (holds : Holds whole state) :
    Ensures state.result cursor fun value behind =>
      value.bare = whole.expr ∧ behind.contents = cursor.contents := by
  simp only [result, Parser.ensures_bind]
  refine ((holds.ensures_reduce (by decide)).and ensures_reduce_sentinel).mono
    fun reduced behind facts => ?_
  rcases facts with
    ⟨⟨same, frames, grouping, value, operands, held, waiting, shape, rfl, -⟩, applied⟩
  rw [applied] at waiting
  cases waiting
  simp only [held, Parser.ensures_pure]
  exact ⟨shape, same⟩

end ExprStacks
end KnightFront
