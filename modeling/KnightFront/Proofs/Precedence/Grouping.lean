import KnightFront.Proofs.Tree.Shape
import Mathlib.Data.List.Induction

namespace KnightFront

/-!
# Grouping a row of operands

One level of an expression is a row of operands with something between any two
neighbours: a binary operator, a dot, or a bracket, whose contents count as an
operand.  A grouping says what belongs to what.  It is right when no joint on
its left side binds less than it does, and every joint on its right side binds
more.

Every row has exactly one right grouping.  It arises by taking the operands one
after the other: each joint takes for its left side all that binds at least as
strongly.  There is no other, because the joint at the top of a right grouping
is the last of the weakest ones in the row.
-/

/-- What joins two neighbours in a row of operands. -/
inductive Joint where
  | binary (op : BinaryOp)
  | index
  | member
deriving DecidableEq, Repr

/-- How strongly a joint binds. -/
def Joint.priority : Joint → Priority
  | binary op => op.priority
  | index => .index
  | member => .member

/-- A row of operands.  Every operand but the first stands behind a joint. -/
structure Row where
  first : Expr
  others : List (Joint × Expr)

namespace Row

/-- The row of a single operand. -/
def ofOperand (value : Expr) : Row := ⟨value, []⟩

/-- Two rows with a joint between them. -/
def join (left : Row) (joint : Joint) (right : Row) : Row :=
  ⟨left.first, left.others ++ (joint, right.first) :: right.others⟩

theorem join_assoc (left middle right : Row) (first second : Joint) :
    (left.join first middle).join second right = left.join first (middle.join second right) := by
  simp [join]

end Row

/-- What stands behind a dot becomes a member of the receiver in front of it.
Only names and calls stand behind a dot. -/
def Expr.dotted (receiver : Expr) : Expr → Expr
  | .call _ callee args => .methodCall .bare receiver callee args
  | .name _ used => .field .bare receiver used
  | other => other

/-- The shape of the expression that a joint makes of its two sides. -/
def Joint.expr : Joint → Expr → Expr → Expr
  | binary op, left, right => .binary .bare op left right
  | index, base, position => .index .bare base position
  | member, receiver, part => receiver.dotted part

/-- A row put into groups of two. -/
inductive Grouping where
  | operand (value : Expr)
  | joined (joint : Joint) (left right : Grouping)

namespace Grouping

/-- The operands and joints of a grouping from left to right. -/
def row : Grouping → Row
  | operand value => .ofOperand value
  | joined joint left right => left.row.join joint right.row

/-- The shape of the expression that a grouping makes of its operands. -/
def expr : Grouping → Expr
  | operand value => value
  | joined joint left right => joint.expr left.expr right.expr

/-- The joint at the top of a grouping, if it has one. -/
def top? : Grouping → Option Joint
  | operand _ => none
  | joined joint _ _ => some joint

/-- Whether every joint binds at most as strongly as what is grouped on its
left, and less than what is grouped on its right. -/
def Grouped : Grouping → Prop
  | operand _ => True
  | joined joint left right =>
      left.Grouped ∧ right.Grouped ∧ (∀ top ∈ left.top?, joint.priority ≤ top.priority) ∧
        ∀ top ∈ right.top?, joint.priority < top.priority

/-- In a right grouping, no joint binds less than the one at the top. -/
theorem Grouped.le_of_mem {grouping : Grouping} (grouped : grouping.Grouped) {least : Nat}
    (above : ∀ top ∈ grouping.top?, least ≤ top.priority.rank) :
    ∀ step ∈ grouping.row.others, least ≤ step.1.priority.rank := by
  induction grouping with
  | operand value => exact nofun
  | joined joint left right leftHypothesis rightHypothesis =>
      rcases grouped with ⟨leftGrouped, rightGrouped, weaker, weakest⟩
      have top : least ≤ joint.priority.rank := above joint rfl
      have onLeft := leftHypothesis leftGrouped fun other isTop =>
        Nat.le_trans top (weaker other isTop)
      have onRight := rightHypothesis rightGrouped fun other isTop =>
        Nat.le_trans top (Nat.le_of_lt (weakest other isTop))
      simp only [row, Row.join, List.forall_mem_append, List.forall_mem_cons]
      exact ⟨onLeft, top, onRight⟩

/-- Where one of two right groupings of a row is parted, the other is not
parted further right. -/
theorem Grouped.eq_nil_of_append {firstJoint secondJoint : Joint}
    {firstLeft firstRight secondLeft secondRight : Grouping}
    (first : (joined firstJoint firstLeft firstRight).Grouped)
    (second : (joined secondJoint secondLeft secondRight).Grouped) {between : List (Joint × Expr)}
    (further : secondLeft.row.others = firstLeft.row.others ++ between)
    (same : (firstJoint, firstRight.row.first) :: firstRight.row.others =
      between ++ (secondJoint, secondRight.row.first) :: secondRight.row.others) :
    between = [] := by
  cases between with
  | nil => rfl
  | cons step between =>
      rcases List.cons.inj same with ⟨rfl, behind⟩
      have onLeft : (firstJoint, firstRight.row.first) ∈ secondLeft.row.others := by simp [further]
      have onRight : (secondJoint, secondRight.row.first) ∈ firstRight.row.others := by simp [behind]
      have notLess : secondJoint.priority.rank ≤ firstJoint.priority.rank :=
        second.1.le_of_mem second.2.2.1 _ onLeft
      have more : firstJoint.priority.rank < secondJoint.priority.rank :=
        first.2.1.le_of_mem first.2.2.2 _ onRight
      exact absurd notLess (Nat.not_le_of_lt more)

/-- A row has at most one right grouping. -/
theorem Grouped.unique : ∀ {first second : Grouping}, first.Grouped → second.Grouped →
    first.row = second.row → first = second
  | operand value, operand other, _, _, same => congrArg operand (congrArg Row.first same)
  | operand value, joined .., _, _, same => by
      have lengths := congrArg (fun row => row.others.length) same
      simp [row, Row.ofOperand, Row.join] at lengths
  | joined .., operand value, _, _, same => by
      have lengths := congrArg (fun row => row.others.length) same
      simp [row, Row.ofOperand, Row.join] at lengths
  | joined firstJoint firstLeft firstRight, joined secondJoint secondLeft secondRight, first,
      second, same => by
      rcases Row.mk.inj same with ⟨front, others⟩
      have parted : firstLeft.row.others = secondLeft.row.others ∧
          (firstJoint, firstRight.row.first) :: firstRight.row.others =
            (secondJoint, secondRight.row.first) :: secondRight.row.others := by
        rcases List.append_eq_append_iff.mp others with ⟨between, left, right⟩ | ⟨between, left, right⟩
        · have none := first.eq_nil_of_append second left right
          subst none
          exact ⟨by simpa using left.symm, right⟩
        · have none := second.eq_nil_of_append first left right
          subst none
          exact ⟨by simpa using left, right.symm⟩
      rcases List.cons.inj parted.2 with ⟨step, behind⟩
      rcases Prod.mk.inj step with ⟨joints, next⟩
      have leftSame := first.1.unique second.1 (Row.mk.injEq .. ▸ ⟨front, parted.1⟩)
      have rightSame := first.2.1.unique second.2.1 (Row.mk.injEq .. ▸ ⟨next, behind⟩)
      rw [joints, leftSame, rightSame]

/-- A grouping with one more operand behind it.  The joint in front of the
operand takes for its left side all that binds at least as strongly. -/
def extend (joint : Joint) (value : Expr) : Grouping → Grouping
  | operand first => joined joint (operand first) (operand value)
  | joined top left right =>
      if joint.priority ≤ top.priority then joined joint (joined top left right) (operand value)
      else joined top left (extend joint value right)

variable {joint : Joint} {value : Expr} {grouping : Grouping}

theorem extend_of_le (strong : ∀ top ∈ grouping.top?, joint.priority ≤ top.priority) :
    grouping.extend joint value = joined joint grouping (operand value) := by
  cases grouping with
  | operand first => rfl
  | joined top left right => simp [extend, strong top rfl]

theorem row_extend : (grouping.extend joint value).row = grouping.row.join joint (.ofOperand value) := by
  induction grouping with
  | operand first => rfl
  | joined top left right _ inductionHypothesis =>
      by_cases strong : joint.priority ≤ top.priority
      · simp [extend, strong, row]
      · simp [extend, strong, row, inductionHypothesis, Row.join_assoc]

/-- At the top of an extended grouping stands the old top or the new joint. -/
theorem top?_extend {top : Joint} (isTop : top ∈ (grouping.extend joint value).top?) :
    top ∈ grouping.top? ∨ top = joint := by
  cases grouping with
  | operand first => exact .inr (Option.some.inj isTop).symm
  | joined other left right =>
      by_cases strong : joint.priority ≤ other.priority
      · simp only [extend, strong, if_true, top?, Option.mem_some_iff] at isTop
        exact .inr isTop.symm
      · simp only [extend, strong, if_false] at isTop
        exact .inl isTop

/-- A right grouping is extended to a right one. -/
theorem Grouped.extend (grouped : grouping.Grouped) : (grouping.extend joint value).Grouped := by
  induction grouping with
  | operand first => exact ⟨trivial, trivial, nofun, nofun⟩
  | joined top left right _ inductionHypothesis =>
      rcases grouped with ⟨leftGrouped, rightGrouped, weaker, weakest⟩
      by_cases strong : joint.priority ≤ top.priority
      · rw [Grouping.extend, if_pos strong]
        refine ⟨⟨leftGrouped, rightGrouped, weaker, weakest⟩, trivial, fun other isTop => ?_, nofun⟩
        obtain rfl : top = other := Option.some.inj isTop
        exact strong
      · rw [Grouping.extend, if_neg strong]
        refine ⟨leftGrouped, inductionHypothesis rightGrouped, weaker, fun other isTop => ?_⟩
        rcases top?_extend isTop with old | rfl
        · exact weakest other old
        · exact Nat.lt_of_not_le strong

end Grouping

/-- The right grouping of a row. -/
def Row.grouping (row : Row) : Grouping :=
  row.others.foldl (fun grouping step => grouping.extend step.1 step.2) (.operand row.first)

namespace Row

theorem grouping_concat (first : Expr) (others : List (Joint × Expr)) (joint : Joint)
    (value : Expr) :
    grouping ⟨first, others ++ [(joint, value)]⟩ =
      (grouping ⟨first, others⟩).extend joint value := by
  simp [grouping]

theorem row_grouping (row : Row) : row.grouping.row = row := by
  rcases row with ⟨first, others⟩
  induction others using List.reverseRecOn with
  | nil => rfl
  | append_singleton others step inductionHypothesis =>
      rw [grouping_concat, Grouping.row_extend, inductionHypothesis]
      rfl

theorem grouped_grouping (row : Row) : row.grouping.Grouped := by
  rcases row with ⟨first, others⟩
  induction others using List.reverseRecOn with
  | nil => trivial
  | append_singleton others step inductionHypothesis =>
      rw [grouping_concat]
      exact inductionHypothesis.extend

end Row

end KnightFront
