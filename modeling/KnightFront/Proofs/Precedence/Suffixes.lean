import KnightFront.Proofs.Precedence.Levels
import Mathlib.Data.List.Chain

namespace KnightFront

/-!
# Members and positions behind an operand

A member binds more than an index.  So a member behind a bracket belongs to
what stands in the bracket, and to the bracket with everything in front of it
only if no bracket stands in front of the member.  A row of an operand with
members and positions behind it is therefore applied from left to right exactly
when no member stands directly behind a bracket.
-/

variable {first value : Expr} {suffixes others : List (Joint × Expr)} {joint : Joint}

/-- Whether a joint is a dot or a bracket. -/
def Joint.isSuffix : Joint → Bool
  | binary _ => false
  | _ => true

namespace Expr

/-- An operand with joints applied from left to right, each to the whole of
what precedes it. -/
def leftToRight (first : Expr) (suffixes : List (Joint × Expr)) : Expr :=
  suffixes.foldl (fun front step => step.1.expr front step.2) first

/-- What is read for suffixes behind an expression, inside of which a bracket
may still be open for members. -/
def suffixedIn (within : Expr → Expr) (front : Expr) : List (Joint × Expr) → Expr
  | [] => within front
  | (.member, part) :: rest => suffixedIn within (front.dotted part) rest
  | (joint, position) :: rest => suffixedIn (joint.expr (within front)) position rest

/-- What is read for an operand with suffixes. -/
def suffixed (first : Expr) (suffixes : List (Joint × Expr)) : Expr :=
  suffixedIn (fun whole => whole) first suffixes

end Expr

/-- Whether a step is a bracket and the next one is a member behind it. -/
def MemberBehindIndex (step next : Joint × Expr) : Prop := step.1 = .index ∧ next.1 = .member

instance (step next : Joint × Expr) : Decidable (MemberBehindIndex step next) :=
  inferInstanceAs (Decidable (_ ∧ _))

/-- Whether no member stands directly behind a bracket. -/
def Unbracketed (suffixes : List (Joint × Expr)) : Prop :=
  suffixes.IsChain fun step next => ¬ MemberBehindIndex step next

namespace Grouping

/-- At the top of a closed grouping stands a joint that waited, or the old
top. -/
theorem top?_closed {frames : List OpenGroup} {grouping : Grouping} {top : Joint}
    (isTop : top ∈ (closed frames grouping).top?) :
    top ∈ grouping.top? ∨ ∃ frame ∈ frames, frame.2 = top := by
  induction frames generalizing grouping with
  | nil => exact .inl isTop
  | cons frame frames inductionHypothesis =>
      rcases inductionHypothesis isTop with here | ⟨lower, member, same⟩
      · exact .inr ⟨frame, List.mem_cons_self, Option.some.inj here⟩
      · exact .inr ⟨lower, List.mem_cons_of_mem frame member, same⟩

/-- While suffixes are taken one after the other, nothing but brackets waits for
members. -/
theorem expr_foldl_extend (frames : List OpenGroup) (grouping : Grouping) {within : Expr → Expr}
    (brackets : ∀ frame ∈ frames, frame.2 = .index)
    (members : ∀ top ∈ grouping.top?, top = .member)
    (shape : ∀ inner, (closed frames inner).expr = within inner.expr)
    (only : ∀ step ∈ suffixes, step.1.isSuffix = true) :
    (suffixes.foldl (fun front step => front.extend step.1 step.2) (closed frames grouping)).expr =
      grouping.expr.suffixedIn within suffixes := by
  induction suffixes generalizing frames grouping within with
  | nil => exact shape grouping
  | cons step suffixes inductionHypothesis =>
      rcases step with ⟨joint, part⟩
      rw [List.forall_mem_cons] at only
      rcases only with ⟨isSuffix, only⟩
      cases joint with
      | binary op => cases isSuffix
      | index =>
          have strong : ∀ top ∈ (closed frames grouping).top?,
              Joint.index.priority ≤ top.priority := by
            intro top isTop
            rcases top?_closed isTop with inner | ⟨frame, member, rfl⟩
            · rw [members top inner]
              decide
            · rw [brackets frame member]
              exact Nat.le_refl _
          rw [List.foldl_cons, extend_of_le strong]
          refine inductionHypothesis [(closed frames grouping, .index)] (.operand part) (by simp) nofun
            (fun inner => ?_) only
          rw [closed, closed, Grouping.expr, shape]
      | member =>
          have weaker : ∀ frame ∈ frames, frame.2.priority < Joint.member.priority := by
            intro frame member
            rw [brackets frame member]
            decide
          have strong : ∀ top ∈ grouping.top?, Joint.member.priority ≤ top.priority := by
            intro top isTop
            rw [members top isTop]
            exact Nat.le_refl _
          rw [List.foldl_cons, extend_closed weaker strong]
          exact inductionHypothesis frames (.joined .member grouping (.operand part)) brackets
            (fun top isTop => (Option.some.inj isTop).symm) shape only

end Grouping

/-- The right grouping of an operand with suffixes. -/
theorem Row.expr_grouping_of_suffixes (only : ∀ step ∈ suffixes, step.1.isSuffix = true) :
    (Row.grouping ⟨first, suffixes⟩).expr = first.suffixed suffixes :=
  Grouping.expr_foldl_extend [] (.operand first) nofun nofun (fun _ => rfl) only

/-- Whether something may stand behind a dot. -/
def Expr.isPart : Expr → Bool
  | .name .. => true
  | .call .. => true
  | _ => false

theorem Expr.dotted_injective {front other part : Expr} (isPart : part.isPart = true)
    (same : front.dotted part = other.dotted part) : front = other := by
  cases part with
  | name | call => simpa [dotted] using same
  | _ => cases isPart

theorem Expr.dotted_ne_index {front base position part : Expr} (isPart : part.isPart = true) :
    front.dotted part ≠ .index .bare base position := by
  cases part with
  | name | call => simp [dotted]
  | _ => cases isPart

namespace Row

/-- The joint at the top is one of the row. -/
theorem isSuffix_of_top (only : ∀ step ∈ suffixes, step.1.isSuffix = true)
    {top : Joint} (isTop : top ∈ (grouping ⟨first, suffixes⟩).top?) : top.isSuffix = true := by
  induction suffixes using List.reverseRecOn with
  | nil => cases isTop
  | append_singleton suffixes step inductionHypothesis =>
      rw [List.forall_mem_append, List.forall_mem_singleton] at only
      rw [grouping_concat] at isTop
      rcases Grouping.top?_extend isTop with old | rfl
      · exact inductionHypothesis only.1 old
      · exact only.2

/-- A bracket takes all suffixes in front of it. -/
theorem grouping_concat_index (only : ∀ step ∈ suffixes, step.1.isSuffix = true) :
    grouping ⟨first, suffixes ++ [(Joint.index, value)]⟩ =
      .joined .index (grouping ⟨first, suffixes⟩) (.operand value) := by
  rw [grouping_concat, Grouping.extend_of_le]
  intro top isTop
  have isSuffix := isSuffix_of_top only isTop
  cases top with
  | binary op => cases isSuffix
  | index => exact Nat.le_refl _
  | member => decide

/-- A member takes all suffixes in front of it if no bracket is at the top. -/
theorem grouping_concat_member (only : ∀ step ∈ suffixes, step.1.isSuffix = true)
    (notIndex : (grouping ⟨first, suffixes⟩).top? ≠ some .index) :
    grouping ⟨first, suffixes ++ [(Joint.member, value)]⟩ =
      .joined .member (grouping ⟨first, suffixes⟩) (.operand value) := by
  rw [grouping_concat, Grouping.extend_of_le]
  intro top isTop
  have isSuffix := isSuffix_of_top only isTop
  cases top with
  | binary op => cases isSuffix
  | index => exact absurd isTop notIndex
  | member => exact Nat.le_refl _

/-- A member goes into a bracket at the top. -/
theorem top?_grouping_concat_member (isIndex : (grouping ⟨first, suffixes⟩).top? = some .index) :
    (grouping ⟨first, suffixes ++ [(Joint.member, value)]⟩).top? = some .index := by
  rw [grouping_concat]
  cases held : grouping ⟨first, suffixes⟩ with
  | operand => simp [held, Grouping.top?] at isIndex
  | joined top left right =>
      obtain rfl : top = .index := by simpa [held, Grouping.top?] using isIndex
      rw [Grouping.extend, if_neg (by decide), Grouping.top?]

theorem expr_of_top_index {grouping : Grouping} (isIndex : grouping.top? = some .index) :
    ∃ base position, grouping.expr = .index .bare base position := by
  cases grouping with
  | operand => cases isIndex
  | joined top left right =>
      cases isIndex
      exact ⟨left.expr, right.expr, rfl⟩

theorem unbracketed_concat {step : Joint × Expr} :
    Unbracketed (suffixes ++ [step]) ↔
      Unbracketed suffixes ∧ ∀ last ∈ suffixes.getLast?, ¬ MemberBehindIndex last step := by
  simp [Unbracketed, List.isChain_append]

/-- If no member stands directly behind a bracket, a bracket at the top is the
last of the suffixes. -/
theorem getLast?_of_top (only : ∀ step ∈ suffixes, step.1.isSuffix = true)
    (unbracketed : Unbracketed suffixes)
    (isIndex : (grouping ⟨first, suffixes⟩).top? = some .index) :
    ∃ last ∈ suffixes.getLast?, last.1 = .index := by
  induction suffixes using List.reverseRecOn with
  | nil => cases isIndex
  | append_singleton suffixes step inductionHypothesis =>
      rw [List.forall_mem_append, List.forall_mem_singleton] at only
      rw [unbracketed_concat] at unbracketed
      refine ⟨step, by simp, ?_⟩
      rcases step with ⟨joint, part⟩
      cases joint with
      | binary op => cases only.2
      | index => rfl
      | member =>
          by_cases inner : (grouping ⟨first, suffixes⟩).top? = some .index
          · rcases inductionHypothesis only.1 unbracketed.1 inner with ⟨last, isLast, index⟩
            exact absurd ⟨index, rfl⟩ (unbracketed.2 last isLast)
          · rw [grouping_concat_member only.1 inner] at isIndex
            cases isIndex

/-- Suffixes are grouped from left to right exactly if no member stands
directly behind a bracket. -/
theorem expr_grouping_eq_leftToRight_iff (only : ∀ step ∈ suffixes, step.1.isSuffix = true)
    (parts : ∀ step ∈ suffixes, step.1 = .member → step.2.isPart = true) :
    (grouping ⟨first, suffixes⟩).expr = first.leftToRight suffixes ↔ Unbracketed suffixes := by
  induction suffixes using List.reverseRecOn with
  | nil => exact ⟨fun _ => .nil, fun _ => rfl⟩
  | append_singleton suffixes step inductionHypothesis =>
      rw [List.forall_mem_append, List.forall_mem_singleton] at only parts
      rcases step with ⟨joint, part⟩
      have applied : first.leftToRight (suffixes ++ [(joint, part)]) =
          joint.expr (first.leftToRight suffixes) part := by
        simp [Expr.leftToRight]
      rw [unbracketed_concat, applied, ← inductionHypothesis only.1 parts.1]
      cases joint with
      | binary op => cases only.2
      | index =>
          rw [grouping_concat_index only.1]
          simp [Grouping.expr, Joint.expr, MemberBehindIndex]
      | member =>
          have isPart : part.isPart = true := parts.2 rfl
          by_cases inner : (grouping ⟨first, suffixes⟩).top? = some .index
          · have stays : (grouping ⟨first, suffixes ++ [(Joint.member, part)]⟩).top? = some .index :=
              top?_grouping_concat_member inner
            rcases expr_of_top_index stays with ⟨base, position, shape⟩
            have differs : (first.leftToRight suffixes).dotted part ≠ .index .bare base position :=
              Expr.dotted_ne_index isPart
            refine iff_of_false (fun same => differs (same.symm.trans shape)) ?_
            rintro ⟨agrees, apart⟩
            have unbracketed := (inductionHypothesis only.1 parts.1).mp agrees
            rcases getLast?_of_top only.1 unbracketed inner with ⟨last, isLast, index⟩
            exact apart last isLast ⟨index, rfl⟩
          · have apart : ∀ last ∈ suffixes.getLast?, ¬ MemberBehindIndex last (.member, part) := by
              rintro ⟨joint, position⟩ isLast ⟨rfl, -⟩
              rcases List.getLast?_eq_some_iff.mp isLast with ⟨front, rfl⟩
              rw [List.forall_mem_append] at only
              rw [grouping_concat_index only.1.1] at inner
              exact inner rfl
            rw [grouping_concat_member only.1 inner]
            exact ⟨fun same => ⟨Expr.dotted_injective isPart same, apart⟩,
              fun facts => congrArg (Expr.dotted · part) facts.1⟩

end Row

theorem Piece.Spelled.isPart {ahead behind : List TokenContent}
    (spelled : Spelled (.part value) ahead behind) : value.isPart = true := by
  cases spelled with
  | name | call => rfl

/-- Only names and calls stand behind a dot. -/
theorem Piece.Spelled.isPart_of_member {ahead behind : List TokenContent}
    (spelled : Spelled (.steps suffixes) ahead behind) :
    ∀ step ∈ suffixes, step.1 = .member → step.2.isPart = true := by
  induction suffixes generalizing ahead with
  | nil => exact nofun
  | cons step suffixes inductionHypothesis =>
      rw [List.forall_mem_cons]
      cases spelled with
      | binary _ _ rest => exact ⟨nofun, inductionHypothesis rest⟩
      | index _ rest => exact ⟨nofun, inductionHypothesis rest⟩
      | member next rest => exact ⟨fun _ => next.isPart, inductionHypothesis rest⟩

/-- An operand with suffixes is read, and each member in it belongs to the
bracket in front of it.  Only without a member directly behind a bracket is the
result applied from left to right. -/
theorem Parser.yields_expr_of_suffixes {cursor : Cursor} {middle behind : List TokenContent}
    (operand : Piece.Spelled (.operand first) cursor.contents middle)
    (steps : Piece.Spelled (.steps suffixes) middle behind)
    (only : ∀ step ∈ suffixes, step.1.isSuffix = true) (ends : headKind behind ≠ .openParen) :
    Parser.Yields Parser.expr cursor fun value rest =>
      rest.contents = behind ∧ value.bare = first.suffixed suffixes ∧
        (value.bare = first.leftToRight suffixes ↔ Unbracketed suffixes) := by
  have derived : Grammar.Between .accepted (.phrase .expr) cursor.contents behind :=
    (Piece.Spelled.row operand steps).derived
  have endsExpr : Grammar.EndsExpr (headKind behind) := by
    have noSuffix := steps.ends
    simp only [Grammar.suffixKinds, List.mem_append, Grammar.mem_operatorKinds, not_or] at noSuffix
    simp_all [Grammar.EndsExpr]
  refine ((Grammar.reads_expr.complete behind derived endsExpr).and
    (readsSpelled_expr cursor)).mono fun value rest facts => ?_
  rcases facts with ⟨same, spelled⟩
  have level : Piece.Spelled (.expr (Row.grouping ⟨first, suffixes⟩).expr) cursor.contents behind :=
    .expr _ (.row operand steps) (Row.row_grouping _) (Row.grouped_grouping _) rfl
  have shape : value.bare = (Row.grouping ⟨first, suffixes⟩).expr :=
    Piece.expr.inj (spelled.unique level trivial).1
  refine ⟨same, shape.trans (Row.expr_grouping_of_suffixes only), ?_⟩
  rw [shape]
  exact Row.expr_grouping_eq_leftToRight_iff only steps.isPart_of_member

/-- The tokens of `p[i].m(a)`. -/
def memberBehindIndex : List Token :=
  [⟨.identifier, "p", .nowhere⟩, ⟨.openBracket, "[", .nowhere⟩, ⟨.identifier, "i", .nowhere⟩,
    ⟨.closeBracket, "]", .nowhere⟩, ⟨.dot, ".", .nowhere⟩, ⟨.identifier, "m", .nowhere⟩,
    ⟨.openParen, "(", .nowhere⟩, ⟨.identifier, "a", .nowhere⟩, ⟨.closeParen, ")", .nowhere⟩,
    ⟨.eof, "EOF", .nowhere⟩]

/-- The call behind the bracket is a call on the position, not on the element. -/
theorem Parser.yields_expr_memberBehindIndex :
    Parser.Yields Parser.expr (.ofTokens memberBehindIndex) fun value rest =>
      rest.contents = [] ∧
        value.bare = .index .bare (.named "p")
          (.methodCall .bare (.named "i") (.ofSpelling "m") [.named "a"]) ∧
        value.bare ≠ .methodCall .bare (.index .bare (.named "p") (.named "i")) (.ofSpelling "m")
          [.named "a"] := by
  have args : Piece.Spelled (.list .closeParen [.named "a"])
      [(.identifier, "a"), (.closeParen, ")")] [] :=
    .some (by decide) (.last (Piece.spelled_named (by decide) (by decide)) (by decide))
  have steps : Piece.Spelled
      (.steps [(.index, .named "i"), (.member, .call .bare (.ofSpelling "m") [.named "a"])])
      ((memberBehindIndex.drop 1).dropLast.map Token.content) [] :=
    .index (Piece.spelled_named (by decide) (by decide)) (.member (.call args) (.done (by decide)))
  have operand : Piece.Spelled (.operand (.named "p"))
      (Cursor.ofTokens memberBehindIndex).contents
      ((memberBehindIndex.drop 1).dropLast.map Token.content) :=
    .part (.name (by decide))
  refine (Parser.yields_expr_of_suffixes operand steps (by decide) (by decide)).mono
    fun value rest facts => ?_
  rcases facts with ⟨same, shape, -⟩
  exact ⟨same, shape, shape ▸ Expr.noConfusion⟩

end KnightFront
