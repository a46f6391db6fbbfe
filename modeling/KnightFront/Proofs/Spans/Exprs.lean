import KnightFront.Proofs.Parse.Stacks
import KnightFront.Proofs.Spans.Order
import KnightFront.Proofs.Tree.Roles

namespace KnightFront

/-!
# Spans of expressions

The nodes of an expression that has been read lie between the first of its
tokens and the last.  A node does not always contain its parts, as parentheses
are left out and an index closes at its bracket although a member behind it has
gone into the bracket.  So the bounds here are those of the tokens, and they are
carried through the stacks: every operator that waits has its left side below
it, which begins before everything above.
-/

namespace Expr

variable {low lower high higher : Position} {expr : Expr}

/-- Every node of an expression lies between two places. -/
def Within (low high : Position) (expr : Expr) : Prop :=
  ∀ node ∈ expr.nodes, node.span.Between low high

theorem Within.mono (within : expr.Within low high) (low_le : lower ≤ low)
    (le_high : high ≤ higher) : expr.Within lower higher :=
  fun node member => (within node member).mono low_le le_high

/-- An expression lies between two places if its own span and its parts do. -/
theorem within_iff : expr.Within low high ↔
    expr.span.Between low high ∧ ∀ part ∈ expr.parts.map Prod.snd, part.Within low high := by
  calc
    expr.Within low high ↔
        expr.span.Between low high ∧
          ∀ node ∈ nodesOfList (expr.parts.map Prod.snd), node.span.Between low high := by
      rw [Within, nodes_eq_cons, List.forall_mem_cons]
    _ ↔ expr.span.Between low high ∧
          ∀ part ∈ expr.parts.map Prod.snd, part.Within low high := by
      rw [nodesOfList_eq_flatMap, List.forall_mem_flatMap]
      rfl

/-- An expression without parts lies where its span does. -/
theorem Within.of_leaf (leaf : expr.parts = []) (between : expr.span.Between low high) :
    expr.Within low high :=
  within_iff.mpr ⟨between, by simp [leaf]⟩

theorem Within.span (within : expr.Within low high) : expr.span.Between low high :=
  (within_iff.mp within).1

end Expr

/-- Whether an operator that waits can take the expression on its left.  An
index has been closed behind this expression, and an instance takes none. -/
def StackedOperator.Beside (high : Position) (left : Expr) : StackedOperator → Prop
  | binary _ => True
  | member => True
  | index close => left.position ≤ close.finish ∧ close.finish ≤ high
  | instantiation _ => False

theorem StackedOperator.Beside.mono {high higher : Position} {left : Expr}
    {operator : StackedOperator} (beside : operator.Beside high left) (le_high : high ≤ higher) :
    operator.Beside higher left := by
  cases operator with
  | binary | member => trivial
  | index close => exact ⟨beside.1, beside.2.trans le_high⟩
  | instantiation keyword => exact beside

theorem StackedOperator.Beside.priority_lt {high : Position} {left : Expr}
    {operator : StackedOperator} (beside : operator.Beside high left) :
    operator.priority < .instantiation := by
  cases operator with
  | binary op => exact Nat.lt_trans op.priority_lt_index (by decide)
  | member => decide
  | index close => exact (by decide : Priority.index < .instantiation)
  | instantiation keyword => exact beside.elim

/-- From one cursor to another only identities have been handed out. -/
def Cursor.Stays (cursor behind : Cursor) : Prop :=
  ∃ next, behind = { cursor with nextId := next }

theorem Cursor.Stays.reaches {cursor behind : Cursor} (stays : cursor.Stays behind)
    (ordered : cursor.Ordered) : cursor.Reaches behind := by
  obtain ⟨next, rfl⟩ := stays
  exact (Cursor.reaches_withNextId next).mp ((Cursor.ordered_withNextId next).mpr ordered).reaches

namespace ExprStacks

open KnightFront.Parser (Ensures)

variable {low high higher bound : Position} {cursor : Cursor} {state : ExprStacks}
  {least : Priority} {operators : List StackedOperator} {operands : List Expr} {value : Expr}

/-- Every operator that waits has its left side below it.  Each left side begins
before the next one, and the last one before a given place. -/
inductive Standing (low high : Position) :
    Position → List StackedOperator → List Expr → Prop where
  | none {bound : Position} : Standing low high bound [] []
  | frame {bound : Position} {operator : StackedOperator} {left : Expr}
      {operators : List StackedOperator} {operands : List Expr}
      (beside : operator.Beside high left) (within : left.Within low high)
      (le_bound : left.position ≤ bound)
      (below : Standing low high left.position operators operands) :
      Standing low high bound (operator :: operators) (left :: operands)

theorem Standing.mono {further : Position} (standing : Standing low high bound operators operands)
    (le_further : bound ≤ further) (le_high : high ≤ higher) :
    Standing low higher further operators operands := by
  induction standing generalizing further with
  | none => exact .none
  | frame beside within le_bound below inductionHypothesis =>
      exact .frame (beside.mono le_high) (within.mono (le_refl _) le_high)
        (le_bound.trans le_further) (inductionHypothesis (le_refl _))

/-- The stacks with an operand on top that is put together. -/
inductive Spanned (low high : Position) : ExprStacks → Prop where
  | intro {operators : List StackedOperator} {operands : List Expr} {value : Expr}
      (within : value.Within low high)
      (standing : Standing low high value.position operators operands) :
      Spanned low high ⟨operators, value :: operands⟩

/-- The stacks behind an operand, which may be a class name behind its keyword. -/
inductive Filled (low high : Position) : ExprStacks → Prop where
  | operand {state : ExprStacks} (spanned : Spanned low high state) : Filled low high state
  | instantiation {operators : List StackedOperator} {operands : List Expr} {keyword : Span}
      {info : ExprInfo} {className : NameUse} (low_le : low ≤ keyword.start)
      (le_start : keyword.start ≤ info.span.start)
      (within : (Expr.name info className).Within low high)
      (standing : Standing low high keyword.start operators operands) :
      Filled low high ⟨.instantiation keyword :: operators, .name info className :: operands⟩

/-- An operator that takes two expressions makes one that begins with the left
of them. -/
theorem ensures_spanned_apply {operator : StackedOperator} {left right : Expr}
    (beside : operator.Beside high left) (leftWithin : left.Within low high)
    (rightWithin : right.Within low high) (le : left.position ≤ right.position) :
    Ensures (apply operator (right :: left :: operands)) cursor fun applied behind =>
      cursor.Stays behind ∧ ∃ value, applied = value :: operands ∧
        value.position = left.position ∧ value.Within low high := by
  have through : (left.span.through right.span).Between low high :=
    ⟨leftWithin.span.low_le, le.trans rightWithin.span.ordered, rightWithin.span.le_high⟩
  cases operator with
  | binary op =>
      simp only [apply, Parser.ensures_bind, Parser.ensures_freshId, Parser.ensures_pure]
      refine ⟨⟨_, rfl⟩, _, rfl, rfl, Expr.within_iff.mpr ⟨through, ?_⟩⟩
      simpa [Expr.parts] using And.intro leftWithin rightWithin
  | member =>
      have parts := (Expr.within_iff.mp rightWithin).2
      simp only [apply]
      split
      · simp only [Parser.ensures_pure]
        refine ⟨⟨_, rfl⟩, _, rfl, rfl, Expr.within_iff.mpr ⟨through, ?_⟩⟩
        simpa [Expr.parts] using And.intro leftWithin parts
      · simp only [Parser.ensures_pure]
        refine ⟨⟨_, rfl⟩, _, rfl, rfl, Expr.within_iff.mpr ⟨through, ?_⟩⟩
        simpa [Expr.parts] using leftWithin
      · simp
  | index close =>
      simp only [apply, Parser.ensures_bind, Parser.ensures_freshId, Parser.ensures_pure]
      have span := leftWithin.span
      refine ⟨⟨_, rfl⟩, _, rfl, rfl,
        Expr.within_iff.mpr ⟨⟨span.low_le, beside.1, beside.2⟩, ?_⟩⟩
      simpa [Expr.parts] using And.intro leftWithin rightWithin
  | instantiation keyword => exact beside.elim

/-- Applying operators keeps the operands in their order. -/
theorem ensures_spanned_reduce (within : value.Within low high)
    (standing : Standing low high bound operators operands) (le : bound ≤ value.position) :
    Ensures (reduce ⟨operators, value :: operands⟩ least) cursor fun reduced behind =>
      cursor.Stays behind ∧ Spanned low high reduced := by
  induction standing generalizing value cursor with
  | none => simpa [reduce, reduceList] using ⟨⟨_, rfl⟩, .intro within .none⟩
  | @frame bound operator left operators operands beside leftWithin le_bound below
      inductionHypothesis =>
      by_cases binds : least ≤ operator.priority
      · rw [reduce_cons_of_le binds, Parser.ensures_bind]
        refine (ensures_spanned_apply beside leftWithin within (le_bound.trans le)).mono
          fun applied between facts => ?_
        obtain ⟨⟨next, rfl⟩, joined, rfl, begins, joinedWithin⟩ := facts
        exact inductionHypothesis joinedWithin (le_of_eq begins.symm)
      · rw [reduce_of_lt fun top isTop => by cases isTop; exact Nat.lt_of_not_le binds,
          Parser.ensures_pure]
        exact ⟨⟨_, rfl⟩, .intro within (.frame beside leftWithin (le_bound.trans le) below)⟩

/-- A class instance that waits is put together first. -/
theorem Filled.ensures_reduce (filled : Filled low high state) (weak : least ≤ .member) :
    Ensures (state.reduce least) cursor fun reduced behind =>
      cursor.Stays behind ∧ Spanned low high reduced := by
  cases filled with
  | operand spanned =>
      cases spanned with
      | intro within standing => exact ensures_spanned_reduce within standing (le_refl _)
  | @instantiation operators operands keyword info className low_le le_start within standing =>
      have binds : least ≤ (StackedOperator.instantiation keyword).priority :=
        Nat.le_trans weak (show Priority.member ≤ Priority.instantiation by decide)
      rw [reduce_cons_of_le binds]
      simp only [apply, pure_bind]
      refine ensures_spanned_reduce (.of_leaf rfl ?_) standing (le_refl _)
      exact ⟨low_le, le_start.trans within.span.ordered, within.span.le_high⟩

/-- The stacks in front of an operand: what waits begins before the token under
the cursor. -/
structure Awaits (low : Position) (cursor : Cursor) (state : ExprStacks) : Prop where
  low_le : low ≤ cursor.current.span.start
  standing : Standing low cursor.previousEnd cursor.current.span.start state.operators
    state.operands

/-- A binary operator or a dot is put on top of its left side, and an operand is
to follow. -/
theorem Filled.ensures_pushOperator (filled : Filled low high state) (ordered : cursor.Ordered)
    (le : high ≤ cursor.previousEnd) {operator : StackedOperator}
    (weak : operator.priority ≤ .member) (beside : ∀ left, operator.Beside high left) :
    Ensures (state.pushOperator operator) cursor fun pushed behind =>
      cursor.Reaches behind ∧ Awaits low behind pushed := by
  simp only [pushOperator, Parser.ensures_bind, Parser.ensures_pure]
  refine (filled.ensures_reduce weak).mono ?_
  rintro reduced behind ⟨stays, spanned⟩
  have reaches := stays.reaches ordered
  have ahead : high ≤ behind.current.span.start :=
    calc
      high ≤ cursor.previousEnd := le
      _ ≤ behind.previousEnd := reaches.previousEnd_le
      _ ≤ behind.current.span.start := reaches.ordered.previousEnd_le
  cases spanned with
  | intro within standing =>
      have span := within.span
      refine ⟨reaches, span.low_le_high.trans ahead, ?_⟩
      exact .mono (.frame (beside _) within (span.ordered.trans span.le_high) standing) ahead
        (le.trans reaches.previousEnd_le)

/-- A class instance binds stronger than all that waits. -/
theorem Standing.pushOperator_instantiation
    (standing : Standing low high bound state.operators state.operands) (keyword : Span) :
    state.pushOperator (.instantiation keyword) =
      pure { state with operators := .instantiation keyword :: state.operators } := by
  rcases state with ⟨operators, operands⟩
  have weaker : ∀ top ∈ operators.head?,
      top.priority < (StackedOperator.instantiation keyword).priority := by
    rintro top isTop
    cases standing with
    | none => cases isTop
    | frame beside =>
        cases isTop
        exact beside.priority_lt
  rw [pushOperator, reduce_of_lt weaker, pure_bind]

/-- At the end of a level one operand is left. -/
theorem Filled.ensures_result (filled : Filled low high state) :
    Ensures state.result cursor fun value behind =>
      cursor.Stays behind ∧ value.Within low high := by
  simp only [result, Parser.ensures_bind]
  refine (filled.ensures_reduce (by decide)).mono fun reduced behind facts => ?_
  obtain ⟨stays, ⟨within, standing⟩⟩ := facts
  split
  · next only isOnly =>
      cases isOnly
      exact Parser.ensures_pure.mpr ⟨stays, within⟩
  · simp

theorem Awaits.pushOperand {behind : Cursor} (awaits : Awaits low cursor state)
    (reaches : cursor.Reaches behind)
    (within : value.Within cursor.current.span.start behind.previousEnd) :
    Filled low behind.previousEnd (state.pushOperand value) :=
  .operand (.intro (within.mono awaits.low_le (le_refl _))
    (awaits.standing.mono within.span.low_le reaches.previousEnd_le))

end ExprStacks

/-! ## Readers -/

/-- What lies inside a part of what is read lies inside the whole. -/
theorem Expr.Within.widen {outer inner between behind : Cursor} {expr : Expr}
    (within : expr.Within inner.current.span.start between.previousEnd)
    (before : outer.Reaches inner) (after : between.Reaches behind) :
    expr.Within outer.current.span.start behind.previousEnd :=
  within.mono before.start_le after.previousEnd_le

namespace Parser

open ExprStacks (Awaits Filled Standing)

section Expressions

variable {nested : Parser Expr} {cursor : Cursor} {low : Position} {state : ExprStacks}

/-- Several expressions with commas between them. -/
theorem Fits.commaSeparated (fits : Fits Expr.Within nested) :
    Fits (fun low high values => ∀ value ∈ values, value.Within low high)
      (commaSeparated nested) := by
  intro cursor ordered
  refine ensures_rounds
    (fun collected inner => cursor.Reaches inner ∧
      ∀ value ∈ collected, value.Within cursor.current.span.start inner.previousEnd) ?_
    ⟨ordered.reaches, by simp⟩
  rintro collected inner ⟨reached, held⟩
  simp only [ensures_bind]
  refine (fits inner reached.ordered).mono ?_
  rintro value behind ⟨reaches, within⟩
  have all := reached.trans reaches
  have longer (last : Cursor) (after : behind.Reaches last) : ∀ found ∈ value :: collected,
      found.Within cursor.current.span.start last.previousEnd :=
    List.forall_mem_cons.mpr ⟨within.widen reached after, fun found member =>
      (held found member).widen ordered.reaches (reaches.trans after)⟩
  simp only [ensures_currentKind]
  split
  · simp only [ensures_bind, ensures_take, ensures_pure]
    have comma := all.ordered.reaches_advance
    exact ⟨all.trans comma, longer _ comma⟩
  · simp only [ensures_pure, List.mem_reverse]
    exact ⟨all, longer _ all.ordered.reaches⟩

theorem Fits.listUpTo (fits : Fits Expr.Within nested) (close : TokenKind) :
    Fits (fun low high values => ∀ value ∈ values, value.Within low high)
      (listUpTo close nested) := by
  intro cursor ordered
  simp only [Parser.listUpTo, ensures_bind, ensures_currentKind]
  split
  · simpa using ordered.reaches
  · exact fits.commaSeparated cursor ordered

variable (fits : Fits Expr.Within nested)

include fits

theorem Fits.arguments : Fits (fun low high values => ∀ value ∈ values, value.Within low high)
    (arguments nested) := by
  intro cursor ordered
  have opening := ordered.reaches_advance
  simp only [Parser.arguments, ensures_bind, ensures_expect]
  intro _
  refine (fits.listUpTo _ _ ordered.advance).mono ?_
  rintro args behind ⟨reaches, within⟩
  simp only [ensures_pure]
  intro _
  have closing := reaches.ordered.reaches_advance
  exact ⟨opening.trans (reaches.trans closing), fun arg member =>
    (within arg member).widen opening closing⟩

/-- A name or a call begins with a token that has been read. -/
theorem Fits.nameOrCall (ordered : cursor.Ordered) (id : NodeId) {token : Token}
    (between : token.span.Between low cursor.previousEnd) :
    Ensures (nameOrCall nested id token) cursor fun value behind =>
      cursor.Reaches behind ∧ value.Within low behind.previousEnd := by
  have start_le := between.ordered.trans between.le_high
  simp only [Parser.nameOrCall, ensures_bind, ensures_currentKind]
  split
  · simp only [ensures_bind]
    refine (fits.arguments cursor ordered).mono ?_
    rintro args behind ⟨reaches, within⟩
    simp only [ensures_spanFrom, ensures_pure]
    refine ⟨reaches, Expr.within_iff.mpr ⟨?_, ?_⟩⟩
    · exact ⟨between.low_le, start_le.trans reaches.previousEnd_le, le_refl _⟩
    · simpa [Expr.parts] using fun arg member =>
        (within arg member).mono (between.low_le_high.trans ordered.previousEnd_le) (le_refl _)
  · simp only [ensures_pure]
    exact ⟨ordered.reaches, .of_leaf rfl between⟩

theorem Fits.member : Fits Expr.Within (member nested) := by
  refine .fresh fun id cursor ordered => ?_
  have name := ordered.reaches_advance
  simp only [ensures_bind, ensures_expectOr]
  intro _
  refine (fits.nameOrCall name.ordered id ordered.between).mono fun value behind facts => ?_
  exact ⟨name.trans facts.1, facts.2⟩

theorem Fits.arrayLiteral (id : NodeId) : Fits Expr.Within (arrayLiteral nested id) := by
  intro cursor ordered
  have opening := ordered.reaches_advance
  simp only [Parser.arrayLiteral, ensures_bind, ensures_position, ensures_take]
  refine (fits.listUpTo _ _ ordered.advance).mono ?_
  rintro items behind ⟨reaches, within⟩
  simp only [ensures_expect, ensures_spanFrom, ensures_pure]
  intro _
  have closing := reaches.ordered.reaches_advance
  have all := opening.trans (reaches.trans closing)
  refine ⟨all, Expr.within_iff.mpr ⟨⟨le_refl _, ?_, le_refl _⟩, ?_⟩⟩
  · exact ordered.start_le_advance.trans (reaches.trans closing).previousEnd_le
  · simpa [Expr.parts] using fun item member => (within item member).widen opening closing

/-- A new array begins with its keyword, which has been read. -/
theorem Fits.arrayInstance (ordered : cursor.Ordered) (id : NodeId) (element : ElementTy)
    (le : low ≤ cursor.previousEnd) :
    Ensures (arrayInstance nested id low element) cursor fun value behind =>
      cursor.Reaches behind ∧ value.Within low behind.previousEnd := by
  have word := ordered.reaches_advance
  have opening := word.ordered.reaches_advance
  simp only [Parser.arrayInstance, ensures_bind, ensures_take, ensures_expect]
  intro _
  refine (fits _ opening.ordered).mono ?_
  rintro length behind ⟨reaches, within⟩
  simp only [ensures_spanFrom, ensures_pure]
  intro _
  have closing := reaches.ordered.reaches_advance
  have all := word.trans (opening.trans (reaches.trans closing))
  refine ⟨all, Expr.within_iff.mpr ⟨⟨le_refl _, le.trans all.previousEnd_le, le_refl _⟩, ?_⟩⟩
  simpa [Expr.parts] using (within.widen (word.trans opening) closing).mono
    (le.trans ordered.previousEnd_le) (le_refl _)

omit fits in
theorem fits_numberLiteral (id : NodeId) : Fits Expr.Within (numberLiteral id) := by
  intro cursor ordered
  simp only [numberLiteral, ensures_bind, ensures_take]
  split
  · simp only [ensures_pure]
    exact ⟨ordered.reaches_advance, .of_leaf rfl ordered.between⟩
  · simp

/-- A new instance leaves its keyword on the stack of operators and the name of its
class on that of operands. -/
theorem Fits.creation (ordered : cursor.Ordered) (awaits : Awaits low cursor state) (id : NodeId) :
    Ensures (creation nested id state) cursor fun pushed behind =>
      cursor.Reaches behind ∧ Filled low behind.previousEnd pushed := by
  have keyword := ordered.reaches_advance
  have array (element : ElementTy) :
      Ensures (do
          return state.pushOperand
            (← Parser.arrayInstance nested id cursor.current.span.start element))
        cursor.advance fun pushed behind =>
          cursor.Reaches behind ∧ Filled low behind.previousEnd pushed := by
    simp only [ensures_bind, ensures_pure]
    refine (fits.arrayInstance keyword.ordered id element ordered.start_le_advance).mono ?_
    rintro value behind ⟨reaches, within⟩
    exact ⟨keyword.trans reaches, awaits.pushOperand (keyword.trans reaches) within⟩
  simp only [Parser.creation, ensures_bind, ensures_expect, ensures_currentKind]
  intro _
  split
  · have name := keyword.ordered.reaches_advance
    have opening := name.ordered.reaches_advance
    have closing := opening.ordered.reaches_advance
    have all := keyword.trans (name.trans (opening.trans closing))
    simp only [ensures_bind, ensures_take, ensures_expect, ensures_spanFrom, ensures_pure,
      awaits.standing.pushOperator_instantiation]
    intro _ _
    refine ⟨all, .instantiation awaits.low_le keyword.start_le
      (.of_leaf rfl ⟨awaits.low_le.trans keyword.start_le, ?_, le_refl _⟩)
      (awaits.standing.mono (le_refl _) all.previousEnd_le)⟩
    exact keyword.ordered.start_le_advance.trans (opening.trans closing).previousEnd_le
  · exact array .int
  · exact array .string
  · simp

/-- One operand is put on its stack. -/
theorem Fits.operand (before : cursor.Ordered) (awaitsBefore : Awaits low cursor state) :
    Ensures (operand nested state) cursor fun pushed behind =>
      cursor.Reaches behind ∧ Filled low behind.previousEnd pushed := by
  simp only [Parser.operand, ensures_bind, ensures_freshId, ensures_currentKind]
  generalize started : { cursor with nextId := cursor.nextId + 1 } = start
  have ordered : start.Ordered := by simpa [← started] using before
  have awaits : Awaits low start state := by
    subst started
    exact ⟨awaitsBefore.low_le, awaitsBefore.standing⟩
  have same {behind : Cursor} : start.Reaches behind ↔ cursor.Reaches behind := by
    rw [← started, Cursor.reaches_withNextId]
  have push {value : Expr} {behind : Cursor} (facts : start.Reaches behind ∧
      value.Within start.current.span.start behind.previousEnd) :
      cursor.Reaches behind ∧ Filled low behind.previousEnd (state.pushOperand value) :=
    ⟨same.mp facts.1, awaits.pushOperand facts.1 facts.2⟩
  have first := ordered.reaches_advance
  split
  · simp only [ensures_bind, ensures_pure]
    exact (fits_numberLiteral _ _ ordered).mono fun _ _ => push
  · simp only [ensures_bind, ensures_take, ensures_pure]
    exact push ⟨first, .of_leaf rfl ordered.between⟩
  · simp only [ensures_bind, ensures_take, ensures_pure]
    exact push ⟨first, .of_leaf rfl ordered.between⟩
  · simp only [ensures_bind, ensures_take, ensures_pure]
    exact push ⟨first, .of_leaf rfl ordered.between⟩
  · simp only [ensures_bind, ensures_take, ensures_pure]
    exact (fits.nameOrCall first.ordered _ ordered.between).mono fun value behind facts =>
      push ⟨first.trans facts.1, facts.2⟩
  · simp only [ensures_bind, ensures_take, ensures_expect, ensures_pure]
    refine (fits _ first.ordered).mono ?_
    rintro value behind ⟨reaches, within⟩ -
    have closing := reaches.ordered.reaches_advance
    exact push ⟨first.trans (reaches.trans closing), within.widen first closing⟩
  · simp only [ensures_bind, ensures_pure]
    exact (fits.arrayLiteral _ _ ordered).mono fun _ _ => push
  · exact (fits.creation ordered awaits _).mono fun pushed behind facts =>
      ⟨same.mp facts.1, facts.2⟩
  · simp

/-- One operator is read with the operand behind it, or the end of the level. -/
theorem Fits.operatorRound (ordered : cursor.Ordered)
    (filled : Filled low cursor.previousEnd state) :
    Ensures (operatorRound nested state) cursor fun outcome behind => cursor.Reaches behind ∧
      match outcome with
      | .done value => value.Within low behind.previousEnd
      | .again next => Filled low behind.previousEnd next := by
  have sign := ordered.reaches_advance
  simp only [Parser.operatorRound, ensures_bind, ensures_currentKind]
  split
  · next op _ =>
      simp only [ensures_bind, ensures_take, ensures_pure]
      have weak : (StackedOperator.binary op).priority ≤ .member :=
        Nat.le_of_lt (Nat.lt_trans op.priority_lt_index (by decide))
      refine (filled.ensures_pushOperator sign.ordered sign.previousEnd_le weak
        fun _ => trivial).mono ?_
      rintro pushed between ⟨waits, awaits⟩
      refine (fits.operand waits.ordered awaits).mono ?_
      rintro next behind ⟨reaches, filled⟩
      exact ⟨sign.trans (waits.trans reaches), filled⟩
  · split
    · simp only [ensures_bind, ensures_take, ensures_pure]
      have weak : StackedOperator.member.priority ≤ .member := Nat.le_refl _
      refine (filled.ensures_pushOperator sign.ordered sign.previousEnd_le weak
        fun _ => trivial).mono ?_
      rintro pushed between ⟨waits, awaits⟩
      refine (fits.member between waits.ordered).mono ?_
      rintro value behind ⟨reaches, within⟩
      exact ⟨sign.trans (waits.trans reaches), awaits.pushOperand reaches within⟩
    · split
      · simp only [ensures_bind, ensures_take, ensures_expect, ensures_pure]
        have weak : Priority.index ≤ .member := by decide
        refine (filled.ensures_reduce weak).mono ?_
        rintro reduced between ⟨stays, spanned⟩
        have waits := stays.reaches sign.ordered
        refine (fits between waits.ordered).mono ?_
        rintro inner behind ⟨reaches, within⟩ -
        have closing := reaches.ordered.reaches_advance
        have front := sign.trans waits
        have all := front.trans (reaches.trans closing)
        refine ⟨all, .operand ?_⟩
        cases spanned with
        | intro baseWithin standing =>
            have base := baseWithin.span
            -- The bracket has been opened behind the base.
            have ahead : cursor.previousEnd ≤ between.current.span.start :=
              front.previousEnd_le.trans front.ordered.previousEnd_le
            have before := base.ordered.trans base.le_high
            have base_le := calc
              _ ≤ cursor.previousEnd := before
              _ ≤ between.current.span.start := ahead
              _ ≤ inner.span.start := within.span.low_le
            refine .intro (within.mono (base.low_le_high.trans ahead) closing.previousEnd_le) ?_
            exact .frame ⟨before.trans all.previousEnd_le, le_refl _⟩
              (baseWithin.mono (le_refl _) all.previousEnd_le) base_le
              (standing.mono (le_refl _) all.previousEnd_le)
      · simp only [ensures_bind, ensures_pure]
        refine filled.ensures_result.mono ?_
        rintro value behind ⟨stays, within⟩
        have reaches := stays.reaches ordered
        exact ⟨reaches, within.mono (le_refl _) reaches.previousEnd_le⟩

theorem Fits.exprLevel : Fits Expr.Within (exprLevel nested) := by
  intro start ordered
  simp only [Parser.exprLevel, ensures_bind]
  have awaits : Awaits start.current.span.start start .empty := ⟨le_refl _, .none⟩
  refine (fits.operand ordered awaits).mono fun state between first => ?_
  refine ensures_rounds
    (fun state inner => start.Reaches inner ∧
      Filled start.current.span.start inner.previousEnd state)
    (fun state inner held => ?_) first
  refine (fits.operatorRound held.1.ordered held.2).mono fun outcome behind facts => ?_
  cases outcome with
  | done value => exact ⟨held.1.trans facts.1, facts.2⟩
  | again next => exact ⟨held.1.trans facts.1, facts.2⟩

end Expressions

/-- An expression lies between the start of its first token and the end of its
last one. -/
theorem fits_expr : Fits Expr.Within expr := .nesting fun _ fits => fits.exprLevel

end Parser
end KnightFront
