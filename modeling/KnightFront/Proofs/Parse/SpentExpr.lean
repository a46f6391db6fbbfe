import KnightFront.Parse.Expr
import KnightFront.Proofs.Parse.LocalPlaces
import KnightFront.Proofs.Tree.Mentions

namespace KnightFront

/-!
# Tokens spent on expressions

A tree speaks of a token where it was read, and it was read once.  So a place
occurs among the leaves of an expression and among the tokens still ahead at most
as often as among the tokens that lay ahead before.  Counting is better here than
comparing lists, because operators take up their operands in another order than
that of the text.

At the same time every node is anchored: it begins where its first part does.
-/

/-- How often a place lies ahead of a cursor. -/
def Cursor.ahead (place : Position) (cursor : Cursor) : Nat := cursor.places.count place

namespace Cursor

variable {place : Position} {cursor : Cursor}

@[simp]
theorem ahead_withNextId (next : NodeId) :
    ahead place { cursor with nextId := next } = ahead place cursor := rfl

theorem ahead_advance_le (place : Position) (cursor : Cursor) :
    cursor.advance.ahead place ≤ cursor.ahead place := by
  rw [ahead, ahead, places_advance]
  exact (List.tail_sublist _).count_le place

/-- A token that is read lies ahead no more. -/
theorem ahead_eq (place : Position) (cursor : Cursor) (more : headKind cursor.contents ≠ .eof) :
    cursor.ahead place = [cursor.current.span.start].count place + cursor.advance.ahead place := by
  calc
    cursor.ahead place = (cursor.current.span.start :: cursor.advance.places).count place := by
      rw [ahead, cursor.places_eq more]
    _ = [cursor.current.span.start].count place + cursor.advance.places.count place := by
      rw [← List.singleton_append, List.count_append]
    _ = [cursor.current.span.start].count place + cursor.advance.ahead place := rfl

end Cursor

namespace Parser

variable {α : Type} {place : Position} {cursor : Cursor}

/-- A parser spends the tokens at the places of its value, and its value is
sound. -/
def Spends (place : Position) (parser : Parser α) (places : α → List Position) (sound : α → Prop) :
    Prop :=
  ∀ cursor, Ensures parser cursor fun value behind =>
    sound value ∧ (places value).count place + behind.ahead place ≤ cursor.ahead place

variable {places : α → List Position} {sound : α → Prop}

theorem Spends.commaSeparated {phrase : Parser α} (spends : Spends place phrase places sound) :
    Spends place (commaSeparated phrase) (fun values => values.flatMap places)
      fun values => ∀ value ∈ values, sound value := by
  intro cursor
  refine ensures_rounds
    (fun collected inner => (∀ value ∈ collected, sound value) ∧
      (collected.flatMap places).count place + inner.ahead place ≤ cursor.ahead place) ?_
    ⟨by simp, by simp⟩
  rintro collected inner ⟨held, within⟩
  simp only [ensures_bind]
  refine (spends inner).mono fun value behind facts => ?_
  rcases facts with ⟨valueSound, spent⟩
  have smaller := behind.ahead_advance_le place
  simp only [ensures_currentKind]
  split
  · simp only [ensures_bind, ensures_take, ensures_pure, List.forall_mem_cons, List.flatMap_cons,
      List.count_append]
    exact ⟨⟨valueSound, held⟩, by omega⟩
  · simp only [ensures_pure, List.mem_reverse, List.forall_mem_cons]
    refine ⟨⟨valueSound, held⟩, ?_⟩
    rw [((List.reverse_perm _).flatMap_right places).count_eq, List.flatMap_cons,
      List.count_append]
    omega

theorem Spends.listUpTo {phrase : Parser α} (spends : Spends place phrase places sound)
    (close : TokenKind) :
    Spends place (listUpTo close phrase) (fun values => values.flatMap places)
      fun values => ∀ value ∈ values, sound value := by
  intro cursor
  simp only [Parser.listUpTo, ensures_bind, ensures_currentKind]
  split
  · simp
  · exact spends.commaSeparated cursor

/-- A nested phrase spends what its level spends with such a reader for the
phrases inside it. -/
theorem Spends.nesting {level : Parser α → Parser α}
    (step : ∀ nested, Spends place nested places sound → Spends place (level nested) places sound) :
    Spends place (nesting level) places sound := by
  intro cursor
  exact ensures_nesting (fun _ => True)
    (fun start value behind =>
      sound value ∧ (places value).count place + behind.ahead place ≤ start.ahead place)
    (fun nested inside inner _ => step nested (fun start => inside start trivial) inner) cursor
    trivial

end Parser

/-- Where the keyword of an operator stands. -/
def StackedOperator.marks : StackedOperator → List Position
  | instantiation keyword => [keyword.start]
  | _ => []

namespace ExprStacks

open KnightFront.Parser (Ensures)

variable (place : Position) {cursor : Cursor}

/-- The places that the stacks hold. -/
def leaves (state : ExprStacks) : List Position :=
  state.operators.flatMap StackedOperator.marks ++ Expr.leavesOfList state.operands

/-- The operands on the stack are anchored. -/
def OperandsAnchored (state : ExprStacks) : Prop := Expr.AnchoredList state.operands

attribute [local simp] Expr.leaves Expr.leavesOfList StackedOperator.marks Span.through Expr.position
  Expr.span List.count_cons

theorem spends_apply {top : StackedOperator} {operands : List Expr}
    (anchored : Expr.AnchoredList operands) :
    Ensures (apply top operands) cursor fun applied behind =>
      Expr.AnchoredList applied ∧
        (Expr.leavesOfList applied).count place + behind.ahead place ≤
          top.marks.count place + (Expr.leavesOfList operands).count place + cursor.ahead place := by
  unfold apply
  split
  · simp only [Expr.anchoredList_cons] at anchored
    simp [anchored]
    omega
  · simp only [Expr.anchoredList_cons] at anchored
    split
    · simp only [Expr.anchored_call] at anchored
      simp [anchored]
      omega
    · simp only [Expr.anchored_name] at anchored
      simp [anchored]
      omega
    · simp
  · simp only [Expr.anchoredList_cons] at anchored
    simp [anchored]
    omega
  · simp only [Expr.anchoredList_cons] at anchored
    split
    · simp [anchored]
      omega
    · simp
  · simp

theorem spends_reduce {state : ExprStacks} (least : Priority) (anchored : state.OperandsAnchored) :
    Ensures (state.reduce least) cursor fun reduced behind =>
      reduced.OperandsAnchored ∧
        reduced.leaves.count place + behind.ahead place ≤
          state.leaves.count place + cursor.ahead place := by
  rcases state with ⟨operators, operands⟩
  induction operators generalizing operands cursor with
  | nil => simpa [reduce, reduceList] using anchored
  | cons top below inductionHypothesis =>
      simp only [reduce, reduceList]
      split
      · simp only [Parser.ensures_bind]
        refine (spends_apply place anchored).mono fun applied between early => ?_
        refine (inductionHypothesis applied early.1).mono fun reduced behind late => ⟨late.1, ?_⟩
        have spent := early.2
        have further := late.2
        simp only [leaves, List.flatMap_cons, List.count_append] at further spent ⊢
        omega
      · simpa using anchored

theorem spends_pushOperator {state : ExprStacks} (operator : StackedOperator)
    (anchored : state.OperandsAnchored) :
    Ensures (state.pushOperator operator) cursor fun pushed behind =>
      pushed.OperandsAnchored ∧
        pushed.leaves.count place + behind.ahead place ≤
          operator.marks.count place + state.leaves.count place + cursor.ahead place := by
  simp only [pushOperator, Parser.ensures_bind, Parser.ensures_pure]
  refine (spends_reduce place _ anchored).mono fun reduced behind facts => ⟨facts.1, ?_⟩
  have spent := facts.2
  simp only [leaves, List.flatMap_cons, List.count_append] at spent ⊢
  omega

theorem count_leaves_pushOperand (state : ExprStacks) (operand : Expr) :
    (state.pushOperand operand).leaves.count place =
      operand.leaves.count place + state.leaves.count place := by
  simp only [leaves, pushOperand, Expr.leavesOfList, List.count_append]
  omega

theorem OperandsAnchored.pushOperand {state : ExprStacks} {operand : Expr} (anchored : state.OperandsAnchored)
    (own : operand.Anchored) : (state.pushOperand operand).OperandsAnchored :=
  Expr.anchoredList_cons.mpr ⟨own, anchored⟩

theorem spends_result {state : ExprStacks} (anchored : state.OperandsAnchored) :
    Ensures state.result cursor fun value behind =>
      value.Anchored ∧
        value.leaves.count place + behind.ahead place ≤
          state.leaves.count place + cursor.ahead place := by
  simp only [result, Parser.ensures_bind]
  refine (spends_reduce place _ anchored).mono fun reduced behind facts => ?_
  split
  · next only single =>
      have own := facts.1
      have spent := facts.2
      simp only [OperandsAnchored, single, Expr.anchoredList_cons] at own
      simp only [leaves, single, Expr.leavesOfList, List.append_nil] at spent ⊢
      rw [List.count_append] at spent
      exact Parser.ensures_pure.mpr ⟨own.1, by omega⟩
  · simp

end ExprStacks

/-! ## Expressions -/

namespace Parser

section Expressions

variable {place : Position} {cursor : Cursor} {nested : Parser Expr}

/-- A reader of expressions spends the leaves of its value, which is anchored. -/
def SpendsLeaves (place : Position) (nested : Parser Expr) : Prop :=
  Spends place nested Expr.leaves Expr.Anchored

namespace SpendsLeaves

variable (spends : SpendsLeaves place nested)

attribute [local simp] Expr.leaves

include spends

/-- Several expressions with commas between them. -/
theorem list (close : TokenKind) :
    Spends place (listUpTo close nested) Expr.leavesOfList Expr.AnchoredList := by
  intro cursor
  refine (spends.listUpTo close cursor).mono fun exprs behind facts => ?_
  rw [Expr.anchoredList_iff, Expr.leavesOfList_eq_flatMap]
  exact facts

theorem arguments : Spends place (arguments nested) Expr.leavesOfList Expr.AnchoredList := by
  intro cursor
  simp only [Parser.arguments, ensures_bind, ensures_expect]
  intro _
  refine (spends.list _ _).mono fun args behind facts => ?_
  rcases facts with ⟨anchored, spent⟩
  simp only [ensures_pure]
  intro _
  have opened := cursor.ahead_advance_le place
  have closed := behind.ahead_advance_le place
  exact ⟨anchored, by omega⟩

/-- A name or call begins with the token of its name. -/
theorem nameOrCall (id : NodeId) (token : Token) :
    Ensures (nameOrCall nested id token) cursor fun value behind =>
      value.Anchored ∧
        value.leaves.count place + behind.ahead place ≤
          [token.span.start].count place + cursor.ahead place := by
  simp only [Parser.nameOrCall, ensures_bind, ensures_currentKind]
  split
  · simp only [ensures_bind]
    refine (spends.arguments cursor).mono fun args behind facts => ?_
    have spent := facts.2
    simp only [ensures_spanFrom, ensures_pure, Expr.anchored_call, Expr.leaves]
    rw [← List.singleton_append, List.count_append]
    exact ⟨⟨trivial, facts.1⟩, by omega⟩
  · simp

theorem member : SpendsLeaves place (member nested) := by
  intro cursor
  simp only [Parser.member, ensures_bind, ensures_freshId, ensures_expectOr,
    Cursor.contents_withNextId, Cursor.current_withNextId, Cursor.advance_withNextId]
  intro kind
  have read := cursor.ahead_eq place (kind ▸ by decide)
  refine (spends.nameOrCall _ _).mono fun value behind facts => ⟨facts.1, ?_⟩
  have spent : value.leaves.count place + behind.ahead place ≤
      [cursor.current.span.start].count place + cursor.advance.ahead place := facts.2
  omega

theorem arrayLiteral (id : NodeId) (more : headKind cursor.contents ≠ .eof) :
    Ensures (arrayLiteral nested id) cursor fun value behind =>
      value.Anchored ∧ value.leaves.count place + behind.ahead place ≤ cursor.ahead place := by
  simp only [Parser.arrayLiteral, ensures_bind, ensures_position, ensures_take]
  refine (spends.list _ _).mono fun items behind facts => ?_
  rcases facts with ⟨anchored, spent⟩
  simp only [ensures_expect, ensures_spanFrom, ensures_pure, Expr.anchored_array, Expr.leaves]
  intro _
  have read := cursor.ahead_eq place more
  have closed := behind.ahead_advance_le place
  rw [← List.singleton_append, List.count_append]
  exact ⟨anchored, by omega⟩

/-- A new array begins at its keyword, which has been read. -/
theorem arrayInstance (id : NodeId) (start : Position) (element : ElementTy) :
    Ensures (arrayInstance nested id start element) cursor fun value behind =>
      value.Anchored ∧
        value.leaves.count place + behind.ahead place ≤
          [start].count place + cursor.ahead place := by
  simp only [Parser.arrayInstance, ensures_bind, ensures_take, ensures_expect]
  intro _
  refine (spends _).mono fun length behind facts => ?_
  simp only [ensures_spanFrom, ensures_pure, Expr.anchored_newArray, Expr.leaves]
  intro _
  have word := cursor.ahead_advance_le place
  have opened := cursor.advance.ahead_advance_le place
  have closed := behind.ahead_advance_le place
  have spent := facts.2
  rw [← List.singleton_append, List.count_append]
  exact ⟨facts.1, by omega⟩

end SpendsLeaves

theorem spends_numberLiteral (id : NodeId) (more : headKind cursor.contents ≠ .eof) :
    Ensures (numberLiteral id) cursor fun value behind =>
      value.Anchored ∧ value.leaves.count place + behind.ahead place ≤ cursor.ahead place := by
  have read := cursor.ahead_eq place more
  simp only [numberLiteral, ensures_bind, ensures_take]
  split
  · simp only [ensures_pure, Expr.leaves]
    exact ⟨Expr.anchored_int, by omega⟩
  · simp

/-- A new instance puts its keyword on the stack of operators and the name of its
class on that of operands. -/
theorem SpendsLeaves.creation (spends : SpendsLeaves place nested) (id : NodeId)
    {state : ExprStacks} (anchored : state.OperandsAnchored) :
    Ensures (creation nested id state) cursor fun pushed behind =>
      pushed.OperandsAnchored ∧
        pushed.leaves.count place + behind.ahead place ≤
          state.leaves.count place + cursor.ahead place := by
  simp only [Parser.creation, ensures_bind, ensures_expect, ensures_currentKind]
  intro kind
  have keyword := cursor.ahead_eq place (kind ▸ by decide)
  have array (element : ElementTy) :
      Ensures (do
          return state.pushOperand
            (← Parser.arrayInstance nested id cursor.current.span.start element))
        cursor.advance fun pushed behind => pushed.OperandsAnchored ∧
          pushed.leaves.count place + behind.ahead place ≤
            state.leaves.count place + cursor.ahead place := by
    simp only [ensures_bind, ensures_pure]
    refine (spends.arrayInstance _ _ _).mono fun value behind facts => ?_
    rcases facts with ⟨own, spent⟩
    rw [state.count_leaves_pushOperand]
    exact ⟨anchored.pushOperand own, by omega⟩
  split
  · next named =>
      have name := cursor.advance.ahead_eq place (named ▸ by decide)
      simp only [ensures_bind, ensures_take, ensures_expect, ensures_spanFrom, ensures_pure]
      intro _ _
      have opened := cursor.advance.advance.ahead_advance_le place
      have closed := cursor.advance.advance.advance.ahead_advance_le place
      refine (ExprStacks.spends_pushOperator place _ anchored).mono fun pushed behind facts => ?_
      rcases facts with ⟨pushedAnchored, spent⟩
      rw [ExprStacks.count_leaves_pushOperand]
      refine ⟨pushedAnchored.pushOperand (Expr.anchored_name.mpr rfl), ?_⟩
      simp only [Expr.leaves, StackedOperator.marks] at spent ⊢
      omega
  · exact array .int
  · exact array .string
  · simp

/-- One operand is put on its stack. -/
theorem SpendsLeaves.operand (spends : SpendsLeaves place nested) {state : ExprStacks}
    (anchored : state.OperandsAnchored) :
    Ensures (operand nested state) cursor fun pushed behind =>
      pushed.OperandsAnchored ∧
        pushed.leaves.count place + behind.ahead place ≤
          state.leaves.count place + cursor.ahead place := by
  simp only [Parser.operand, ensures_bind, ensures_freshId, ensures_currentKind,
    Cursor.contents_withNextId]
  have push {value : Expr} {behind : Cursor}
      (facts : value.Anchored ∧
        value.leaves.count place + behind.ahead place ≤ cursor.ahead place) :
      (state.pushOperand value).OperandsAnchored ∧
        (state.pushOperand value).leaves.count place + behind.ahead place ≤
          state.leaves.count place + cursor.ahead place := by
    rcases facts with ⟨own, spent⟩
    rw [state.count_leaves_pushOperand]
    exact ⟨anchored.pushOperand own, by omega⟩
  split
  · next kind =>
      simp only [ensures_bind, ensures_pure]
      exact (spends_numberLiteral _ (kind ▸ by decide)).mono fun _ _ => push
  · next kind =>
      simp only [ensures_bind, ensures_take, ensures_pure]
      have read := cursor.ahead_eq place (kind ▸ by decide)
      exact push ⟨Expr.anchored_string, Nat.le_of_eq read.symm⟩
  · next kind =>
      simp only [ensures_bind, ensures_take, ensures_pure]
      have read := cursor.ahead_eq place (kind ▸ by decide)
      exact push ⟨Expr.anchored_bool, Nat.le_of_eq read.symm⟩
  · next kind =>
      simp only [ensures_bind, ensures_take, ensures_pure]
      have read := cursor.ahead_eq place (kind ▸ by decide)
      exact push ⟨Expr.anchored_bool, Nat.le_of_eq read.symm⟩
  · next kind =>
      simp only [ensures_bind, ensures_take, ensures_pure]
      have read := cursor.ahead_eq place (kind ▸ by decide)
      exact (spends.nameOrCall _ _).mono fun value behind facts =>
        push ⟨facts.1, read ▸ facts.2⟩
  · simp only [ensures_bind, ensures_take, ensures_expect, ensures_pure]
    have opened := cursor.ahead_advance_le place
    refine (spends _).mono fun value behind facts _ => push ⟨facts.1, ?_⟩
    have closed := behind.ahead_advance_le place
    have spent : value.leaves.count place + behind.ahead place ≤ cursor.advance.ahead place :=
      facts.2
    omega
  · next kind =>
      simp only [ensures_bind, ensures_pure]
      exact (spends.arrayLiteral _ (kind ▸ by decide)).mono fun _ _ => push
  · exact spends.creation _ anchored
  · simp

theorem SpendsLeaves.operatorRound (spends : SpendsLeaves place nested) {state : ExprStacks}
    (anchored : state.OperandsAnchored) :
    Ensures (operatorRound nested state) cursor fun outcome behind =>
      match outcome with
      | .done value => value.Anchored ∧
          value.leaves.count place + behind.ahead place ≤
            state.leaves.count place + cursor.ahead place
      | .again next => next.OperandsAnchored ∧
          next.leaves.count place + behind.ahead place ≤
            state.leaves.count place + cursor.ahead place := by
  have read := cursor.ahead_advance_le place
  simp only [Parser.operatorRound, ensures_bind, ensures_currentKind]
  split
  · simp only [ensures_bind, ensures_take, ensures_pure]
    refine (ExprStacks.spends_pushOperator place _ anchored).mono fun pushed between early => ?_
    refine (spends.operand early.1).mono fun further behind late => ⟨late.1, ?_⟩
    have spent := early.2
    have own := late.2
    simp only [StackedOperator.marks, List.count_nil] at spent
    omega
  · split
    · simp only [ensures_bind, ensures_take, ensures_pure]
      refine (ExprStacks.spends_pushOperator place _ anchored).mono fun pushed between early => ?_
      refine (spends.member _).mono fun value behind late => ⟨early.1.pushOperand late.1, ?_⟩
      have spent := early.2
      have own := late.2
      rw [ExprStacks.count_leaves_pushOperand]
      simp only [StackedOperator.marks, List.count_nil] at spent
      omega
    · split
      · simp only [ensures_bind, ensures_take, ensures_expect, ensures_pure]
        refine (ExprStacks.spends_reduce place _ anchored).mono fun reduced between early => ?_
        refine (spends _).mono fun value behind late _ =>
          ⟨ExprStacks.OperandsAnchored.pushOperand early.1 late.1, ?_⟩
        have spent := early.2
        have own := late.2
        have closed := behind.ahead_advance_le place
        have stacked := reduced.count_leaves_pushOperand place value
        simp only [ExprStacks.leaves, ExprStacks.pushOperand, List.flatMap_cons,
          StackedOperator.marks, List.nil_append] at spent stacked ⊢
        omega
      · simp only [ensures_bind, ensures_pure]
        exact ExprStacks.spends_result place anchored

/-- An expression that is read is anchored, and the tokens at its leaves are
spent. -/
theorem spends_expr (place : Position) : SpendsLeaves place expr := by
  refine Spends.nesting fun nested inside cursor => ?_
  simp only [exprLevel, ensures_bind]
  have start : ExprStacks.empty.OperandsAnchored := Expr.anchoredList_nil
  refine (SpendsLeaves.operand inside start).mono fun state between early => ?_
  refine ensures_rounds
    (fun state inner => state.OperandsAnchored ∧
      state.leaves.count place + inner.ahead place ≤ cursor.ahead place)
    (fun state inner held => ?_) ⟨early.1, Nat.le_trans early.2 (Nat.le_of_eq (Nat.zero_add _))⟩
  refine (SpendsLeaves.operatorRound inside held.1).mono fun outcome behind facts => ?_
  cases outcome with
  | done value => exact ⟨facts.1, Nat.le_trans facts.2 held.2⟩
  | again next => exact ⟨facts.1, Nat.le_trans facts.2 held.2⟩

end Expressions

end Parser
end KnightFront
