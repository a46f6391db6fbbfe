import KnightFront.Proofs.Parse.Rules
import KnightFront.Proofs.Tree.Written

namespace KnightFront

/-!
# What an expression reader returns

An expression that is read from lexed tokens can be written by source text:
its names are identifiers and its numbers fit.  If it begins with a name, it is
a path, or else an operator or an index stands at its top.
-/

open KnightFront.Parser (Ensures)

variable {cursor : Cursor} {nested : Parser Expr}

/-- A reader of expressions returns written ones. -/
def ReturnsWritten (nested : Parser Expr) : Prop :=
  ∀ inner, inner.Lexed → Ensures nested inner fun value behind => value.Written ∧ behind.Lexed

namespace Parser

/-- Every value of a comma-separated list is what the reader of a single one
returns. -/
theorem ensures_commaSeparated {α : Type} {phrase : Parser α} {holds : α → Prop}
    (reads : ∀ inner, inner.Lexed →
      Ensures phrase inner fun value behind => holds value ∧ behind.Lexed)
    (lexed : cursor.Lexed) :
    Ensures (commaSeparated phrase) cursor fun values behind =>
      (∀ value ∈ values, holds value) ∧ behind.Lexed := by
  refine ensures_rounds
    (fun collected inner => (∀ value ∈ collected, holds value) ∧ inner.Lexed) ?_ ⟨by simp, lexed⟩
  rintro collected inner ⟨held, innerLexed⟩
  simp only [ensures_bind]
  refine (reads inner innerLexed).mono fun value behind facts => ?_
  rcases facts with ⟨valueHolds, behindLexed⟩
  simp only [ensures_currentKind]
  split
  · simp only [ensures_bind, ensures_take, ensures_pure, List.forall_mem_cons]
    exact ⟨⟨valueHolds, held⟩, behindLexed.advance⟩
  · simp only [ensures_pure, List.mem_reverse, List.forall_mem_cons]
    exact ⟨⟨valueHolds, held⟩, behindLexed⟩

theorem ensures_listUpTo {α : Type} {close : TokenKind} {phrase : Parser α} {holds : α → Prop}
    (reads : ∀ inner, inner.Lexed →
      Ensures phrase inner fun value behind => holds value ∧ behind.Lexed)
    (lexed : cursor.Lexed) :
    Ensures (listUpTo close phrase) cursor fun values behind =>
      (∀ value ∈ values, holds value) ∧ behind.Lexed := by
  simp only [listUpTo, ensures_bind, ensures_currentKind]
  split
  · simpa using lexed
  · exact ensures_commaSeparated reads lexed

theorem ensures_arguments (nestedWritten : ReturnsWritten nested) (lexed : cursor.Lexed) :
    Ensures (arguments nested) cursor fun values behind =>
      Expr.WrittenList values ∧ behind.Lexed := by
  simp only [arguments, ensures_bind, ensures_expect]
  intro _
  refine (ensures_listUpTo nestedWritten lexed.advance).mono fun values behind facts => ?_
  rcases facts with ⟨written, behindLexed⟩
  simp only [ensures_pure]
  intro _
  exact ⟨Expr.writtenList_iff.mpr written, behindLexed.advance⟩

/-- A name or call is written if the name is an identifier. -/
theorem ensures_nameOrCall (nestedWritten : ReturnsWritten nested) (lexed : cursor.Lexed)
    {token : Token} (identifier : IsIdentifier token.value) (id : NodeId) :
    Ensures (nameOrCall nested id token) cursor fun value behind =>
      value.Written ∧ behind.Lexed := by
  have used : NameUse.Written { text := token.value, span := token.span } := ⟨identifier, rfl⟩
  simp only [nameOrCall, ensures_bind, ensures_currentKind]
  split
  · simp only [ensures_bind]
    refine (ensures_arguments nestedWritten lexed).mono fun values behind facts => ?_
    simpa [used] using facts
  · simpa [used] using lexed

theorem ensures_member (nestedWritten : ReturnsWritten nested) (lexed : cursor.Lexed) :
    Ensures (member nested) cursor fun value behind => value.Written ∧ behind.Lexed := by
  simp only [member, ensures_bind, ensures_freshId, ensures_expectOr, Cursor.contents_withNextId,
    Cursor.current_withNextId]
  intro kind
  have lexedBehind : Cursor.Lexed { cursor with nextId := cursor.nextId + 1 } := lexed
  exact ensures_nameOrCall nestedWritten lexedBehind.advance (lexed.isIdentifier kind) _

end Parser

namespace ExprStacks

/-- The stacks hold written expressions. -/
def Written (state : ExprStacks) : Prop := Expr.WrittenList state.operands

theorem ensures_apply {top : StackedOperator} {operands : List Expr}
    (written : Expr.WrittenList operands) (lexed : cursor.Lexed) :
    Ensures (apply top operands) cursor fun applied behind =>
      Expr.WrittenList applied ∧ behind.Lexed := by
  unfold apply
  split
  · simp only [Expr.writtenList_cons] at written
    simp [written, lexed]
  · simp only [Expr.writtenList_cons] at written
    split
    · simp only [Expr.written_call] at written
      simp [written, lexed]
    · simp only [Expr.written_name] at written
      simp [written, lexed]
    · simp
  · simp only [Expr.writtenList_cons] at written
    simp [written, lexed]
  · simp only [Expr.writtenList_cons] at written
    split
    · simp only [Expr.written_name] at written
      simp [written, lexed]
    · simp
  · simp

theorem ensures_reduce {state : ExprStacks} (least : Priority) (written : state.Written)
    (lexed : cursor.Lexed) :
    Ensures (state.reduce least) cursor fun reduced behind => reduced.Written ∧ behind.Lexed := by
  rcases state with ⟨operators, operands⟩
  induction operators generalizing operands cursor with
  | nil => simpa [reduce, reduceList] using ⟨written, lexed⟩
  | cons top below inductionHypothesis =>
      simp only [reduce, reduceList]
      split
      · simp only [Parser.ensures_bind]
        exact (ensures_apply written lexed).mono fun applied behind facts =>
          inductionHypothesis facts.2 applied facts.1
      · simpa using ⟨written, lexed⟩

theorem ensures_pushOperator {state : ExprStacks} (operator : StackedOperator)
    (written : state.Written) (lexed : cursor.Lexed) :
    Ensures (state.pushOperator operator) cursor fun pushed behind =>
      pushed.Written ∧ behind.Lexed := by
  simp only [pushOperator, Parser.ensures_bind]
  refine (ensures_reduce _ written lexed).mono fun reduced behind facts => ?_
  simpa [Written] using facts

theorem ensures_result {state : ExprStacks} (written : state.Written) (lexed : cursor.Lexed) :
    Ensures state.result cursor fun value behind => value.Written ∧ behind.Lexed := by
  simp only [result, Parser.ensures_bind]
  refine (ensures_reduce _ written lexed).mono fun reduced behind facts => ?_
  split
  · next only held => simpa [Written, held] using facts
  · simp

theorem Written.pushOperand {state : ExprStacks} (written : state.Written) {operand : Expr}
    (operandWritten : operand.Written) : (state.pushOperand operand).Written :=
  Expr.writtenList_cons.mpr ⟨operandWritten, written⟩

end ExprStacks
namespace Parser

variable {state : ExprStacks}

/-- A literal without a sign is not negative. -/
theorem written_int_of_decimal? {digits : List Char} {value : Int} {info : ExprInfo}
    (unsigned : ∀ character ∈ digits, character.isDigit = true)
    (read : decimal? digits = some value) : (Expr.int info value).Written := by
  rcases decimal?_eq_some_iff.mp read with ⟨spelled, -, fits⟩
  rw [integer?_of_isDigit unsigned] at spelled
  rcases Option.map_eq_some_iff.mp spelled with ⟨size, -, rfl⟩
  exact Expr.written_int.mpr ⟨Int.natCast_nonneg size, fits⟩

theorem ensures_numberLiteral (lexed : cursor.Lexed) (kind : headKind cursor.contents = .number)
    (id : NodeId) :
    Ensures (numberLiteral id) cursor fun value behind => value.Written ∧ behind.Lexed := by
  simp only [numberLiteral, ensures_bind, ensures_take]
  split
  · next value read =>
      simpa only [ensures_pure] using
        And.intro (written_int_of_decimal? (lexed.isDigit kind) read) lexed.advance
  · simp

theorem ensures_arrayLiteral (nestedWritten : ReturnsWritten nested) (lexed : cursor.Lexed)
    (id : NodeId) :
    Ensures (arrayLiteral nested id) cursor fun value behind => value.Written ∧ behind.Lexed := by
  simp only [arrayLiteral, ensures_bind, ensures_position, ensures_take]
  refine (ensures_listUpTo nestedWritten lexed.advance).mono fun items behind facts => ?_
  rcases facts with ⟨written, behindLexed⟩
  simp only [ensures_expect, ensures_spanFrom, ensures_pure, Expr.written_array]
  intro _
  exact ⟨Expr.writtenList_iff.mpr written, behindLexed.advance⟩

theorem ensures_arrayInstance (nestedWritten : ReturnsWritten nested) (lexed : cursor.Lexed)
    (id : NodeId) (start : Position) (element : ElementTy) :
    Ensures (arrayInstance nested id start element) cursor fun value behind =>
      value.Written ∧ behind.Lexed := by
  simp only [arrayInstance, ensures_bind, ensures_take, ensures_expect]
  intro _
  refine (nestedWritten _ lexed.advance.advance).mono fun length behind facts => ?_
  simp only [ensures_spanFrom, ensures_pure, Expr.written_newArray]
  intro _
  exact ⟨facts.1, facts.2.advance⟩

theorem ensures_creation (nestedWritten : ReturnsWritten nested) (written : state.Written)
    (lexed : cursor.Lexed) (id : NodeId) :
    Ensures (creation nested id state) cursor fun pushed behind =>
      pushed.Written ∧ behind.Lexed := by
  simp only [creation, ensures_bind, ensures_expect, ensures_currentKind]
  intro _
  split
  · next kind =>
      simp only [ensures_bind, ensures_take, ensures_expect, ensures_spanFrom]
      intro _ _
      refine (ExprStacks.ensures_pushOperator _ written
        lexed.advance.advance.advance.advance).mono fun pushed behind facts => ?_
      simp only [ensures_pure]
      exact ⟨facts.1.pushOperand (Expr.written_name.mpr ⟨lexed.advance.isIdentifier kind, rfl⟩),
        facts.2⟩
  · simp only [ensures_bind, ensures_pure]
    exact (ensures_arrayInstance nestedWritten lexed.advance _ _ _).mono fun value behind facts =>
      ⟨written.pushOperand facts.1, facts.2⟩
  · simp only [ensures_bind, ensures_pure]
    exact (ensures_arrayInstance nestedWritten lexed.advance _ _ _).mono fun value behind facts =>
      ⟨written.pushOperand facts.1, facts.2⟩
  · simp

/-- An operand adds a written expression to the stacks. -/
theorem ensures_operand (nestedWritten : ReturnsWritten nested) (written : state.Written)
    (lexed : cursor.Lexed) :
    Ensures (operand nested state) cursor fun pushed behind => pushed.Written ∧ behind.Lexed := by
  have lexedNext : Cursor.Lexed { cursor with nextId := cursor.nextId + 1 } := lexed
  simp only [operand, ensures_bind, ensures_freshId, ensures_currentKind]
  split
  · next kind =>
      simp only [ensures_bind, ensures_pure]
      exact (ensures_numberLiteral lexedNext kind _).mono fun value behind facts =>
        ⟨written.pushOperand facts.1, facts.2⟩
  · simpa using ⟨written.pushOperand Expr.written_string, lexedNext.advance⟩
  · simpa using ⟨written.pushOperand Expr.written_bool, lexedNext.advance⟩
  · simpa using ⟨written.pushOperand Expr.written_bool, lexedNext.advance⟩
  · next kind =>
      simp only [ensures_bind, ensures_take, ensures_pure]
      exact (ensures_nameOrCall nestedWritten lexedNext.advance (lexed.isIdentifier kind) _).mono
        fun value behind facts => ⟨written.pushOperand facts.1, facts.2⟩
  · simp only [ensures_bind, ensures_take]
    refine (nestedWritten _ lexedNext.advance).mono fun value behind facts => ?_
    simp only [ensures_expect, ensures_pure]
    intro _
    exact ⟨written.pushOperand facts.1, facts.2.advance⟩
  · simp only [ensures_bind, ensures_pure]
    exact (ensures_arrayLiteral nestedWritten lexedNext _).mono fun value behind facts =>
      ⟨written.pushOperand facts.1, facts.2⟩
  · exact ensures_creation nestedWritten written lexedNext _
  · simp

/-- One operator keeps the stacks written, and the end of a level returns a
written expression. -/
theorem ensures_operatorRound (nestedWritten : ReturnsWritten nested) (written : state.Written)
    (lexed : cursor.Lexed) :
    Ensures (operatorRound nested state) cursor fun outcome behind =>
      match outcome with
      | .done result => result.Written ∧ behind.Lexed
      | .again next => next.Written ∧ behind.Lexed := by
  simp only [operatorRound, ensures_bind, ensures_currentKind]
  split
  · simp only [ensures_bind, ensures_take]
    refine (ExprStacks.ensures_pushOperator _ written lexed.advance).mono
      fun pushed behind facts => ?_
    simp only [ensures_pure]
    exact ensures_operand nestedWritten facts.1 facts.2
  · split
    · simp only [ensures_bind, ensures_take]
      refine (ExprStacks.ensures_pushOperator _ written lexed.advance).mono
        fun pushed behind facts => ?_
      simp only [ensures_pure]
      exact (ensures_member nestedWritten facts.2).mono fun value further inner =>
        ⟨facts.1.pushOperand inner.1, inner.2⟩
    · split
      · simp only [ensures_bind, ensures_take]
        refine (ExprStacks.ensures_reduce _ written lexed.advance).mono
          fun reduced behind facts => ?_
        refine (nestedWritten behind facts.2).mono fun position further inner => ?_
        simp only [ensures_expect, ensures_pure]
        intro _
        exact ⟨Expr.writtenList_cons.mpr ⟨inner.1, facts.1⟩, inner.2.advance⟩
      · simp only [ensures_bind, ensures_pure]
        exact ExprStacks.ensures_result written lexed

theorem ensures_exprLevel (nestedWritten : ReturnsWritten nested) (lexed : cursor.Lexed) :
    Ensures (exprLevel nested) cursor fun value behind => value.Written ∧ behind.Lexed := by
  have emptyWritten : ExprStacks.empty.Written := Expr.writtenList_nil
  simp only [exprLevel, ensures_bind]
  refine (ensures_operand nestedWritten emptyWritten lexed).mono fun state behind facts => ?_
  refine ensures_rounds (fun state inner => state.Written ∧ inner.Lexed)
    (fun state inner held => ?_) facts
  refine (ensures_operatorRound nestedWritten held.1 held.2).mono fun outcome further inner => ?_
  cases outcome <;> exact inner

/-- Every expression that is read can be written. -/
theorem ensures_expr_written : ReturnsWritten expr := by
  intro cursor lexed
  exact ensures_nesting Cursor.Lexed (fun _ (value : Expr) behind => value.Written ∧ behind.Lexed)
    (fun nested nestedWritten inner innerLexed => ensures_exprLevel nestedWritten innerLexed)
    cursor lexed

end Parser

end KnightFront
