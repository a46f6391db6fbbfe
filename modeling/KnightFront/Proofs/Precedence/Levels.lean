import KnightFront.Proofs.Precedence.Pieces
import KnightFront.Proofs.Precedence.Waiting

namespace KnightFront

/-!
# Reading a level

A level of an expression reads the row that its tokens spell, and returns the
right grouping of it.  While the level is read, its stacks hold the grouping of
the part of the row behind which the reader stands.
-/

open KnightFront.Parser (Ensures)
open ExprStacks (Waiting Holds CutAt)

variable {cursor : Cursor} {nested : Parser Expr} {state : ExprStacks} {whole : Grouping}

/-- A token that is not the end of input is the first one ahead. -/
theorem Cursor.contents_eq_cons {kind : TokenKind} (found : headKind cursor.contents = kind)
    (inside : kind ≠ .eof) :
    cursor.contents = (kind, cursor.current.value) :: cursor.advance.contents := by
  rw [contents_advance]
  cases ahead : cursor.contents with
  | nil => exact absurd (by simpa [ahead] using found.symm) inside
  | cons first rest =>
      rcases first with ⟨other, value⟩
      obtain rfl : other = kind := by simpa [ahead] using found
      rw [Cursor.current_value ahead]
      rfl

/-- A reader reads expressions as their tokens spell them. -/
def ReadsSpelled (nested : Parser Expr) : Prop :=
  ∀ inner, Ensures nested inner fun value behind =>
    Piece.Spelled (.expr value.bare) inner.contents behind.contents

namespace Parser

theorem spells_commaSeparated (reads : ReadsSpelled nested) {close : TokenKind}
    (other : close ≠ .comma) (inside : close ≠ .eof) :
    Ensures (commaSeparated nested) cursor fun values behind =>
      headKind behind.contents = close →
        Piece.Spelled (.items close (values.map Expr.bare)) cursor.contents behind.advance.contents := by
  refine ensures_rounds
    (fun collected inner => ∀ values behind,
      Piece.Spelled (.items close values) inner.contents behind →
        Piece.Spelled (.items close (collected.reverse.map Expr.bare ++ values))
          cursor.contents behind)
    (fun collected inner goesOn => ?_) (by simp)
  simp only [ensures_bind]
  refine (reads inner).mono fun value behind spelled => ?_
  simp only [ensures_currentKind]
  split
  · next comma =>
      simp only [ensures_bind, ensures_take, ensures_pure]
      intro values further items
      rw [Cursor.contents_eq_cons comma (by decide)] at spelled
      simpa using goesOn _ _ (.more spelled (by simpa using items))
  · rw [ensures_pure]
    intro closes
    rw [Cursor.contents_eq_cons closes inside] at spelled
    simpa using goesOn _ _ (.last spelled other)

theorem spells_listUpTo (reads : ReadsSpelled nested) {close : TokenKind}
    (other : close ≠ .comma) (inside : close ≠ .eof) :
    Ensures (listUpTo close nested) cursor fun values behind =>
      headKind behind.contents = close →
        Piece.Spelled (.list close (values.map Expr.bare)) cursor.contents
          behind.advance.contents := by
  simp only [listUpTo, ensures_bind, ensures_currentKind]
  split
  · next closes =>
      rw [ensures_pure]
      intro _
      rw [Cursor.contents_eq_cons closes inside]
      exact .none
  · next differs =>
      exact (spells_commaSeparated reads other inside).mono fun values behind items closes =>
        .some differs (items closes)

/-- Behind its name, a name or a call is read. -/
theorem spells_nameOrCall (reads : ReadsSpelled nested) (id : NodeId) (token : Token) :
    Ensures (nameOrCall nested id token) cursor fun value behind =>
      Piece.Spelled (.part value.bare) ((.identifier, token.value) :: cursor.contents)
        behind.contents := by
  simp only [nameOrCall, ensures_bind, ensures_currentKind]
  split
  · next opens =>
      simp only [arguments, ensures_bind, ensures_expect]
      intro _
      refine (spells_listUpTo reads (by decide) (by decide)).mono fun args behind listed => ?_
      simp only [ensures_pure, ensures_spanFrom]
      intro closes
      rw [Cursor.contents_eq_cons opens (by decide)]
      have spelled := listed closes
      rw [← Expr.bareList_eq_map] at spelled
      exact .call spelled
  · next ends =>
      rw [ensures_pure]
      exact .name ends

theorem spells_member (reads : ReadsSpelled nested) :
    Ensures (member nested) cursor fun value behind =>
      Piece.Spelled (.part value.bare) cursor.contents behind.contents := by
  simp only [member, ensures_bind, ensures_freshId, ensures_expectOr, Cursor.contents_withNextId]
  intro found
  refine (spells_nameOrCall reads _ _).mono fun value behind spelled => ?_
  rw [Cursor.contents_eq_cons found (by decide)]
  simpa using spelled

theorem ensures_numberLiteral_spelled (found : headKind cursor.contents = .number) (id : NodeId) :
    Ensures (numberLiteral id) cursor fun value behind =>
      Piece.Spelled (.operand value.bare) cursor.contents behind.contents := by
  simp only [numberLiteral, ensures_bind, ensures_take]
  split
  · next fits =>
      rw [ensures_pure, Cursor.contents_eq_cons found (by decide)]
      exact .int fits
  · simp

theorem ensures_arrayLiteral_spelled (reads : ReadsSpelled nested)
    (found : headKind cursor.contents = .openBracket) (id : NodeId) :
    Ensures (arrayLiteral nested id) cursor fun value behind =>
      Piece.Spelled (.operand value.bare) cursor.contents behind.contents := by
  simp only [arrayLiteral, ensures_bind, ensures_position, ensures_take]
  refine (spells_listUpTo reads (by decide) (by decide)).mono fun items behind listed => ?_
  simp only [ensures_expect, ensures_spanFrom, ensures_pure]
  intro closes
  have spelled := listed closes
  rw [← Expr.bareList_eq_map] at spelled
  rw [Cursor.contents_eq_cons found (by decide)]
  exact .array spelled

/-- Behind the keyword, a new array is read. -/
theorem ensures_arrayInstance_spelled (reads : ReadsSpelled nested) {element : ElementTy}
    (found : headKind cursor.contents = element.word) (id : NodeId) (start : Position)
    (keyword : String) :
    Ensures (arrayInstance nested id start element) cursor fun value behind =>
      Piece.Spelled (.operand value.bare) ((.newWord, keyword) :: cursor.contents)
        behind.contents := by
  simp only [arrayInstance, ensures_bind, ensures_take, ensures_expect]
  intro opens
  refine (reads _).mono fun length behind spelled => ?_
  simp only [ensures_spanFrom, ensures_pure]
  intro closes
  have inside : element.word ≠ .eof := by cases element <;> decide
  rw [Cursor.contents_eq_cons closes (by decide)] at spelled
  rw [Cursor.contents_eq_cons found inside, Cursor.contents_eq_cons opens (by decide)]
  exact .newArray rfl spelled

/-- The stacks with an operand put behind what has been read before. -/
def Puts (state : ExprStacks) (value : Expr) (pushed : ExprStacks) : Prop :=
  ∀ frames, Waiting frames state.operators state.operands →
    Holds (.closed frames (.operand value)) pushed

theorem puts_pushOperand (value : Expr) : Puts state value.bare (state.pushOperand value) :=
  fun _ waiting => .operand waiting

/-- A reader puts the operand that its tokens spell onto the stacks. -/
def PutsOperand (reader : Parser ExprStacks) (state : ExprStacks) (cursor : Cursor) : Prop :=
  Ensures reader cursor fun pushed behind =>
    ∃ value, Piece.Spelled (.operand value) cursor.contents behind.contents ∧ Puts state value pushed

theorem putsOperand_of_spelled {reader : Parser Expr}
    (spelled : Ensures reader cursor fun value behind =>
      Piece.Spelled (.operand value.bare) cursor.contents behind.contents) :
    PutsOperand (do return state.pushOperand (← reader)) state cursor := by
  simp only [PutsOperand, ensures_bind, ensures_pure]
  exact spelled.mono fun value behind spelled => ⟨value.bare, spelled, puts_pushOperand value⟩

/-- An instance binds more than anything that waits. -/
theorem pushOperator_instantiation {frames : List OpenGroup} (keyword : Span)
    (waiting : Waiting frames state.operators state.operands) :
    state.pushOperator (.instantiation keyword) =
      pure { state with operators := .instantiation keyword :: state.operators } := by
  have unchanged : state.reduce .instantiation = pure state := by
    refine ExprStacks.reduce_of_lt fun top first => ?_
    rcases state with ⟨operators, operands⟩
    cases waiting with
    | none => cases first
    | @frame left joint operator _ _ _ _ waits =>
        obtain rfl : operator = top := Option.some.inj first
        rw [StackedOperator.priority_of_joint? waits]
        cases joint with
        | binary op => exact Nat.lt_trans op.priority_lt_index (by decide)
        | index => decide
        | member => decide
  simp [ExprStacks.pushOperator, StackedOperator.priority, unchanged]

theorem putsOperand_creation (reads : ReadsSpelled nested)
    (found : headKind cursor.contents = .newWord) (id : NodeId) {frames : List OpenGroup}
    (waiting : Waiting frames state.operators state.operands) :
    PutsOperand (creation nested id state) state cursor := by
  simp only [creation, PutsOperand, ensures_bind, ensures_expect, ensures_currentKind]
  intro _
  rw [Cursor.contents_eq_cons found (by decide)]
  split
  · next named =>
      simp only [ensures_bind, ensures_take, ensures_expect, ensures_spanFrom,
        pushOperator_instantiation _ waiting, ensures_pure]
      intro opens closes
      rw [Cursor.contents_eq_cons named (by decide), Cursor.contents_eq_cons opens (by decide),
        Cursor.contents_eq_cons closes (by decide)]
      exact ⟨_, .newInstance, fun frames waiting =>
        @Holds.instantiation frames _ _ _ (NameUse.mk _ _ _) _ waiting⟩
  · next named =>
      simp only [ensures_bind, ensures_pure]
      exact (ensures_arrayInstance_spelled reads named _ _ _).mono fun value behind spelled =>
        ⟨value.bare, spelled, puts_pushOperand value⟩
  · next named =>
      simp only [ensures_bind, ensures_pure]
      exact (ensures_arrayInstance_spelled reads named _ _ _).mono fun value behind spelled =>
        ⟨value.bare, spelled, puts_pushOperand value⟩
  · simp

/-- An operand is read and put onto the stacks. -/
theorem putsOperand_operand (reads : ReadsSpelled nested) {frames : List OpenGroup}
    (waiting : Waiting frames state.operators state.operands) :
    PutsOperand (operand nested state) state cursor := by
  rw [operand, PutsOperand, ensures_bind, ensures_freshId, ← Cursor.contents_withNextId cursor (cursor.nextId + 1)]
  generalize cursor.nextId = id
  generalize ({ cursor with nextId := id + 1 } : Cursor) = numbered
  simp only [ensures_bind, ensures_currentKind]
  split
  · next found =>
      exact putsOperand_of_spelled (ensures_numberLiteral_spelled found id)
  · next found =>
      rw [Cursor.contents_eq_cons found (by decide)]
      simp only [ensures_bind, ensures_take, ensures_pure]
      exact ⟨_, .string, puts_pushOperand (.string _ _)⟩
  · next found =>
      rw [Cursor.contents_eq_cons found (by decide)]
      simp only [ensures_bind, ensures_take, ensures_pure]
      exact ⟨_, .isTrue, puts_pushOperand (.bool _ true)⟩
  · next found =>
      rw [Cursor.contents_eq_cons found (by decide)]
      simp only [ensures_bind, ensures_take, ensures_pure]
      exact ⟨_, .isFalse, puts_pushOperand (.bool _ false)⟩
  · next found =>
      rw [Cursor.contents_eq_cons found (by decide)]
      simp only [ensures_bind, ensures_take, ensures_pure]
      exact (spells_nameOrCall reads _ _).mono fun value behind spelled =>
        ⟨value.bare, .part spelled, puts_pushOperand value⟩
  · next found =>
      rw [Cursor.contents_eq_cons found (by decide)]
      simp only [ensures_bind, ensures_take]
      refine (reads _).mono fun value behind spelled => ?_
      simp only [ensures_expect, ensures_pure]
      intro closes
      rw [Cursor.contents_eq_cons closes (by decide)] at spelled
      exact ⟨value.bare, .group spelled, puts_pushOperand value⟩
  · next found =>
      exact putsOperand_of_spelled (ensures_arrayLiteral_spelled reads found id)
  · next found => exact putsOperand_creation reads found id waiting
  · simp

/-! ## Steps -/

/-- The stacks hold the right grouping of a row that can go on with what its
tokens spell from a cursor on. -/
def GoesOn (start cursor : Cursor) (state : ExprStacks) : Prop :=
  ∃ first others, Holds (Row.grouping ⟨first, others⟩) state ∧
    ∀ more behind, Piece.Spelled (.steps more) cursor.contents behind →
      Piece.Spelled (.row ⟨first, others ++ more⟩) start.contents behind

/-- A joint with the operand behind it goes on with a row. -/
theorem goesOn_of_step {start middle : Cursor} {reduced pushed : ExprStacks} {first value : Expr}
    {others : List (Joint × Expr)} {joint : Joint}
    (cut : CutAt joint.priority (Row.grouping ⟨first, others⟩) reduced)
    (operator : StackedOperator) (waits : operator.joint? = some joint)
    (puts : Puts ⟨operator :: reduced.operators, reduced.operands⟩ value pushed)
    (spelled : ∀ more behind, Piece.Spelled (.steps more) cursor.contents behind →
      Piece.Spelled (.row ⟨first, others ++ more⟩) start.contents behind)
    (step : ∀ more behind, Piece.Spelled (.steps more) middle.contents behind →
      Piece.Spelled (.steps ((joint, value) :: more)) cursor.contents behind) :
    GoesOn start middle pushed := by
  rcases cut.push operator waits with ⟨frames, waiting, extended⟩
  refine ⟨first, others ++ [(joint, value)], ?_, fun more behind steps => ?_⟩
  · rw [Row.grouping_concat, ← extended]
    exact puts frames waiting
  · simpa using spelled _ _ (step more behind steps)

/-- A round reads a step behind the row, or ends the level. -/
theorem ensures_operatorRound_goesOn (reads : ReadsSpelled nested) {start : Cursor}
    (goesOn : GoesOn start cursor state) :
    Ensures (operatorRound nested state) cursor fun outcome behind =>
      match outcome with
      | .done value => Piece.Spelled (.expr value.bare) start.contents behind.contents
      | .again next => GoesOn start behind next := by
  rcases goesOn with ⟨first, others, holds, spelled⟩
  simp only [operatorRound, ensures_bind, ensures_currentKind]
  split
  · next op found =>
      rw [BinaryOp.ofToken?_eq_some_iff] at found
      have weak : (Joint.binary op).priority ≤ .member :=
        Nat.le_of_lt (Nat.lt_trans op.priority_lt_index (by decide))
      simp only [ensures_bind, ensures_take, ExprStacks.pushOperator, ensures_pure]
      refine (holds.ensures_reduce weak).mono fun reduced middle facts => ?_
      rcases facts with ⟨same, cut⟩
      rcases cut.push (.binary op) rfl with ⟨frames, waiting, -⟩
      refine (putsOperand_operand reads waiting).mono fun pushed further put => ?_
      rcases put with ⟨value, operand, puts⟩
      rw [same] at operand
      refine goesOn_of_step cut (.binary op) rfl puts spelled fun more behind steps => ?_
      rw [Cursor.contents_eq_cons rfl (found ▸ by cases op <;> decide)]
      exact .binary found operand steps
  · next other =>
      split
      · next found =>
          simp only [ensures_bind, ensures_take, ExprStacks.pushOperator, ensures_pure]
          refine (holds.ensures_reduce (show Joint.member.priority ≤ .member by decide)).mono
            fun reduced middle facts => ?_
          rcases facts with ⟨same, cut⟩
          refine (spells_member reads).mono fun value further part => ?_
          rw [same] at part
          refine goesOn_of_step cut .member rfl (puts_pushOperand value) spelled
            fun more behind steps => ?_
          rw [Cursor.contents_eq_cons found (by decide)]
          exact .member part steps
      · split
        · next found =>
            simp only [ensures_bind, ensures_take]
            refine (holds.ensures_reduce (show Joint.index.priority ≤ .member by decide)).mono
              fun reduced middle facts => ?_
            rcases facts with ⟨same, cut⟩
            refine (reads _).mono fun value further position => ?_
            simp only [ensures_expect, ensures_pure]
            intro closes
            rw [same, Cursor.contents_eq_cons closes (by decide)] at position
            refine goesOn_of_step cut (.index further.current.span) rfl
              (puts_pushOperand value) spelled fun more behind steps => ?_
            rw [Cursor.contents_eq_cons found (by decide)]
            exact .index position steps
        · next notDot notBracket =>
            simp only [ensures_bind, ensures_pure]
            refine holds.ensures_result.mono fun value behind facts => ?_
            rcases facts with ⟨shape, same⟩
            have ends : headKind behind.contents ∉ Grammar.suffixKinds := by
              simp [same, Grammar.suffixKinds, Grammar.mem_operatorKinds, other, notDot, notBracket]
            have level := spelled [] behind.contents (same ▸ .done ends)
            rw [List.append_nil] at level
            exact .expr _ level (Row.row_grouping _) (Row.grouped_grouping _) shape.symm

/-- An expression is read as its tokens spell it. -/
theorem readsSpelled_expr : ReadsSpelled expr := by
  refine fun cursor => ensures_nesting (fun _ => True)
    (fun inner (value : Expr) behind =>
      Piece.Spelled (.expr value.bare) inner.contents behind.contents)
    (fun nested reads inner _ => ?_) cursor trivial
  replace reads : ReadsSpelled nested := fun inner => reads inner trivial
  simp only [exprLevel, ensures_bind]
  have putsFirst : PutsOperand (operand nested .empty) .empty inner := putsOperand_operand reads .none
  refine putsFirst.mono fun state behind put => ?_
  rcases put with ⟨first, operand, puts⟩
  refine ensures_rounds (fun state further => GoesOn inner further state)
    (fun state further goesOn => ?_) ?_
  · refine (ensures_operatorRound_goesOn reads goesOn).mono fun outcome _ facts => ?_
    cases outcome <;> exact facts
  · exact ⟨first, [], puts [] .none, fun more further steps => .row operand steps⟩

/-- The row of an expression is read as far as it goes, and what is returned is
its only right grouping. -/
theorem expr_grouped {cursor behind : Cursor} {value : Expr}
    (read : expr cursor = .ok (value, behind)) :
    ∃ grouping : Grouping, Piece.Spelled (.row grouping.row) cursor.contents behind.contents ∧
      grouping.Grouped ∧ grouping.expr = value.bare ∧
      (∀ (other : Grouping) (rest : List TokenContent),
        Piece.Spelled (.row other.row) cursor.contents rest → other.Grouped → other = grouping) ∧
      headKind behind.contents ∉ Grammar.suffixKinds := by
  cases readsSpelled_expr cursor value behind read with
  | expr grouping level same grouped shape =>
      subst same
      refine ⟨grouping, level, grouped, shape, fun other rest spelled right => ?_, ?_⟩
      · rcases spelled.unique level trivial with ⟨alike, -⟩
        exact right.unique grouped (Piece.row.inj alike)
      · generalize grouping.row = row at level
        cases level with
        | row front rest => exact rest.ends

end Parser

/-- The shape of a name. -/
def Expr.named (spelled : String) : Expr := .name .bare (.ofSpelling spelled)

theorem Piece.spelled_named {spelled : String} {behind : List TokenContent}
    (ends : headKind behind ≠ .openParen) (stops : headKind behind ∉ Grammar.suffixKinds) :
    Spelled (.expr (.named spelled)) ((.identifier, spelled) :: behind) behind :=
  .expr (.operand (.named spelled)) (.row (.part (.name ends)) (.done stops)) rfl
    trivial rfl

/-- The tokens of `a % b * c.d[1] - (e + 2)`. -/
def mixedRow : List Token :=
  [⟨.identifier, "a", .nowhere⟩, ⟨.percent, "%", .nowhere⟩, ⟨.identifier, "b", .nowhere⟩,
    ⟨.star, "*", .nowhere⟩, ⟨.identifier, "c", .nowhere⟩, ⟨.dot, ".", .nowhere⟩,
    ⟨.identifier, "d", .nowhere⟩, ⟨.openBracket, "[", .nowhere⟩, ⟨.number, "1", .nowhere⟩,
    ⟨.closeBracket, "]", .nowhere⟩, ⟨.dash, "-", .nowhere⟩, ⟨.openParen, "(", .nowhere⟩,
    ⟨.identifier, "e", .nowhere⟩, ⟨.plus, "+", .nowhere⟩, ⟨.number, "2", .nowhere⟩,
    ⟨.closeParen, ")", .nowhere⟩, ⟨.eof, "EOF", .nowhere⟩]

/-- The right grouping of the mixed row. -/
def mixedGrouping : Grouping :=
  .joined (.binary .minus)
    (.joined (.binary .modulus) (.operand (.named "a"))
      (.joined (.binary .times) (.operand (.named "b"))
        (.joined .index (.joined .member (.operand (.named "c")) (.operand (.named "d")))
          (.operand (.int .bare 1)))))
    (.operand (.binary .bare .plus (.named "e") (.int .bare 2)))

theorem Piece.spelled_mixedRow :
    Spelled (.row mixedGrouping.row) (Cursor.ofTokens mixedRow).contents [] := by
  have one {behind : List TokenContent} :
      Spelled (.operand (.int .bare 1)) ((.number, "1") :: behind) behind := .int (by decide)
  have two {behind : List TokenContent} :
      Spelled (.operand (.int .bare 2)) ((.number, "2") :: behind) behind := .int (by decide)
  have position {behind : List TokenContent} : Spelled (.expr (.int .bare 1))
      ((.number, "1") :: (.closeBracket, "]") :: behind) ((.closeBracket, "]") :: behind) :=
    .expr (.operand (.int .bare 1))
      (.row one (.done (show TokenKind.closeBracket ∉ Grammar.suffixKinds by decide))) rfl trivial rfl
  have sum : Spelled (.expr (.binary .bare .plus (.named "e") (.int .bare 2)))
      [(.identifier, "e"), (.plus, "+"), (.number, "2"), (.closeParen, ")")]
      [(.closeParen, ")")] :=
    .expr (.joined (.binary .plus) (.operand (.named "e")) (.operand (.int .bare 2)))
      (.row (.part (.name (by decide))) (.binary rfl two (.done (by decide)))) rfl
      ⟨trivial, trivial, nofun, nofun⟩ rfl
  have named {spelled : String} {behind : List TokenContent} (ends : headKind behind ≠ .openParen) :
      Spelled (.operand (.named spelled)) ((.identifier, spelled) :: behind) behind :=
    .part (.name ends)
  exact .row (named (by decide)) (.binary rfl (named (by decide)) (.binary rfl (named (by decide))
    (.member (.name (by decide)) (.index position (.binary rfl (.group sum) (.done (by decide)))))))

/-- A row with all kinds of joints is read as its grouping says. -/
theorem Parser.expr_mixedRow : ∃ value behind,
    expr (.ofTokens mixedRow) = .ok (value, behind) ∧ value.bare = mixedGrouping.expr := by
  have accepted : (expr (.ofTokens mixedRow)).isOk = true := by decide +kernel
  cases read : expr (.ofTokens mixedRow) with
  | error failure => simp [read, Except.isOk, Except.toBool] at accepted
  | ok found =>
      rcases expr_grouped read with ⟨grouping, -, -, shape, only, -⟩
      have grouped : mixedGrouping.Grouped := by
        simp [mixedGrouping, Grouping.Grouped, Grouping.top?]
        decide
      refine ⟨found.1, found.2, rfl, ?_⟩
      rw [only mixedGrouping [] Piece.spelled_mixedRow grouped, shape]

end KnightFront
