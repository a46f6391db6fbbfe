import KnightFront.Proofs.Grammar.ReadsExpr

namespace KnightFront

/-!
# Reading calls and assigned fields

A statement that begins with a name and is no assignment to a variable or
array element begins with an expression, and the tree of the expression
decides how it goes on.  The theorems here say from which tokens this tree is
a call and from which it is a field: names and calls in a row, with dots
between them and nothing else.
-/

/-- Whether an expression is a field. -/
def Expr.isField : Expr → Bool
  | field .. => true
  | _ => false

namespace Grammar

open KnightFront.Parser (Ensures Yields)
open Form (dotted)

variable {cursor : Cursor} {nested : Parser Expr} {limit : Nat} {state : ExprStacks}
variable {ahead middle behind rest : List TokenContent}
variable {isDotted called : Bool}

/-- A row of names and calls, told by whether it has a dot and whether it ends
with a call. -/
def row (isDotted called : Bool) : Form :=
  if isDotted then .phrase .chain ++ .token .dot ++ part called else part called

theorem Between.dot_part (dot : Between .accepted (.token .dot) ahead middle)
    (last : Between .accepted (part called) middle behind) :
    Between .accepted dotted ahead behind :=
  dot.append last.nameOrCall

/-- Every row is a chain that more dots can follow. -/
theorem Between.chain (between : Between .accepted (row isDotted called) ahead behind) :
    Between .accepted (.phrase .chain) ahead behind := by
  refine between_phrase.mpr ?_
  cases isDotted with
  | false => exact between.nameOrCall.append (between_many.mpr (.inl rfl))
  | true =>
      rcases between_append.mp between with ⟨_, before, last⟩
      rcases between_append.mp before with ⟨_, chain, dot⟩
      rcases between_append.mp (between_phrase.mp chain) with ⟨_, first, more⟩
      exact first.append (more.snoc (dot.dot_part last))

theorem between_call_iff :
    Between .accepted (.phrase .call) ahead behind ↔
      ∃ isDotted, Between .accepted (row isDotted true) ahead behind := by
  rw [between_phrase, Bool.exists_bool]
  simp only [Phrase.rule, between_append_assoc, between_optional_append, row, part, argsIf, if_true,
    Bool.false_eq_true, if_false, or_comm]

theorem between_fieldTarget_iff :
    Between .accepted (.phrase .fieldTarget) ahead behind ↔
      Between .accepted (row true false) ahead behind := by
  rw [between_phrase]
  simp [Phrase.rule, row, part, argsIf]

/-- Behind the first name of a call or an assigned field stands a parenthesis
or a dot. -/
theorem Between.next_of_row (between : Between .accepted (row isDotted called) ahead behind)
    (longer : isDotted = true ∨ called = true) :
    headKind ahead.tail = .openParen ∨ headKind ahead.tail = .dot := by
  cases isDotted with
  | false =>
      rcases longer with impossible | rfl
      · cases impossible
      · rcases between_append.mp between with ⟨middle, named, args⟩
        rw [((between_token (by decide) (by decide)).mp named).2]
        exact .inl (List.mem_singleton.mp (begins_args _ _ args))
  | true =>
      rcases between_append.mp between with ⟨_, before, -⟩
      rcases between_append.mp before with ⟨_, chain, dot⟩
      rcases between_append.mp (between_phrase.mp chain) with ⟨_, first, more⟩
      rcases between_append.mp (between_phrase.mp first) with ⟨middle, named, args⟩
      rw [((between_token (by decide) (by decide)).mp named).2]
      rcases between_optional.mp args with args | rfl
      · exact .inl (List.mem_singleton.mp (begins_args _ _ args))
      · rcases between_many.mp more with rfl | ⟨_, second, -⟩
        · exact .inr (List.mem_singleton.mp (Begins.token _ _ dot))
        · exact .inr (List.mem_singleton.mp (Begins.append .token _ _ second))

/-- The stacks of a level that has read a row and nothing else. -/
inductive RowStacks : Bool → Bool → ExprStacks → Prop where
  | first {called : Bool} {value : Expr} (part : Part called value) :
      RowStacks false called ⟨[], [value]⟩
  | member {called : Bool} {right receiver : Expr} (path : receiver.isPath = true)
      (part : Part called right) : RowStacks true called ⟨[.member], [right, receiver]⟩

namespace RowStacks

theorem leads (stacked : RowStacks isDotted called state) : state.Leads := by
  cases stacked with
  | first part => cases part <;> exact .path rfl
  | member path part => exact .member path

theorem filled (stacked : RowStacks isDotted called state) : Filled state := by
  cases stacked with
  | first part => exact .settled ⟨by simp, rfl⟩
  | member path part => exact .member part ⟨by simp, rfl⟩

/-- Behind a dot the row is the receiver of what follows. -/
theorem yields_pushMember (stacked : RowStacks isDotted called state) :
    Yields (state.pushOperator .member) cursor fun pushed behind =>
      (∃ receiver, receiver.isPath = true ∧ pushed = ⟨[.member], [receiver]⟩) ∧
        behind.contents = cursor.contents := by
  have binds : StackedOperator.member.priority ≤ StackedOperator.member.priority := Nat.le_refl _
  cases stacked with
  | first part =>
      simp only [ExprStacks.pushOperator, ExprStacks.reduce, ExprStacks.reduceList, pure_bind,
        Parser.yields_pure, and_true]
      cases part <;> exact ⟨_, rfl, rfl⟩
  | @member called right receiver path part =>
      simp only [ExprStacks.pushOperator, ExprStacks.reduce, ExprStacks.reduceList, binds, if_true]
      cases part <;> simpa [ExprStacks.apply, Expr.isPath] using path

/-- What the level returns shows how the row ends. -/
theorem yields_result (stacked : RowStacks isDotted called state) :
    Yields state.result cursor fun value behind =>
      (value.isCall = called ∧ value.isField = (isDotted && !called)) ∧
        behind.contents = cursor.contents := by
  have binds : Priority.sentinel ≤ StackedOperator.member.priority := by decide
  cases stacked with
  | first part => cases part <;> simp [ExprStacks.result, ExprStacks.reduce, ExprStacks.reduceList,
      Expr.isCall, Expr.isField]
  | member path part => cases part <;> simp [ExprStacks.result, ExprStacks.reduce,
      ExprStacks.reduceList, binds, ExprStacks.apply, Expr.isCall, Expr.isField]

/-- A dot and what stands behind it make the row longer. -/
theorem reads_dot (stacked : RowStacks isDotted called state) (reads : ReadsInside nested limit)
    (fits : cursor.remaining ≤ limit) (dot : headKind cursor.contents = .dot) :
    Reads (Parser.operatorRound nested state) cursor
      (.token .dot ++ part (calls cursor.contents.tail.tail)) anything
      (GoesOn (RowStacks true (calls cursor.contents.tail.tail))) := by
  simp only [Parser.operatorRound, reads_bind_currentKind, dot, BinaryOp.ofToken?, if_true]
  refine (reads_take dot (by decide)).andThen fun _ behind _ read =>
    (reads_nothing_of_yields stacked.yields_pushMember).silently fun pushed further held same => ?_
  rcases held with ⟨receiver, path, rfl⟩
  rw [((between_token (by decide) (by decide)).mp read).2, ← same]
  refine (reads_member reads ?_).last fun right _ isPart _ => reads_pure.mpr (.member path isPart)
  rw [Cursor.remaining_eq, same, ← Cursor.remaining_eq]
  exact Nat.le_of_lt (Nat.lt_of_lt_of_le (remaining_lt_of_token read) fits)

end RowStacks

/-- The first name of an expression, with the arguments behind it. -/
theorem reads_operand_of_identifier (reads : ReadsInside nested limit)
    (fits : cursor.remaining ≤ limit) (found : headKind cursor.contents = .identifier) :
    Reads (Parser.operand nested .empty) cursor (part (calls cursor.contents.tail)) anything
      (RowStacks false (calls cursor.contents.tail)) := by
  simp only [Parser.operand, reads_bind_freshId, reads_bind_currentKind,
    Cursor.contents_withNextId, found]
  refine Reads.andThen (reads_take found (by decide)) fun token behind _ read => ?_
  have next : behind.contents = cursor.contents.tail :=
    ((between_token (by decide) (by decide)).mp read).2.symm
  rw [← next]
  refine (reads_nameOrCall reads ?_ _ token).last fun value _ isPart _ =>
    reads_pure.mpr (.first isPart)
  exact Nat.le_of_lt (Nat.lt_of_lt_of_le (remaining_lt_of_token read) fits)

theorem readsInside_below (limit : Nat) : ReadsInside (below limit Parser.expr) limit :=
  fun _ shorter => reads_expr.below shorter

/-- Where no dot follows, a row can only be gone on with by an operator or an
index, or be returned. -/
theorem RowStacks.ensures_round (stacked : RowStacks isDotted called state)
    (reads : ReadsInside nested limit) (fits : cursor.remaining ≤ limit)
    (other : headKind cursor.contents ≠ .dot) :
    Ensures (Parser.operatorRound nested state) cursor fun outcome behind =>
      match outcome with
      | .done value => (value.isCall = called ∧ value.isField = (isDotted && !called)) ∧
          behind.contents = cursor.contents
      | .again next => next.Anchored := by
  have result (inner : Cursor) : Ensures state.result inner fun value _ =>
      value.isCall = called ∧ value.isField = (isDotted && !called) :=
    (Parser.ensures_of_yields stacked.yields_result).mono fun _ _ facts => facts.1
  have rounds : Ensures (Parser.operatorRound nested state) cursor _ :=
    Parser.ensures_operatorRound_of_not_dot stacked.leads result other
  rcases reads_operatorRound reads fits stacked.filled with ⟨reads, -⟩ | ⟨reads, -⟩
  · refine (rounds.and reads.sound).mono fun outcome behind facts => ?_
    cases outcome with
    | done => exact ⟨facts.1, (between_nothing.mp facts.2.1).symm⟩
    | again => exact facts.2.2.elim
  · refine (rounds.and reads.sound).mono fun outcome behind facts => ?_
    cases outcome with
    | done => exact facts.2.2.elim
    | again => exact facts.1

/-- An expression that begins with a name is a row, or has an operator or an
index at its top. -/
theorem ensures_expr_row (found : headKind cursor.contents = .identifier) :
    Ensures Parser.expr cursor fun value behind => value.isOpen = true ∨
      ∃ isDotted called, Between .accepted (row isDotted called) cursor.contents behind.contents ∧
        value.isCall = called ∧ value.isField = (isDotted && !called) := by
  have inside := readsInside_below cursor.remaining
  rw [Ensures, Parser.expr, nesting_eq, ← Parser.expr]
  change Ensures (Parser.exprLevel _) cursor _
  simp only [Parser.exprLevel, Parser.ensures_bind]
  refine (reads_operand_of_identifier inside (Nat.le_refl _) found).sound.mono
    fun state behind facts => ?_
  rcases facts with ⟨first, stacked⟩
  refine Parser.ensures_rounds
    (fun state inner => state.Anchored ∨ ∃ isDotted called, RowStacks isDotted called state ∧
      Between .accepted (row isDotted called) cursor.contents inner.contents)
    (fun state inner held => ?_) (.inr ⟨false, _, stacked, first⟩)
  rcases held with anchored | ⟨isDotted, called, stacked, between⟩
  · refine (Parser.ensures_operatorRound_of_anchored anchored).mono fun outcome _ facts => ?_
    cases outcome with
    | done => exact .inl facts
    | again => exact .inl facts
  · have fits := remaining_le_of_between between
    by_cases dot : headKind inner.contents = .dot
    · refine (stacked.reads_dot inside fits dot).sound.mono fun outcome further facts => ?_
      cases outcome with
      | done => exact facts.2.elim
      | again =>
          rcases between_append.mp facts.1 with ⟨_, dot, last⟩
          exact .inr ⟨true, _, facts.2, (between.chain.append dot).append last⟩
    · refine (stacked.ensures_round inside fits dot).mono fun outcome further facts => ?_
      cases outcome with
      | done => exact .inr ⟨isDotted, called, facts.2 ▸ between, facts.1⟩
      | again => exact .inl facts

/-- Where no parenthesis follows, the token behind the last name of a row shows
whether the row ends with a call. -/
theorem Between.called_eq (between : Between .accepted (part called) ahead behind)
    (other : headKind behind ≠ .openParen) : called = calls ahead.tail := by
  rcases between_append.mp between with ⟨middle, named, args⟩
  rw [((between_token (by decide) (by decide)).mp named).2]
  cases called with
  | true => simp [calls, List.mem_singleton.mp (begins_args _ _ args)]
  | false => simp [calls, between_nothing.mp args, other]

/-- What is left of a row that has more dots. -/
def moreDots (called : Bool) : Form := .many dotted ++ (.token .dot ++ part called)

/-- A row with more dots goes on with a dot and what stands behind it. -/
theorem Between.dot_of_moreDots (between : Between .accepted (moreDots called) ahead rest)
    (other : headKind rest ≠ .openParen) :
    headKind ahead = .dot ∧
      ∃ middle, Between .accepted (.token .dot ++ part (calls ahead.tail.tail)) ahead middle ∧
        (middle = rest ∧ calls ahead.tail.tail = called ∨
          Between .accepted (moreDots called) middle rest) := by
  have begins {called : Bool} : Begins .accepted (.token .dot ++ part called) [.dot] :=
    .append .token
  rcases between_append.mp between with ⟨final, before, last⟩
  rcases between_many.mp before with rfl | ⟨middle, first, others⟩
  · refine ⟨List.mem_singleton.mp (begins _ _ last), rest, ?_⟩
    rcases between_append.mp last with ⟨next, dot, lastPart⟩
    have same := lastPart.called_eq other
    have tail := ((between_token (by decide) (by decide)).mp dot).2
    rw [tail, ← same]
    exact ⟨last, .inl ⟨rfl, rfl⟩⟩
  · have dotted : Begins .accepted dotted [.dot] := .append .token
    have follows : headKind middle = .dot := by
      rcases between_many.mp others with rfl | ⟨_, second, -⟩
      · exact List.mem_singleton.mp (begins _ _ last)
      · exact List.mem_singleton.mp (dotted _ _ second)
    rcases between_append.mp first with ⟨next, dot, named⟩
    have tail := ((between_token (by decide) (by decide)).mp dot).2
    refine ⟨List.mem_singleton.mp (dotted _ _ first), middle, ?_, .inr (others.append last)⟩
    rw [tail]
    exact dot.append (named.part_calls (by simp [follows]))

/-- A row in front of a token that does not go on with it is read as an
expression that shows how the row ends. -/
theorem yields_expr_row (between : Between .accepted (row isDotted called) cursor.contents rest)
    (ends : EndsExpr (headKind rest)) :
    Yields Parser.expr cursor fun value behind =>
      (value.isCall = called ∧ value.isField = (isDotted && !called)) ∧ behind.contents = rest := by
  have inside := readsInside_below cursor.remaining
  have other : headKind rest ≠ .openParen := ends.except_openParen
  obtain ⟨middle, first, goesOn⟩ : ∃ middle,
      Between .accepted (part (calls cursor.contents.tail)) cursor.contents middle ∧
        (isDotted = false ∧ calls cursor.contents.tail = called ∧ middle = rest ∨
          isDotted = true ∧ Between .accepted (moreDots called) middle rest) := by
    cases isDotted with
    | false =>
        rw [← between.called_eq other]
        exact ⟨rest, between, .inl ⟨rfl, rfl, rfl⟩⟩
    | true =>
        rcases between_append.mp between with ⟨_, before, last⟩
        rcases between_append.mp before with ⟨_, chain, dot⟩
        rcases between_append.mp (between_phrase.mp chain) with ⟨middle, named, more⟩
        have others : Between .accepted (moreDots called) middle rest :=
          more.append (dot.append last)
        have isDot := (others.dot_of_moreDots other).1
        exact ⟨middle, named.part_calls (by simp [isDot]), .inr ⟨rfl, others⟩⟩
  have found : headKind cursor.contents = .identifier :=
    List.mem_singleton.mp (Begins.token.append _ _ first)
  rw [Yields, Parser.expr, nesting_eq, ← Parser.expr]
  change Yields (Parser.exprLevel _) cursor _
  simp only [Parser.exprLevel, Parser.yields_bind]
  refine ((reads_operand_of_identifier inside (Nat.le_refl _) found).yields first trivial).mono
    fun state behind facts => ?_
  rcases facts with ⟨stacked, same⟩
  have shorter := remaining_le_of_between (same.symm ▸ first)
  refine Parser.yields_rounds_of_invariant (fun state inner => inner.remaining ≤ cursor.remaining ∧
    (RowStacks isDotted called state ∧ inner.contents = rest ∨
      isDotted = true ∧ Between .accepted (moreDots called) inner.contents rest ∧
        ∃ isDotted called, RowStacks isDotted called state)) ?_ ⟨shorter, ?_⟩
  · rintro state inner ⟨fits, ⟨stacked, same⟩ | ⟨rfl, more, _, _, stacked⟩⟩
    · have noDot : headKind inner.contents ≠ .dot := fun dot => ends.2 (by simp [← same, dot])
      have round := stacked.ensures_round inside fits noDot
      rcases reads_operatorRound inside fits stacked.filled with ⟨reads, -⟩ | ⟨-, goesOn⟩
      · refine ((reads.yields (between_nothing.mpr rfl) trivial).and round).mono
          fun outcome further facts => ?_
        cases outcome with
        | done => exact ⟨facts.2.1, facts.2.2.trans same⟩
        | again => exact facts.1.1.elim
      · exact absurd (same ▸ ends) goesOn
    · rcases more.dot_of_moreDots other with ⟨dot, middle, next, reaches⟩
      refine ((stacked.reads_dot inside fits dot).yields next trivial).mono
        fun outcome further facts => ?_
      cases outcome with
      | done => exact facts.1.elim
      | again =>
          have begins :
              Begins .accepted (.token .dot ++ part (calls inner.contents.tail.tail)) [.dot] :=
            .append .token
          have shorter := begins.length_lt (by decide) next
          simp only [← facts.2, ← Cursor.remaining_eq] at shorter
          refine ⟨shorter, Nat.le_trans (Nat.le_of_lt shorter) fits, ?_⟩
          rcases reaches with ⟨rfl, rfl⟩ | others
          · exact .inl ⟨facts.1, facts.2⟩
          · exact .inr ⟨rfl, facts.2 ▸ others, _, _, facts.1⟩
  · rcases goesOn with ⟨rfl, rfl, rfl⟩ | ⟨rfl, more⟩
    · exact .inl ⟨stacked, same⟩
    · exact .inr ⟨rfl, same ▸ more, _, _, stacked⟩

end Grammar
end KnightFront
