import KnightFront.Proofs.Parse.ProgressItem
import KnightFront.Parse.SharedStacks

namespace KnightFront

/-!
# Levels leave shared stacks alone

Reading with shared stacks is reading with stacks for each level: the same
expression is read, at the same faults the reader stops, and the stacks are
handed back as they were.  For on the stacks of a level every operator finds
its operands without those that lie below the mark.

So the parser meets no defect on any list of tokens, with stacks of its own at
each level as well as with shared ones.
-/

namespace Parser

variable {α β σ τ : Type} {cursor : Cursor}

theorem map_of_ok {parser : Parser α} {change : α → β} {value : α} {behind : Cursor}
    (read : parser cursor = .ok (value, behind)) :
    (change <$> parser) cursor = .ok (change value, behind) := by
  rw [map_eq_pure_bind, bind_of_ok read]
  rfl

theorem map_of_error {parser : Parser α} {change : α → β} {failure : ParseFailure}
    (failed : parser cursor = .error failure) : (change <$> parser) cursor = .error failure := by
  rw [map_eq_pure_bind, bind_of_error failed]

@[simp]
theorem map_defective {change : α → β} (defect : ParserDefect) :
    change <$> (defective defect : Parser α) = defective defect :=
  funext fun _ => map_of_error rfl

@[simp]
theorem bind_defective {next : α → Parser β} (defect : ParserDefect) :
    (defective defect : Parser α) >>= next = defective defect := rfl

@[simp]
theorem map_misplaced {change : α → β} (requirement : String) :
    change <$> (misplaced requirement : Parser α) = misplaced requirement :=
  funext fun _ => map_of_error rfl

theorem map_congr {parser other : Parser α} {change : α → β} {behind : Cursor}
    (same : parser cursor = other behind) :
    (change <$> parser) cursor = (change <$> other) behind := by
  rcases read : other behind with failure | ⟨value, further⟩
  · rw [map_of_error read, map_of_error (same.trans read)]
  · rw [map_of_ok read, map_of_ok (same.trans read)]

/-- Parsers that go on alike wherever the first one succeeds are the same. -/
theorem bind_congr_of_ensures {parser : Parser α} {next other : α → Parser β}
    (same : ∀ cursor, Ensures parser cursor fun value _ => next value = other value) :
    parser >>= next = parser >>= other := by
  funext cursor
  rcases read : parser cursor with failure | ⟨value, behind⟩
  · rw [bind_of_error read, bind_of_error read]
  · rw [bind_of_ok read, bind_of_ok read, same cursor value behind read]

/-- What ensures a condition at every cursor ensures it behind any parser. -/
theorem ensures_after {parser : Parser α} {next : α → Parser β} {post : β → Cursor → Prop}
    (ensures : ∀ value cursor, Ensures (next value) cursor post) :
    Ensures (parser >>= next) cursor post :=
  ensures_bind.mpr (ensures_of_forall ensures)

/-- The outcome of a round with its parts replaced. -/
def roundImage (stateImage : σ → τ) (resultImage : α → β) : Round σ α → Round τ β
  | .again next => .again (stateImage next)
  | .done result => .done (resultImage result)

/-- A repetition whose rounds do the same on images of the states has the image
of the outcome. -/
theorem rounds_of_images {round : σ → Parser (Round σ α)} {other : τ → Parser (Round τ β)}
    (invariant : σ → Prop) (stateImage : σ → τ) (resultImage : α → β)
    (same : ∀ state, invariant state →
      other (stateImage state) = roundImage stateImage resultImage <$> round state)
    (keeps : ∀ state cursor, invariant state → Ensures (round state) cursor fun outcome _ =>
      ∀ next, outcome = .again next → invariant next)
    {state : σ} (start : invariant state) :
    rounds other (stateImage state) = resultImage <$> rounds round state := by
  funext cursor
  fun_induction rounds round state cursor with
  | case1 state cursor failure failed =>
      have unfolded : rounds round state cursor = .error failure := by rw [rounds, failed]
      rw [map_of_error unfolded, rounds, same state start, map_of_error failed]
  | case2 state cursor result behind read =>
      have unfolded : rounds round state cursor = .ok (result, behind) := by rw [rounds, read]
      rw [map_of_ok unfolded, rounds, same state start, map_of_ok read]
      rfl
  | case3 state cursor next behind read shorter inductionHypothesis =>
      have unfolded : rounds round state cursor = rounds round next behind := by
        rw [rounds, read]
        simp [shorter]
      have kept := keeps state cursor start _ _ read next rfl
      rw [rounds, same state start, map_of_ok read, map_congr unfolded]
      simpa only [roundImage, shorter, if_true] using inductionHypothesis kept
  | case4 state cursor next behind read stalled =>
      have unfolded : rounds round state cursor = .error (.defect .stalled) := by
        rw [rounds, read]
        simp [stalled]
      rw [map_of_error unfolded, rounds, same state start, map_of_ok read]
      simp [roundImage, stalled]

end Parser

namespace Stacking

open KnightFront.Parser (Round Ensures roundImage)

variable {α β σ : Type} {nested : Parser Expr}

/-- A parser leaves the stacks alone. -/
theorem run_liftM (parser : Parser α) (shared : SharedStacks) :
    (liftM parser : Stacking α).run shared = (fun value => (value, shared)) <$> parser := by
  simp

/-- Rounds that leave the stacks alone are the rounds of a parser. -/
theorem rounds_liftM (round : σ → Parser (Round σ α)) (state : σ) :
    rounds (fun state => liftM (round state)) state =
      (liftM (Parser.rounds round state) : Stacking α) := by
  refine StateT.ext fun shared => (Eq.trans ?_ (run_liftM _ shared).symm)
  refine Parser.rounds_of_images (fun _ => True) (fun state => (state, shared)) _
    (fun state _ => ?_) (fun _ _ _ => Parser.ensures_of_forall fun _ _ _ _ => trivial) trivial
  rw [run_liftM, Functor.map_map]
  refine map_congr fun outcome => ?_
  cases outcome <;> rfl

/-- A nested phrase that gives the stacks back at every level is a parser. -/
theorem nesting_eq_liftM {level : Stacking α → Stacking α} {own : Parser α → Parser α}
    (step : ∀ nested : Parser α, level (liftM nested) = liftM (own nested)) :
    nesting level = (liftM (Parser.nesting own) : Stacking α) := by
  refine StateT.ext fun shared => funext fun cursor => ?_
  induction size : cursor.remaining using Nat.strongRecOn generalizing cursor shared with
  | ind size inductionHypothesis =>
      let allowed := Grammar.below cursor.remaining (Parser.nesting own)
      have inside (inner : SharedStacks) (behind : Cursor) :
          (if behind.remaining < cursor.remaining then nesting level inner behind
            else .error (.defect .stalled)) = (liftM allowed : Stacking α).run inner behind := by
        rw [run_liftM]
        by_cases shorter : behind.remaining < cursor.remaining
        · have same := inductionHypothesis behind.remaining (size ▸ shorter) inner behind rfl
          have entered : allowed behind = Parser.nesting own behind := by
            simp [allowed, Grammar.below, shorter]
          rw [run_liftM] at same
          rw [Parser.map_congr entered, ← same, if_pos shorter]
          rfl
        · have closed : allowed behind = .error (.defect .stalled) := by
            simp [allowed, Grammar.below, shorter]
          rw [Parser.map_of_error closed, if_neg shorter]
      have unfolded : (nesting level).run shared cursor =
          (level (liftM allowed)).run shared cursor := by
        change nesting level shared cursor = _
        rw [nesting]
        simp only [inside]
        rfl
      rw [unfolded, step, run_liftM, run_liftM]
      exact Parser.map_congr (Grammar.nesting_eq own cursor).symm

theorem commaSeparated_liftM :
    commaSeparated (liftM nested) = liftM (Parser.commaSeparated nested) := by
  rw [commaSeparated, Parser.commaSeparated, ← rounds_liftM]
  congr 1
  funext collected
  simp only [liftM_bind]
  refine bind_congr fun found => bind_congr fun kind => ?_
  split <;> simp

theorem listUpTo_liftM (close : TokenKind) :
    listUpTo close (liftM nested) = liftM (Parser.listUpTo close nested) := by
  simp only [listUpTo, Parser.listUpTo, liftM_bind]
  refine bind_congr fun kind => ?_
  split <;> simp [commaSeparated_liftM]

theorem arguments_liftM : arguments (liftM nested) = liftM (Parser.arguments nested) := by
  simp [arguments, Parser.arguments, listUpTo_liftM]

/-- A name or call is pushed as the parser reads it. -/
theorem nameOrCall_liftM (id : NodeId) (token : Token) :
    nameOrCall (liftM nested) id token =
      liftM (Parser.nameOrCall nested id token) >>= pushOperand := by
  simp only [nameOrCall, Parser.nameOrCall, liftM_bind, bind_assoc]
  refine bind_congr fun kind => ?_
  split <;> simp [arguments_liftM]

theorem member_liftM :
    member (liftM nested) = liftM (Parser.member nested) >>= pushOperand := by
  simp [member, Parser.member, nameOrCall_liftM]

theorem arrayLiteral_liftM (id : NodeId) :
    arrayLiteral (liftM nested) id =
      liftM (Parser.arrayLiteral nested id) >>= pushOperand := by
  simp [arrayLiteral, Parser.arrayLiteral, listUpTo_liftM]

theorem arrayInstance_liftM (id : NodeId) (start : Position) (element : ElementTy) :
    arrayInstance (liftM nested) id start element =
      liftM (Parser.arrayInstance nested id start element) >>= pushOperand := by
  simp [arrayInstance, Parser.arrayInstance]

variable {state : ExprStacks} {base : SharedStacks}

/-- The stacks of a level above a mark, with the stacks of the levels around it
below. -/
def above (base : SharedStacks) (state : ExprStacks) : SharedStacks :=
  ⟨state.operators.map .waiting ++ .mark :: base.operators, state.operands ++ base.operands⟩

/-- A reader works on the stacks of a level, above what lies below, as a parser
of its own does, whose values stand for values with the stacks behind them. -/
def Works (base : SharedStacks) (reader : Stacking α) (state : ExprStacks) (own : Parser β)
    (image : β → α × SharedStacks) : Prop :=
  reader.run (above base state) = image <$> own

/-- The level goes on with other stacks. -/
def goesOn (base : SharedStacks) (behind : ExprStacks) : Unit × SharedStacks :=
  ((), above base behind)

theorem Works.bind {reader : Stacking Unit} {own : Parser ExprStacks} {next : Stacking α}
    {nextOwn : ExprStacks → Parser β} {image : β → α × SharedStacks}
    (works : Works base reader state own (goesOn base))
    (goes : ∀ cursor, Ensures own cursor fun behind _ =>
      Works base next behind (nextOwn behind) image) :
    Works base (do reader; next) state (own >>= nextOwn) image := by
  rw [Works, StateT.run_bind, works, bind_map_left, map_bind]
  exact Parser.bind_congr_of_ensures goes

/-- What reads without touching the stacks goes in front of what works on
them. -/
theorem Works.after {γ : Type} {parser : Parser γ} {next : γ → Stacking α}
    {nextOwn : γ → Parser β} {image : β → α × SharedStacks}
    (works : ∀ value, Works base (next value) state (nextOwn value) image) :
    Works base (liftM parser >>= next) state (parser >>= nextOwn) image := by
  rw [Works, StateT.run_bind, run_liftM, bind_map_left, map_bind]
  exact bind_congr works

theorem works_pushOperand (operand : Expr) :
    Works base (pushOperand operand) state (pure (state.pushOperand operand)) (goesOn base) := by
  simp [Works, pushOperand, above, goesOn, ExprStacks.pushOperand]

/-! ## Operators find their operands -/

/-- How many operands an operator takes. -/
def arity : StackedOperator → Nat
  | .instantiation _ => 1
  | _ => 2

@[simp]
theorem run_popOperand_cons {operators : List SharedOperator} {top : Expr} {below : List Expr} :
    popOperand.run ⟨operators, top :: below⟩ = pure (top, ⟨operators, below⟩) := by
  simp only [popOperand, StateT.run_bind, StateT.run_get, pure_bind, StateT.run_modify,
    bind_pure_comp, StateT.run_map, map_pure]

@[simp]
theorem run_pushOperand {operators : List SharedOperator} {operand : Expr}
    {operands : List Expr} :
    (pushOperand operand).run ⟨operators, operands⟩ =
      pure ((), ⟨operators, operand :: operands⟩) := by
  simp only [pushOperand, StateT.run_modify]

theorem run_popOperand_bind {operators : List SharedOperator} {top : Expr} {below : List Expr}
    {next : Expr → Stacking α} :
    (popOperand >>= next).run ⟨operators, top :: below⟩ = (next top).run ⟨operators, below⟩ := by
  rw [StateT.run_bind, run_popOperand_cons, pure_bind]

theorem run_pure_push {operators : List SharedOperator} {operand : Expr} {operands : List Expr} :
    ((pure operand : Stacking Expr) >>= pushOperand).run ⟨operators, operands⟩ =
      pure ((), ⟨operators, operand :: operands⟩) := by
  rw [pure_bind, run_pushOperand]

/-- An operand with an identity of its own is pushed. -/
theorem run_freshId_push {operators : List SharedOperator} {make : NodeId → Expr}
    {operands : List Expr} :
    ((liftM Parser.freshId : Stacking NodeId) >>= fun id => pure (make id) >>= pushOperand).run
        ⟨operators, operands⟩ =
      Parser.freshId >>= fun id => pure ((), ⟨operators, make id :: operands⟩) := by
  rw [StateT.run_bind, run_liftM, bind_map_left]
  exact bind_congr fun id => run_pure_push

theorem run_defective_bind {defect : ParserDefect} {next : α → Stacking β}
    {shared : SharedStacks} :
    ((liftM (Parser.defective defect : Parser α) : Stacking α) >>= next).run shared =
      Parser.defective defect := by
  rw [StateT.run_bind, run_liftM, Parser.map_defective, Parser.bind_defective]

/-- What is pushed for an operator does not depend on the operands below those
of its level. -/
def Applies (operator : StackedOperator) (operands : List Expr) : Prop :=
  ∀ operators below, (applied operator >>= pushOperand).run ⟨operators, operands ++ below⟩ =
    (fun left => ((), ⟨operators, left ++ below⟩)) <$> ExprStacks.apply operator operands

theorem applies_binary (op : BinaryOp) (right left : Expr) (rest : List Expr) :
    Applies (.binary op) (right :: left :: rest) := by
  intro operators below
  simp only [applied, bind_assoc, List.cons_append, run_popOperand_bind, run_freshId_push,
    ExprStacks.apply, map_bind, map_pure]

theorem applies_index (close : Span) (position indexed : Expr) (rest : List Expr) :
    Applies (.index close) (position :: indexed :: rest) := by
  intro operators below
  simp only [applied, bind_assoc, List.cons_append, run_popOperand_bind, run_freshId_push,
    ExprStacks.apply, map_bind, map_pure]

/-- Behind a dot, anything but a call or a name is a defect on both sides. -/
theorem applies_member (right receiver : Expr) (rest : List Expr) :
    Applies .member (right :: receiver :: rest) := by
  intro operators below
  simp only [applied, bind_assoc, List.cons_append, run_popOperand_bind]
  cases right with
  | call info callee args => exact run_pure_push
  | name info used => exact run_pure_push
  | _ => exact run_defective_bind

/-- So is an instance of anything but a name. -/
theorem applies_instantiation (keyword : Span) (operand : Expr) (rest : List Expr) :
    Applies (.instantiation keyword) (operand :: rest) := by
  intro operators below
  simp only [applied, bind_assoc, List.cons_append, run_popOperand_bind]
  cases operand with
  | name info used => exact run_pure_push
  | _ => exact run_defective_bind

/-- An operator that finds its operands on its level takes none of another. -/
theorem applies_of_arity {operator : StackedOperator} {operands : List Expr}
    (enough : arity operator ≤ operands.length) : Applies operator operands := by
  rcases operands with - | ⟨right, - | ⟨left, rest⟩⟩
  · cases operator <;> simp [arity] at enough
  · cases operator with
    | instantiation keyword => exact applies_instantiation keyword right []
    | _ => simp [arity] at enough
  · cases operator with
    | binary op => exact applies_binary op right left rest
    | member => exact applies_member right left rest
    | index close => exact applies_index close right left rest
    | instantiation keyword => exact applies_instantiation keyword right (left :: rest)

theorem run_popOperator_waiting {operator : StackedOperator} {below : List SharedOperator}
    {operands : List Expr} :
    popOperator.run ⟨.waiting operator :: below, operands⟩ =
      (applied operator >>= pushOperand).run ⟨below, operands⟩ := by
  simp only [popOperator, StateT.run_bind, StateT.run_get, pure_bind, StateT.run_modify]

theorem works_popOperator {operator : StackedOperator} {operators : List StackedOperator}
    {operands : List Expr} (enough : arity operator ≤ operands.length) :
    Works base popOperator ⟨operator :: operators, operands⟩
      (ExprStacks.mk operators <$> ExprStacks.apply operator operands) (goesOn base) :=
  calc
    popOperator.run (above base ⟨operator :: operators, operands⟩)
        = (applied operator >>= pushOperand).run
            ⟨operators.map SharedOperator.waiting ++ .mark :: base.operators,
              operands ++ base.operands⟩ :=
      run_popOperator_waiting
    _ = (fun left => ((), above base ⟨operators, left⟩)) <$> ExprStacks.apply operator operands :=
      applies_of_arity enough _ _
    _ = goesOn base <$> (ExprStacks.mk operators <$> ExprStacks.apply operator operands) := by
      rw [Functor.map_map]
      rfl

/-- In place of its operands an operator leaves one. -/
theorem ensures_length_apply {operator : StackedOperator} {operands : List Expr} (cursor : Cursor) :
    Ensures (ExprStacks.apply operator operands) cursor fun applied _ =>
      applied.length + arity operator = operands.length + 1 := by
  rcases operands with - | ⟨first, - | ⟨second, below⟩⟩
  · cases operator <;> simp [ExprStacks.apply]
  · cases operator with
    | instantiation keyword => cases first <;> simp [ExprStacks.apply, arity]
    | _ => simp [ExprStacks.apply]
  · cases operator with
    | binary | index => simp [ExprStacks.apply, arity]
    | member | instantiation => cases first <;> simp [ExprStacks.apply, arity]

/-- Every stacked operator finds its operands when those above it have been
applied. -/
def Provided : List StackedOperator → Nat → Prop
  | [], _ => True
  | top :: below, operands =>
      arity top ≤ operands ∧ Provided below (operands + 1 - arity top)

/-- Operators that bind less than a member take two operands each. -/
theorem provided_of_settled {operators : List StackedOperator}
    (loose : ∀ operator ∈ operators, operator.priority < .member) :
    Provided operators (operators.length + 1) := by
  induction operators with
  | nil => trivial
  | cons top below inductionHypothesis =>
      have two : arity top = 2 := by
        cases top with
        | instantiation =>
            have weak := loose _ List.mem_cons_self
            exact absurd (show Priority.instantiation < .member from weak) (by decide)
        | _ => rfl
      simp only [Provided, two, List.length_cons]
      exact ⟨by omega, inductionHypothesis fun operator member =>
        loose operator (List.mem_cons_of_mem top member)⟩

theorem provided_of_filled (filled : Grammar.Filled state) :
    Provided state.operators state.operands.length := by
  cases filled with
  | settled settled => exact settled.balanced ▸ provided_of_settled settled.loose
  | member part settled =>
      have balanced := settled.balanced
      simp only [List.length_cons, Nat.add_right_cancel_iff] at balanced
      refine ⟨by simp [arity], ?_⟩
      simpa [arity, balanced] using provided_of_settled settled.loose
  | instantiation keyword info used awaiting =>
      have balanced := awaiting.balanced
      refine ⟨by simp [arity], ?_⟩
      simpa [arity, balanced] using provided_of_settled awaiting.loose

/-- Whether an operator binds at least as strongly as a priority. -/
abbrev binds (least : Priority) (top : StackedOperator) : Bool := decide (least ≤ top.priority)

theorem works_reduce (least : Priority)
    (provided : Provided state.operators state.operands.length) :
    Works base (reduce (binds least)) state (state.reduce least) (goesOn base) := by
  rcases state with ⟨operators, operands⟩
  induction operators generalizing operands with
  | nil =>
      simp [Works, reduce, above, goesOn, ExprStacks.reduce, ExprStacks.reduceList, reduceList]
  | cons top below inductionHypothesis =>
      by_cases strong : least ≤ top.priority
      · have applies : Works base popOperator ⟨top :: below, operands⟩ _ (goesOn base) :=
          works_popOperator provided.1
        have reduces : Works base (do popOperator; reduce (binds least)) ⟨top :: below, operands⟩
            ((ExprStacks.mk below <$> ExprStacks.apply top operands) >>= (·.reduce least)) (goesOn base) := by
          refine applies.bind fun cursor => ?_
          simp only [Parser.ensures_map]
          refine (ensures_length_apply cursor).mono fun applied _ length => ?_
          have left : applied.length = operands.length + 1 - arity top := by omega
          exact inductionHypothesis applied (left ▸ provided.2)
        -- Once the operator is applied, what is left to go through is the whole stack again.
        have unfolded : (reduce (binds least)).run (above base ⟨top :: below, operands⟩) =
            (do popOperator; reduce (binds least)).run (above base ⟨top :: below, operands⟩) := by
          simp only [Works, above, List.map_cons, List.cons_append] at applies
          simp [reduce, above, reduceList, strong, goesOn, applies]
        rw [Works, unfolded, reduces, ExprStacks.reduce_cons_of_le strong, bind_map_left]
      · simp [Works, reduce, above, goesOn, ExprStacks.reduce, ExprStacks.reduceList, reduceList, strong]

theorem works_pushOperator (operator : StackedOperator)
    (provided : Provided state.operators state.operands.length) :
    Works base (pushOperator operator) state (state.pushOperator operator) (goesOn base) := by
  refine (works_reduce operator.priority provided).bind fun cursor => ?_
  refine Parser.ensures_of_forall fun reduced _ => ?_
  simp [Works, above, goesOn]

/-! ## Operands and rounds -/

open Grammar (Part Awaiting Filled OpenMember)

/-- In front of an operand nothing is applied for an instance. -/
theorem works_pushOperator_instantiation (awaiting : Awaiting state) (keyword : Span) :
    Works base (pushOperator (.instantiation keyword)) state
      (state.pushOperator (.instantiation keyword)) (goesOn base) := by
  rw [Works, awaiting.pushOperator_instantiation]
  rcases state with ⟨- | ⟨top, below⟩, operands⟩
  · simp [pushOperator, reduce, reduceList, above, goesOn]
  · have weak : ¬ (StackedOperator.instantiation keyword).priority ≤ top.priority :=
      Nat.not_le_of_lt (Nat.lt_trans (awaiting.loose top List.mem_cons_self)
        (show Priority.member < .instantiation by decide))
    simp [pushOperator, reduce, reduceList, above, goesOn, weak]

/-- A value that a parser reads is pushed. -/
theorem works_push (parser : Parser Expr) :
    Works base (liftM parser >>= pushOperand) state (state.pushOperand <$> parser) (goesOn base) := by
  rw [map_eq_pure_bind]
  exact Works.after works_pushOperand

theorem works_misplaced (requirement : String) {image : β → α × SharedStacks} :
    Works base (liftM (Parser.misplaced requirement : Parser α)) state
      (Parser.misplaced requirement : Parser β) image := by
  rw [Works, run_liftM, Parser.map_misplaced, Parser.map_misplaced]

theorem works_creation (awaiting : Awaiting state) (id : NodeId) :
    Works base (creation (liftM nested) id) state (Parser.creation nested id state) (goesOn base) := by
  refine Works.after fun keyword => ?_
  refine Works.after fun kind => ?_
  cases kind with
  | identifier =>
      refine Works.after fun className => ?_
      refine Works.after fun opening => ?_
      refine Works.after fun closing => ?_
      refine Works.after fun span => ?_
      refine (works_pushOperator_instantiation awaiting keyword.span).bind fun cursor => ?_
      exact Parser.ensures_of_forall fun pushed _ => works_pushOperand _
  | intWord | stringWord =>
      dsimp only
      rw [arrayInstance_liftM, bind_pure_comp]
      exact works_push _
  | _ => exact works_misplaced _

theorem works_operand (awaiting : Awaiting state) :
    Works base (operand (liftM nested)) state (Parser.operand nested state) (goesOn base) := by
  refine Works.after fun id => ?_
  refine Works.after fun kind => ?_
  cases kind with
  | number =>
      dsimp only
      rw [bind_pure_comp]
      exact works_push _
  | string | trueWord | falseWord => exact Works.after fun token => works_pushOperand _
  | identifier =>
      refine Works.after fun token => ?_
      rw [nameOrCall_liftM, bind_pure_comp]
      exact works_push _
  | openParen =>
      refine Works.after fun opening => ?_
      refine Works.after fun inner => ?_
      exact Works.after fun closing => works_pushOperand inner
  | openBracket =>
      dsimp only
      rw [arrayLiteral_liftM, bind_pure_comp]
      exact works_push _
  | newWord => exact works_creation awaiting id
  | _ => exact works_misplaced _

/-- Behind a dot stands a name or a call, whatever is read inside it. -/
theorem ensures_member (cursor : Cursor) :
    Ensures (Parser.member nested) cursor fun value _ => ∃ called, Part called value := by
  simp only [Parser.member, Parser.nameOrCall, Parser.ensures_bind, Parser.ensures_freshId,
    Parser.ensures_expectOr, Parser.ensures_currentKind]
  intro _
  split
  · simp only [Parser.ensures_bind, Parser.ensures_spanFrom, Parser.ensures_pure]
    exact Parser.ensures_of_forall fun args _ => ⟨true, .call _ _ args⟩
  · exact Parser.ensures_pure.mpr ⟨false, .name _ _⟩

/-- An instance or array fills the stacks, whatever is read inside it. -/
theorem ensures_creation (awaiting : Awaiting state) (id : NodeId) (cursor : Cursor) :
    Ensures (Parser.creation nested id state) cursor fun filled _ => Filled filled := by
  refine Parser.ensures_after fun keyword _ => ?_
  refine Parser.ensures_after fun kind _ => ?_
  have pushed (value : Expr) : Filled (state.pushOperand value) :=
    .settled (awaiting.pushOperand value)
  split
  · refine Parser.ensures_after fun className _ => ?_
    refine Parser.ensures_after fun opening _ => ?_
    refine Parser.ensures_after fun closing _ => ?_
    refine Parser.ensures_after fun span _ => ?_
    rw [awaiting.pushOperator_instantiation, pure_bind]
    exact Parser.ensures_pure.mpr (.instantiation _ _ _ awaiting)
  · exact Parser.ensures_after fun value _ => Parser.ensures_pure.mpr (pushed value)
  · exact Parser.ensures_after fun value _ => Parser.ensures_pure.mpr (pushed value)
  · exact Parser.ensures_misplaced.mpr trivial

/-- An operand fills the stacks, whatever is read inside it. -/
theorem ensures_operand (awaiting : Awaiting state) (cursor : Cursor) :
    Ensures (Parser.operand nested state) cursor fun filled _ => Filled filled := by
  refine Parser.ensures_after fun id _ => ?_
  refine Parser.ensures_after fun kind _ => ?_
  have pushed (value : Expr) (cursor : Cursor) :
      Ensures (pure (state.pushOperand value)) cursor fun filled _ => Filled filled :=
    Parser.ensures_pure.mpr (.settled (awaiting.pushOperand value))
  split
  · exact Parser.ensures_after fun value => pushed value
  · exact Parser.ensures_after fun token => pushed _
  · exact Parser.ensures_after fun token => pushed _
  · exact Parser.ensures_after fun token => pushed _
  · refine Parser.ensures_after fun token _ => ?_
    exact Parser.ensures_after fun value => pushed value
  · refine Parser.ensures_after fun opening _ => ?_
    refine Parser.ensures_after fun inner _ => ?_
    exact Parser.ensures_after fun closing => pushed inner
  · exact Parser.ensures_after fun value => pushed value
  · exact ensures_creation awaiting id _
  · exact Parser.ensures_misplaced.mpr trivial

/-- A round that is done leaves the stacks of the other levels. -/
def onRound (base : SharedStacks) : Round ExprStacks Expr → Round Unit Expr × SharedStacks
  | .again next => (.again (), above base next)
  | .done result => (.done result, base)

theorem binds_sentinel : binds .sentinel = fun _ => true := by
  funext top
  exact decide_eq_true (Nat.zero_le _)

/-- At the end of a level its mark is on top of the operators of the others, and
one operand on top of their operands. -/
theorem works_finish (filled : Filled state) :
    Works base (finish base.operands.length) state state.result fun value => (value, base) := by
  rw [finish, ← binds_sentinel]
  refine (works_reduce .sentinel (provided_of_filled filled)).bind fun cursor => ?_
  refine ExprStacks.ensures_reduce_sentinel.mono fun reduced _ none => ?_
  rcases reduced with ⟨operators, - | ⟨only, - | ⟨second, below⟩⟩⟩
  · subst none
    simp [Works, above]
  · subst none
    simp [Works, above, popOperand]
  · subst none
    have more : ¬ below.length + base.operands.length + 1 = base.operands.length := by omega
    simp [Works, above, more]

/-- A reader that a round goes on behind. -/
theorem Works.again {reader : Stacking Unit} {own : Parser ExprStacks}
    (works : Works base reader state own (goesOn base)) :
    Works base (do reader; return Round.again ()) state (do return .again (← own))
      (onRound base) :=
  works.bind fun _ => Parser.ensures_of_forall fun _ _ => by simp [Works, onRound]

/-- A round works on a level as it does on stacks of its own. -/
theorem works_operatorRound (filled : Filled state) :
    Works base (operatorRound (liftM nested) base.operands.length) state
      (Parser.operatorRound nested state) (onRound base) := by
  have provided := provided_of_filled filled
  refine Works.after fun kind => ?_
  rcases BinaryOp.ofToken? kind with - | op
  · dsimp only
    split
    · refine Works.after fun dot => ?_
      refine (works_pushOperator .member provided).bind fun cursor => ?_
      refine Parser.ensures_of_forall fun pushed _ => ?_
      rw [member_liftM, bind_assoc]
      refine Works.after fun right => ?_
      simpa only [pure_bind] using (works_pushOperand right).again
    · split
      · refine Works.after fun opening => ?_
        rw [pushOperator, bind_assoc]
        refine (works_reduce .index provided).bind fun cursor => ?_
        refine Parser.ensures_of_forall fun reduced _ => ?_
        -- The index waits with the span of its opening sign while its position is read.
        rw [Works, StateT.run_bind, StateT.run_modify, pure_bind]
        change Works base _ { reduced with
          operators := .index opening.span :: reduced.operators } _ _
        refine Works.after fun inner => ?_
        refine Works.after fun close => ?_
        simp [Works, closeIndex, pushOperand, above, onRound]
      · have finishes : Works base (finish base.operands.length) state state.result
            fun value => (value, base) := works_finish filled
        rw [Works] at finishes ⊢
        simp [finishes, onRound]
  · have weak : (StackedOperator.binary op).priority < .member :=
      Nat.lt_trans op.priority_lt_index (by decide)
    refine Works.after fun sign => ?_
    refine (works_pushOperator (.binary op) provided).bind fun cursor => ?_
    refine (Parser.ensures_of_yields (filled.yields_pushOperator weak)).mono
      fun pushed _ facts => ?_
    exact (works_operand facts.1).again

/-- A round that goes on leaves filled stacks, whatever is read inside it. -/
theorem ensures_operatorRound (filled : Filled state) (cursor : Cursor) :
    Ensures (Parser.operatorRound nested state) cursor fun outcome _ =>
      ∀ next, outcome = .again next → Filled next := by
  refine Parser.ensures_after fun kind cursor => ?_
  rcases BinaryOp.ofToken? kind with - | op
  · dsimp only
    split
    · refine Parser.ensures_after fun _ cursor => Parser.ensures_bind.mpr ?_
      refine (Parser.ensures_of_yields filled.yields_pushMember).mono fun pushed behind facts => ?_
      refine Parser.ensures_bind.mpr ((ensures_member behind).mono fun right _ part => ?_)
      simpa using facts.1.pushOperand part.choose_spec
    · split
      · refine Parser.ensures_after fun _ cursor => Parser.ensures_bind.mpr ?_
        refine (Parser.ensures_of_yields (filled.yields_reduce (by decide))).mono
          fun reduced _ facts => ?_
        refine Parser.ensures_after fun inner _ => ?_
        refine Parser.ensures_after fun close _ => ?_
        have weak : (StackedOperator.index close.span).priority < .member :=
          show Priority.index < .member by decide
        simpa using .settled ((facts.1.push weak).pushOperand inner)
      · exact Parser.ensures_after fun value _ => by simp
  · have weak : (StackedOperator.binary op).priority < .member :=
      Nat.lt_trans op.priority_lt_index (by decide)
    refine Parser.ensures_after fun _ cursor => Parser.ensures_bind.mpr ?_
    refine (Parser.ensures_of_yields (filled.yields_pushOperator weak)).mono
      fun pushed behind facts => ?_
    refine Parser.ensures_bind.mpr ((ensures_operand facts.1 behind).mono fun next _ isFilled => ?_)
    simpa using isFilled

/-- A level leaves the stacks as it finds them. -/
theorem exprLevel_liftM : exprLevel (liftM nested) = liftM (Parser.exprLevel nested) := by
  refine StateT.ext fun shared => ?_
  have first : Works shared (operand (liftM nested)) .empty (Parser.operand nested .empty)
      (goesOn shared) := works_operand Grammar.awaiting_empty
  rw [run_liftM]
  have unfolded : (exprLevel (liftM nested)).run shared =
      (do operand (liftM nested); rounds (fun _ => operatorRound (liftM nested) shared.operands.length) ()).run
        (above shared .empty) := by
    simp [exprLevel, above, ExprStacks.empty]
  rw [unfolded]
  refine first.bind fun cursor => ?_
  refine (ensures_operand Grammar.awaiting_empty cursor).mono fun state _ filled => ?_
  refine Parser.rounds_of_images Filled (fun state => ((), above shared state)) _
    (fun state filled => ?_) (fun state cursor filled => ?_) filled
  · have works : (operatorRound (liftM nested) shared.operands.length).run (above shared state) = _ :=
      works_operatorRound filled
    rw [works, Functor.map_map]
    refine map_congr fun outcome => ?_
    cases outcome <;> rfl
  · exact ensures_operatorRound filled cursor

/-- Reading with shared stacks is reading. -/
theorem expr_eq_liftM : expr = liftM Parser.expr :=
  nesting_eq_liftM fun _ => exprLevel_liftM

/-- With any shared stacks, at any cursor, an expression is read and the stacks
are handed back, or the text is at fault. -/
theorem run_expr_isOk_or_fault (shared : SharedStacks) (cursor : Cursor) :
    (∃ value behind, expr.run shared cursor = .ok ((value, shared), behind) ∧
        Parser.expr cursor = .ok (value, behind)) ∨
      ∃ fault, expr.run shared cursor = .error (.fault fault) ∧
        Parser.expr cursor = .error (.fault fault) := by
  rw [expr_eq_liftM, run_liftM]
  rcases (Parser.consumes_expr cursor).isOk_or_fault with ⟨value, behind, read⟩ | ⟨fault, stopped⟩
  · exact .inl ⟨value, behind, Parser.map_of_ok read, read⟩
  · exact .inr ⟨fault, Parser.map_of_error stopped, stopped⟩

end Stacking

/-- The parser meets no defect.  Every list of tokens is a program or has a
first fault; with stacks shared by all levels every expression is read as well,
and they are handed back; and what a repetition reads in a round, it reads
tokens for. -/
theorem Program.ofTokens_meets_no_defect :
    (∀ file tokens, (∃ program, Program.ofTokens file tokens = .ok program) ∨
      ∃ fault, Program.ofTokens file tokens = .error (.fault fault)) ∧
    (∀ shared cursor,
      (∃ value behind, Stacking.expr.run shared cursor = .ok ((value, shared), behind) ∧
        Parser.expr cursor = .ok (value, behind)) ∨
      ∃ fault, Stacking.expr.run shared cursor = .error (.fault fault) ∧
        Parser.expr cursor = .error (.fault fault)) ∧
    ∀ cursor, Parser.Consumes Parser.item cursor ∧ Parser.Consumes Parser.varDecl cursor ∧
      Parser.Consumes Parser.function cursor ∧ Parser.Consumes Parser.functionHead cursor ∧
      Parser.Consumes Parser.nameUse cursor ∧ Parser.Consumes Parser.param cursor ∧
      Parser.Consumes Parser.returnClause cursor ∧
      Parser.Consumes (Parser.bodyItem Parser.stmt) cursor ∧
      Parser.Consumes Parser.stmt cursor ∧ Parser.Consumes Parser.expr cursor := by
  refine ⟨Program.ofTokens_isOk_or_fault, Stacking.run_expr_isOk_or_fault, fun cursor => ?_⟩
  exact ⟨Parser.consumes_item cursor, Parser.consumes_varDecl, Parser.consumes_function,
    Parser.consumes_functionHead, Parser.consumes_nameUse, Parser.consumes_param,
    Parser.consumes_returnClause, Parser.consumes_bodyItem (Parser.consumes_stmt cursor),
    Parser.consumes_stmt cursor, Parser.consumes_expr cursor⟩

end KnightFront
