import KnightFront.Parse.Item
import KnightFront.Proofs.Grammar.Balance

namespace KnightFront
namespace Parser

/-!
# Progress

A third judgement speaks of a parser at a cursor.  `Proceeds` says that it
either succeeds, with a value and a cursor that meet a condition, or stops at a
fault of the text: it never runs into a defect.  Tokens are arbitrary here.
They need not come from a text, and the end of input may stand between them.

A repetition and a nested phrase are defects unless each round and each level
reads a token.  So the readers of phrases are shown to consume, which is to
proceed and to leave fewer tokens than there were.
-/

variable {α β : Type} {cursor : Cursor}

/-- A parser succeeds at a cursor with a value and a cursor that meet a
condition, or it stops at a fault. -/
def Proceeds (parser : Parser α) (cursor : Cursor) (post : α → Cursor → Prop) : Prop :=
  match parser cursor with
  | .ok (value, behind) => post value behind
  | .error (.fault _) => True
  | .error (.defect _) => False

/-- A parser stops at a fault or leaves fewer tokens than there were. -/
def Consumes (parser : Parser α) (cursor : Cursor) : Prop :=
  Proceeds parser cursor fun _ behind => behind.remaining < cursor.remaining

theorem proceeds_of_ok {parser : Parser α} {value : α} {behind : Cursor}
    {post : α → Cursor → Prop} (read : parser cursor = .ok (value, behind)) :
    Proceeds parser cursor post ↔ post value behind := by
  simp [Proceeds, read]

theorem proceeds_of_fault {parser : Parser α} {fault : SyntaxFault} {post : α → Cursor → Prop}
    (stopped : parser cursor = .error (.fault fault)) : Proceeds parser cursor post ↔ True := by
  simp [Proceeds, stopped]

theorem proceeds_of_defect {parser : Parser α} {defect : ParserDefect} {post : α → Cursor → Prop}
    (failed : parser cursor = .error (.defect defect)) :
    Proceeds parser cursor post ↔ False := by
  simp [Proceeds, failed]

/-- What a parser succeeds with, it proceeds with. -/
theorem Yields.proceeds {parser : Parser α} {post : α → Cursor → Prop}
    (yields : Yields parser cursor post) : Proceeds parser cursor post := by
  rcases yields with ⟨value, behind, read, holds⟩
  exact (proceeds_of_ok read).mpr holds

theorem Proceeds.mono {parser : Parser α} {first second : α → Cursor → Prop}
    (proceeds : Proceeds parser cursor first)
    (implies : ∀ value behind, first value behind → second value behind) :
    Proceeds parser cursor second := by
  unfold Proceeds at *
  split at proceeds
  · exact implies _ _ proceeds
  · trivial
  · exact proceeds

/-- What proceeds ends with a value or a fault. -/
theorem Proceeds.isOk_or_fault {parser : Parser α} {post : α → Cursor → Prop}
    (proceeds : Proceeds parser cursor post) :
    (∃ value behind, parser cursor = .ok (value, behind)) ∨
      ∃ fault, parser cursor = .error (.fault fault) := by
  unfold Proceeds at proceeds
  split at proceeds
  · next value behind read => exact .inl ⟨value, behind, read⟩
  · next fault stopped => exact .inr ⟨fault, stopped⟩
  · exact proceeds.elim

@[simp]
theorem proceeds_bind {parser : Parser α} {next : α → Parser β} {post : β → Cursor → Prop} :
    Proceeds (parser >>= next) cursor post ↔
      Proceeds parser cursor fun value behind => Proceeds (next value) behind post := by
  rcases read : parser cursor with failure | ⟨value, behind⟩
  · cases failure with
    | fault fault => rw [proceeds_of_fault (bind_of_error read), proceeds_of_fault read]
    | defect defect => rw [proceeds_of_defect (bind_of_error read), proceeds_of_defect read]
  · rw [proceeds_of_ok read]
    simp only [Proceeds, bind_of_ok read]

@[simp]
theorem proceeds_map {parser : Parser α} {change : α → β} {post : β → Cursor → Prop} :
    Proceeds (change <$> parser) cursor post ↔
      Proceeds parser cursor fun value behind => post (change value) behind := by
  rw [← bind_pure_comp, proceeds_bind]
  exact ⟨(·.mono fun _ _ => (proceeds_of_ok rfl).mp), (·.mono fun _ _ => (proceeds_of_ok rfl).mpr)⟩

section Primitives

variable {post : α → Cursor → Prop}

@[simp]
theorem proceeds_pure {value : α} : Proceeds (pure value) cursor post ↔ post value cursor :=
  proceeds_of_ok rfl

@[simp]
theorem proceeds_faulty {cause : SyntaxFault.Cause} {position : Position} :
    Proceeds (faulty cause position) cursor post ↔ True :=
  proceeds_of_fault rfl

@[simp]
theorem proceeds_misplaced {requirement : String} :
    Proceeds (misplaced requirement) cursor post ↔ True :=
  proceeds_of_fault rfl

@[simp]
theorem proceeds_currentToken {post : Token → Cursor → Prop} :
    Proceeds currentToken cursor post ↔ post cursor.current cursor :=
  proceeds_of_ok rfl

@[simp]
theorem proceeds_currentKind {post : TokenKind → Cursor → Prop} :
    Proceeds currentKind cursor post ↔ post (headKind cursor.contents) cursor := by
  rw [proceeds_of_ok rfl, Cursor.kind_eq]

@[simp]
theorem proceeds_nextKind {post : TokenKind → Cursor → Prop} :
    Proceeds Parser.nextKind cursor post ↔ post (headKind cursor.contents.tail) cursor := by
  rw [proceeds_of_ok rfl, Cursor.nextKind_eq]

@[simp]
theorem proceeds_position {post : Position → Cursor → Prop} :
    Proceeds position cursor post ↔ post cursor.current.span.start cursor :=
  proceeds_of_ok rfl

@[simp]
theorem proceeds_take {post : Token → Cursor → Prop} :
    Proceeds take cursor post ↔ post cursor.current cursor.advance :=
  proceeds_of_ok rfl

@[simp]
theorem proceeds_freshId {post : NodeId → Cursor → Prop} :
    Proceeds freshId cursor post ↔
      post cursor.nextId { cursor with nextId := cursor.nextId + 1 } :=
  proceeds_of_ok rfl

@[simp]
theorem proceeds_spanFrom {start : Position} {post : Span → Cursor → Prop} :
    Proceeds (spanFrom start) cursor post ↔ post ⟨start, cursor.previousEnd⟩ cursor :=
  proceeds_of_ok rfl

@[simp]
theorem proceeds_expect {kind : TokenKind} {post : Token → Cursor → Prop} :
    Proceeds (expect kind) cursor post ↔
      (headKind cursor.contents = kind → post cursor.current cursor.advance) := by
  by_cases same : headKind cursor.contents = kind <;> simp [expect, same]

@[simp]
theorem proceeds_expectOr {kind : TokenKind} {requirement : String}
    {post : Token → Cursor → Prop} :
    Proceeds (expectOr kind requirement) cursor post ↔
      (headKind cursor.contents = kind → post cursor.current cursor.advance) := by
  by_cases same : headKind cursor.contents = kind <;> simp [expectOr, same]

end Primitives

/-- An identity is handed out without reading. -/
theorem consumes_bind_freshId {next : NodeId → Parser α}
    (consumes : ∀ id numbered, Cursor.remaining numbered = cursor.remaining →
      Consumes (next id) numbered) : Consumes (freshId >>= next) cursor := by
  rw [Consumes, proceeds_bind, proceeds_freshId]
  exact consumes _ { cursor with nextId := cursor.nextId + 1 } rfl

/-- A token that is not the end of input is read off what is left. -/
theorem remaining_advance_lt_of_headKind {kind : TokenKind}
    (found : headKind cursor.contents = kind) (more : kind ≠ .eof) :
    cursor.advance.remaining < cursor.remaining :=
  Cursor.remaining_advance_lt (by simpa [found] using more)

/-- What one round of a repetition has to meet: it is done, or it reads on and
keeps the invariant. -/
def RoundProceeds {σ : Type} (invariant : σ → Cursor → Prop) (post : α → Cursor → Prop)
    (cursor : Cursor) : Round σ α → Cursor → Prop
  | .done result, behind => post result behind
  | .again next, behind => behind.remaining < cursor.remaining ∧ invariant next behind

/-- A repetition proceeds if every round, under an invariant, either ends it or
reads on and keeps the invariant. -/
theorem proceeds_rounds {σ : Type} {round : σ → Parser (Round σ α)} {post : α → Cursor → Prop}
    (invariant : σ → Cursor → Prop)
    (step : ∀ state cursor, invariant state cursor →
      Proceeds (round state) cursor (RoundProceeds invariant post cursor))
    {state : σ} (start : invariant state cursor) : Proceeds (rounds round state) cursor post := by
  fun_induction rounds round state cursor with
  | case1 state cursor failure failed =>
      have unfolded : rounds round state cursor = .error failure := by rw [rounds, failed]
      have holds := step state cursor start
      cases failure with
      | fault fault => exact (proceeds_of_fault unfolded).mpr trivial
      | defect defect => exact ((proceeds_of_defect failed).mp holds).elim
  | case2 state cursor result behind read =>
      have unfolded : rounds round state cursor = .ok (result, behind) := by rw [rounds, read]
      have holds := (proceeds_of_ok read).mp (step state cursor start)
      exact (proceeds_of_ok unfolded).mpr holds
  | case3 state cursor next behind read shorter inductionHypothesis =>
      have holds := (proceeds_of_ok read).mp (step state cursor start)
      have unfolded : rounds round state cursor = rounds round next behind := by
        rw [rounds, read]
        simp [shorter]
      simpa only [Proceeds, unfolded] using inductionHypothesis holds.2
  | case4 state cursor next behind read stalled =>
      have holds := (proceeds_of_ok read).mp (step state cursor start)
      exact absurd holds.1 stalled

/-- A parser consumes wherever fewer tokens are left than a limit. -/
def ConsumesInside (nested : Parser α) (limit : Nat) : Prop :=
  ∀ inner : Cursor, inner.remaining < limit → Consumes nested inner

/-- A nested phrase consumes if its level does, given a reader that consumes
wherever fewer tokens are left. -/
theorem consumes_nesting {level : Parser α → Parser α}
    (step : ∀ cursor nested, ConsumesInside nested cursor.remaining → Consumes (level nested) cursor)
    (cursor : Cursor) : Consumes (nesting level) cursor := by
  induction size : cursor.remaining using Nat.strongRecOn generalizing cursor with
  | ind size inductionHypothesis =>
      have consumes := step cursor (Grammar.below cursor.remaining (nesting level))
        fun inner shorter => by
          have inside := inductionHypothesis inner.remaining (size ▸ shorter) inner rfl
          simpa only [Consumes, Proceeds, Grammar.below, shorter, if_true] using inside
      simpa only [Consumes, Proceeds, Grammar.nesting_eq] using consumes

variable {nested : Parser α} {limit : Nat}

/-- Phrases with commas between them: each of them reads a token. -/
theorem ConsumesInside.commaSeparated (consumes : ConsumesInside nested limit)
    (fits : cursor.remaining < limit) : Consumes (commaSeparated nested) cursor := by
  -- The first round has no shorter list behind it, so the invariant bounds both.
  refine proceeds_rounds
    (fun _ inner => inner.remaining ≤ cursor.remaining) ?_ (Nat.le_refl _)
  intro collected inner within
  simp only [proceeds_bind, proceeds_currentKind]
  refine (consumes inner (by omega)).mono fun value middle shorter => ?_
  split
  · have advanced := middle.remaining_advance_le
    simp only [proceeds_bind, proceeds_take, proceeds_pure, RoundProceeds]
    omega
  · simp only [proceeds_pure, RoundProceeds]
    omega

/-- A list may be empty, and then nothing is read. -/
theorem ConsumesInside.listUpTo (consumes : ConsumesInside nested limit)
    (fits : cursor.remaining < limit) (close : TokenKind) :
    Proceeds (listUpTo close nested) cursor fun _ behind =>
      behind.remaining ≤ cursor.remaining := by
  simp only [Parser.listUpTo, proceeds_bind, proceeds_currentKind]
  split
  · simp
  · exact (consumes.commaSeparated fits).mono fun _ _ shorter => Nat.le_of_lt shorter

/-! ## Expressions -/

section Expressions

variable {nested : Parser Expr} {state : ExprStacks}

open Grammar (Part Awaiting Filled)

theorem consumes_arguments (consumes : ConsumesInside nested limit)
    (fits : cursor.remaining ≤ limit) : Consumes (arguments nested) cursor := by
  simp only [Consumes, arguments, proceeds_bind, proceeds_expect, proceeds_pure]
  intro opened
  have shorter := remaining_advance_lt_of_headKind opened (by decide)
  refine (consumes.listUpTo (by omega) .closeParen).mono fun _ behind within _ => ?_
  have advanced := behind.remaining_advance_le
  omega

/-- Behind a name, arguments or nothing is read. -/
theorem proceeds_nameOrCall (consumes : ConsumesInside nested limit)
    (fits : cursor.remaining ≤ limit) (id : NodeId) (token : Token) :
    Proceeds (nameOrCall nested id token) cursor fun value behind =>
      (∃ called, Part called value) ∧ behind.remaining ≤ cursor.remaining := by
  simp only [nameOrCall, proceeds_bind, proceeds_currentKind]
  split
  · simp only [proceeds_bind, proceeds_spanFrom, proceeds_pure]
    exact (consumes_arguments consumes fits).mono fun args _ shorter =>
      ⟨⟨true, .call _ _ args⟩, Nat.le_of_lt shorter⟩
  · exact proceeds_pure.mpr ⟨⟨false, .name _ _⟩, Nat.le_refl _⟩

theorem proceeds_member (consumes : ConsumesInside nested limit)
    (fits : cursor.remaining ≤ limit) :
    Proceeds (member nested) cursor fun value behind =>
      (∃ called, Part called value) ∧ behind.remaining < cursor.remaining := by
  simp only [member, proceeds_bind, proceeds_freshId, proceeds_expectOr]
  intro found
  have shorter : Cursor.remaining (Cursor.advance { cursor with nextId := cursor.nextId + 1 }) <
      cursor.remaining := remaining_advance_lt_of_headKind (by exact found) (by decide)
  exact (proceeds_nameOrCall consumes (by omega) _ _).mono fun _ _ facts =>
    ⟨facts.1, Nat.lt_of_le_of_lt facts.2 shorter⟩

theorem consumes_numberLiteral (found : headKind cursor.contents = .number) (id : NodeId) :
    Consumes (numberLiteral id) cursor := by
  simp only [Consumes, numberLiteral, proceeds_bind, proceeds_take]
  split
  · exact proceeds_pure.mpr (remaining_advance_lt_of_headKind found (by decide))
  · simp

theorem consumes_arrayLiteral (consumes : ConsumesInside nested limit)
    (fits : cursor.remaining ≤ limit) (found : headKind cursor.contents = .openBracket)
    (id : NodeId) : Consumes (arrayLiteral nested id) cursor := by
  simp only [Consumes, arrayLiteral, proceeds_bind, proceeds_position, proceeds_take,
    proceeds_expect, proceeds_spanFrom, proceeds_pure]
  have shorter := remaining_advance_lt_of_headKind found (by decide)
  refine (consumes.listUpTo (by omega) .closeBracket).mono fun _ behind within _ => ?_
  have advanced := behind.remaining_advance_le
  omega

theorem consumes_arrayInstance (consumes : ConsumesInside nested limit)
    (fits : cursor.remaining ≤ limit) (id : NodeId) (start : Position) (element : ElementTy) :
    Consumes (arrayInstance nested id start element) cursor := by
  simp only [Consumes, arrayInstance, proceeds_bind, proceeds_take, proceeds_expect,
    proceeds_spanFrom, proceeds_pure]
  intro opened
  have shorter := remaining_advance_lt_of_headKind opened (by decide)
  have word := cursor.remaining_advance_le
  refine (consumes _ (by omega)).mono fun _ behind within _ => ?_
  have advanced := behind.remaining_advance_le
  omega

/-- A new instance or array leaves the stacks filled, for its class name is
the operand of the instance. -/
theorem proceeds_creation (consumes : ConsumesInside nested limit)
    (fits : cursor.remaining ≤ limit) (awaiting : Awaiting state) (id : NodeId) :
    Proceeds (creation nested id state) cursor fun filled behind =>
      Filled filled ∧ behind.remaining < cursor.remaining := by
  have array (start : Position) (element : ElementTy) {behind : Cursor}
      (shorter : behind.remaining < cursor.remaining) :
      Proceeds (arrayInstance nested id start element) behind fun value further =>
        Filled (state.pushOperand value) ∧ further.remaining < cursor.remaining :=
    (consumes_arrayInstance consumes (by omega) id start element).mono fun value further within =>
      ⟨.settled (awaiting.pushOperand value), Nat.lt_trans within shorter⟩
  simp only [creation, proceeds_bind, proceeds_expect, proceeds_currentKind]
  intro found
  have shorter := remaining_advance_lt_of_headKind found (by decide)
  split
  · simp only [awaiting.pushOperator_instantiation, proceeds_bind, proceeds_take, proceeds_expect,
      proceeds_spanFrom, proceeds_pure]
    intro _ _
    refine ⟨.instantiation _ _ _ awaiting, ?_⟩
    have advanced := Cursor.remaining_advance_le
    exact Nat.lt_of_le_of_lt (Nat.le_trans (advanced _) (Nat.le_trans (advanced _) (advanced _)))
      shorter
  · simpa only [proceeds_bind, proceeds_pure] using array _ .int shorter
  · simpa only [proceeds_bind, proceeds_pure] using array _ .string shorter
  · simp

/-- An operand is read onto its stack. -/
theorem proceeds_operand (consumes : ConsumesInside nested limit)
    (fits : cursor.remaining ≤ limit) (awaiting : Awaiting state) :
    Proceeds (operand nested state) cursor fun filled behind =>
      Filled filled ∧ behind.remaining < cursor.remaining := by
  have pushed (value : Expr) : Filled (state.pushOperand value) :=
    .settled (awaiting.pushOperand value)
  rw [operand, proceeds_bind, proceeds_freshId]
  change Cursor.remaining { cursor with nextId := cursor.nextId + 1 } ≤ limit at fits
  change Proceeds _ _ fun filled behind => Filled filled ∧
    behind.remaining < Cursor.remaining { cursor with nextId := cursor.nextId + 1 }
  generalize cursor.nextId = id at fits ⊢
  generalize ({ cursor with nextId := id + 1 } : Cursor) = numbered at fits ⊢
  simp only [proceeds_bind, proceeds_currentKind]
  split
  · next found =>
      simp only [proceeds_bind, proceeds_pure]
      exact (consumes_numberLiteral found id).mono fun value _ shorter => ⟨pushed value, shorter⟩
  · next found =>
      simp only [proceeds_bind, proceeds_take, proceeds_pure]
      exact ⟨pushed _, remaining_advance_lt_of_headKind found (by decide)⟩
  · next found =>
      simp only [proceeds_bind, proceeds_take, proceeds_pure]
      exact ⟨pushed _, remaining_advance_lt_of_headKind found (by decide)⟩
  · next found =>
      simp only [proceeds_bind, proceeds_take, proceeds_pure]
      exact ⟨pushed _, remaining_advance_lt_of_headKind found (by decide)⟩
  · next found =>
      simp only [proceeds_bind, proceeds_take, proceeds_pure]
      have shorter := remaining_advance_lt_of_headKind found (by decide)
      exact (proceeds_nameOrCall consumes (by omega) id _).mono fun value _ facts =>
        ⟨pushed value, Nat.lt_of_le_of_lt facts.2 shorter⟩
  · next found =>
      simp only [proceeds_bind, proceeds_take, proceeds_expect, proceeds_pure]
      have shorter := remaining_advance_lt_of_headKind found (by decide)
      refine (consumes _ (by omega)).mono fun value behind within _ => ⟨pushed value, ?_⟩
      have advanced := behind.remaining_advance_le
      omega
  · next found =>
      simp only [proceeds_bind, proceeds_pure]
      exact (consumes_arrayLiteral consumes fits found id).mono fun value _ shorter =>
        ⟨pushed value, shorter⟩
  · exact proceeds_creation consumes fits awaiting id
  · simp

/-- An operator with the operand behind it keeps the stacks filled. -/
theorem proceeds_operatorRound (consumes : ConsumesInside nested limit)
    (fits : cursor.remaining ≤ limit) (filled : Filled state) :
    Proceeds (operatorRound nested state) cursor fun outcome behind =>
      match outcome with
      | .done _ => behind.remaining ≤ cursor.remaining
      | .again next => Filled next ∧ behind.remaining < cursor.remaining := by
  have same {behind further : Cursor} (contents : further.contents = behind.contents) :
      further.remaining = behind.remaining := by
    simp only [Cursor.remaining_eq, contents]
  simp only [operatorRound, proceeds_bind, proceeds_currentKind]
  split
  · next op found =>
      have weak : (StackedOperator.binary op).priority < .member :=
        Nat.lt_trans op.priority_lt_index (by decide)
      have shorter := remaining_advance_lt_of_headKind
        (BinaryOp.ofToken?_eq_some_iff.mp found) (by cases op <;> decide)
      simp only [proceeds_bind, proceeds_take, proceeds_pure]
      refine (filled.yields_pushOperator weak).proceeds.mono fun pushed behind facts => ?_
      have reached := same facts.2
      exact (proceeds_operand consumes (by omega) facts.1).mono fun next further read =>
        ⟨read.1, by omega⟩
  · split
    · next dot =>
        have shorter := remaining_advance_lt_of_headKind dot (by decide)
        simp only [proceeds_bind, proceeds_take, proceeds_pure]
        refine filled.yields_pushMember.proceeds.mono fun pushed behind facts => ?_
        have reached := same facts.2
        refine (proceeds_member consumes (by omega)).mono fun right further read => ?_
        rcases read with ⟨⟨called, part⟩, within⟩
        exact ⟨facts.1.pushOperand part, by omega⟩
    · split
      · next bracket =>
          have weak (close : Span) : (StackedOperator.index close).priority < .member :=
            show Priority.index < .member by decide
          have shorter := remaining_advance_lt_of_headKind bracket (by decide)
          simp only [proceeds_bind, proceeds_take, proceeds_expect, proceeds_pure]
          refine (filled.yields_reduce (by decide)).proceeds.mono fun reduced behind facts => ?_
          have reached := same facts.2
          refine (consumes behind (by omega)).mono fun inner further within closed => ?_
          have advanced := further.remaining_advance_le
          exact ⟨.settled ((facts.1.push (weak _)).pushOperand inner), by omega⟩
      · simp only [proceeds_bind, proceeds_pure]
        exact filled.yields_result.proceeds.mono fun _ _ contents => Nat.le_of_eq (same contents)

/-- One level of an expression leaves one operand and reads a token. -/
theorem consumes_exprLevel (consumes : ConsumesInside nested cursor.remaining) :
    Consumes (exprLevel nested) cursor := by
  rw [Consumes, exprLevel, proceeds_bind]
  refine (proceeds_operand consumes (Nat.le_refl _) Grammar.awaiting_empty).mono
    fun state first facts => ?_
  refine proceeds_rounds (fun state inner => Filled state ∧ inner.remaining < cursor.remaining)
    (fun state inner invariant => ?_) facts
  refine (proceeds_operatorRound consumes (Nat.le_of_lt invariant.2) invariant.1).mono
    fun outcome behind read => ?_
  cases outcome with
  | done result => exact Nat.lt_of_le_of_lt read invariant.2
  | again next => exact ⟨read.2, read.1, Nat.lt_trans read.2 invariant.2⟩

/-- An expression is read or the text is at fault, at every cursor. -/
theorem consumes_expr (cursor : Cursor) : Consumes expr cursor :=
  consumes_nesting (fun _ _ consumes => consumes_exprLevel consumes) cursor

end Expressions

end Parser
end KnightFront
