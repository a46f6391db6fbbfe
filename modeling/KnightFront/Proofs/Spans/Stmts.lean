import KnightFront.Proofs.Parse.ParsedStmt
import KnightFront.Proofs.Spans.Exprs

namespace KnightFront

/-!
# Spans of statements

The span of a statement contains those of the statements and expressions
directly inside it, and statements of one block stand one behind the other.
When this holds of every statement in a tree, containment holds at any depth.

The assignment at the head of a loop is counted as a statement here, and so is
the return that closes a body.
-/

/-- A return that closes a body, as a statement.  It has no identity of its
own. -/
def Return.stmt (returned : Return) : Stmt := .ret ⟨0, returned.span⟩ returned

namespace Stmt

/-- The span of a statement. -/
def span (stmt : Stmt) : Span := stmt.info.span

/-- The statements directly inside a statement. -/
def parts : Stmt → List Stmt
  | ifThen _ _ body => [body]
  | ifElse _ _ body alternative => [body, alternative]
  | whileLoop _ _ body => [body]
  | forLoop _ _ _ update body _ => [assign update, body]
  | block _ stmts _ => stmts
  | varDecl .. | assign _ | fieldAssign .. | call .. | ret .. => []

/-- The statements that stand one behind the other in a block. -/
def sequence : Stmt → List Stmt
  | block _ stmts _ => stmts
  | _ => []

mutual

/-- A statement and all statements inside it. -/
def statements : Stmt → List Stmt
  | stmt@(ifThen _ _ body) => stmt :: statements body
  | stmt@(ifElse _ _ body alternative) => stmt :: (statements body ++ statements alternative)
  | stmt@(whileLoop _ _ body) => stmt :: statements body
  | stmt@(forLoop _ _ _ update body _) => stmt :: assign update :: statements body
  | stmt@(block _ stmts _) => stmt :: statementsOfList stmts
  | stmt => [stmt]

/-- Several statements and all statements inside them. -/
def statementsOfList : List Stmt → List Stmt
  | [] => []
  | first :: rest => statements first ++ statementsOfList rest

end

theorem statementsOfList_eq_flatMap (stmts : List Stmt) :
    statementsOfList stmts = stmts.flatMap statements := by
  induction stmts with
  | nil => rfl
  | cons first rest inductionHypothesis => simp [statementsOfList, inductionHypothesis]

/-- A statement comes before those of its parts. -/
theorem statements_eq_cons (stmt : Stmt) :
    stmt.statements = stmt :: stmt.parts.flatMap statements := by
  cases stmt <;> simp [statements, parts, statementsOfList_eq_flatMap]

theorem exprsOfList_eq_flatMap (stmts : List Stmt) : exprsOfList stmts = stmts.flatMap exprs := by
  induction stmts with
  | nil => rfl
  | cons first rest inductionHypothesis => simp [exprsOfList, inductionHypothesis]

@[simp]
theorem ownExprs_varDecl (info : StmtInfo) (decl : VarDecl) :
    (varDecl info decl).ownExprs = decl.exprs := decl.map_snd_held

@[simp]
theorem ownExprs_assign (assignment : Assignment) :
    (assign assignment).ownExprs = assignment.exprs := assignment.map_snd_held

@[simp]
theorem ownExprs_ret (info : StmtInfo) (returned : Return) :
    (ret info returned).ownExprs = returned.exprs := returned.map_snd_held

@[simp]
theorem ownExprs_forLoop (info : StmtInfo) (init : VarDecl) (condition : Expr)
    (update : Assignment) (body : Stmt) (scope : Option ScopeId) :
    (forLoop info init condition update body scope).ownExprs =
      init.exprs ++ condition :: update.exprs := by
  simp [ownExprs, held, init.map_snd_held, update.map_snd_held]

/-- What a statement holds, it holds itself or one of its parts does. -/
theorem mem_ownExprs_or_parts {stmt : Stmt} {expr : Expr} (member : expr ∈ stmt.exprs) :
    expr ∈ stmt.ownExprs ∨ ∃ part ∈ stmt.parts, expr ∈ part.exprs := by
  cases stmt with
  | varDecl | assign | ret => exact .inl (by simpa [exprs] using member)
  | fieldAssign | call => exact .inl member
  | ifThen | ifElse | whileLoop => simpa [exprs, ownExprs, held, parts] using member
  | forLoop info init condition update body scope =>
      rw [exprs, ← List.cons_append, ← List.append_assoc, List.mem_append] at member
      rcases member with own | inside
      · exact .inl (by rwa [ownExprs_forLoop])
      · exact .inr ⟨body, by simp [parts], inside⟩
  | block => exact .inr (by simpa [exprs, parts, exprsOfList_eq_flatMap] using member)

/-- Every statement of a tree contains what is directly inside it, and those of
one block stand one behind the other. -/
inductive Nests : Stmt → Prop where
  | intro {stmt : Stmt} (ordered : stmt.span.Ordered)
      (held : ∀ expr ∈ stmt.ownExprs, expr.Within stmt.span.start stmt.span.finish)
      (contains : ∀ part ∈ stmt.parts, stmt.span.Contains part.span)
      (sequence : (stmt.sequence.map span).Pairwise Span.Before)
      (parts : ∀ part ∈ stmt.parts, part.Nests) : stmt.Nests

namespace Nests

variable {stmt inner : Stmt}

theorem ordered (nests : stmt.Nests) : stmt.span.Ordered := by
  cases nests
  assumption

theorem sequence_before (nests : stmt.Nests) :
    (stmt.sequence.map Stmt.span).Pairwise Span.Before := by
  cases nests
  assumption

/-- Everything inside a statement lies in its span, at any depth. -/
theorem of_mem_statements (nests : stmt.Nests) (member : inner ∈ stmt.statements) :
    inner.Nests ∧ stmt.span.Contains inner.span := by
  induction nests with
  | @intro stmt ordered held contains sequence parts inductionHypothesis =>
      rw [statements_eq_cons, List.mem_cons, List.mem_flatMap] at member
      rcases member with rfl | ⟨part, isPart, member⟩
      · exact ⟨.intro ordered held contains sequence parts, .refl _⟩
      · obtain ⟨innerNests, further⟩ := inductionHypothesis part isPart member
        exact ⟨innerNests, (contains part isPart).trans further⟩

/-- Every expression in a statement lies in its span, at any depth. -/
theorem within_of_mem_exprs (nests : stmt.Nests) {expr : Expr} (member : expr ∈ stmt.exprs) :
    expr.Within stmt.span.start stmt.span.finish := by
  induction nests with
  | @intro stmt ordered held contains sequence parts inductionHypothesis =>
      rcases mem_ownExprs_or_parts member with own | ⟨part, isPart, member⟩
      · exact held expr own
      · have within := inductionHypothesis part isPart member
        exact within.mono (contains part isPart).start_le (contains part isPart).finish_le

end Nests
end Stmt

/-!
## Statements that have been read

A statement that has been read takes up the text from the start of its first
token to the end of its last one.  Whatever it holds has been read in between,
and in a block every statement begins where the one before it has ended, or
behind.
-/

namespace Stmt

/-- A statement between two places, with everything in it where it belongs. -/
structure Inside (low high : Position) (stmt : Stmt) : Prop where
  nests : stmt.Nests
  between : stmt.span.Between low high

/-- A statement that takes up the text between two places, with everything in it
where it belongs. -/
structure Spans (low high : Position) (stmt : Stmt) : Prop where
  span_eq : stmt.span = ⟨low, high⟩
  nests : stmt.Nests

variable {low lower high higher : Position} {stmt : Stmt}

theorem Inside.mono (inside : stmt.Inside low high) (low_le : lower ≤ low)
    (le_high : high ≤ higher) : stmt.Inside lower higher :=
  ⟨inside.nests, inside.between.mono low_le le_high⟩

namespace Spans

theorem inside (spans : stmt.Spans low high) : stmt.Inside low high := by
  refine ⟨spans.nests, ?_, spans.nests.ordered, ?_⟩ <;> rw [spans.span_eq]

theorem low_le_high (spans : stmt.Spans low high) : low ≤ high :=
  spans.inside.between.low_le_high

/-- A statement takes up the text between two places if all that is directly
inside it lies there. -/
theorem of_inside (span_eq : stmt.span = ⟨low, high⟩) (le : low ≤ high)
    (held : ∀ expr ∈ stmt.ownExprs, expr.Within low high)
    (parts : ∀ part ∈ stmt.parts, part.Inside low high)
    (sequence : (stmt.sequence.map span).Pairwise Span.Before) : stmt.Spans low high := by
  refine ⟨span_eq, .intro ?_ ?_ (fun part isPart => ?_) sequence fun part isPart =>
    (parts part isPart).nests⟩
  · rw [span_eq]
    exact le
  · rw [span_eq]
    exact held
  · rw [span_eq]
    exact ⟨(parts part isPart).between.low_le, (parts part isPart).between.le_high⟩

/-- A part of what is read lies inside the whole. -/
theorem widen {outer inner between behind : Cursor}
    (spans : stmt.Spans inner.current.span.start between.previousEnd)
    (before : outer.Reaches inner) (after : between.Reaches behind) :
    stmt.Inside outer.current.span.start behind.previousEnd :=
  spans.inside.mono before.start_le after.previousEnd_le

end Spans
end Stmt

theorem Cursor.Reaches.start_le_advance {cursor behind : Cursor} (reaches : cursor.Reaches behind) :
    cursor.current.span.start ≤ behind.advance.previousEnd :=
  reaches.start_le.trans reaches.ordered.start_le_advance

theorem Cursor.Reaches.next {cursor behind : Cursor} (reaches : cursor.Reaches behind) :
    cursor.Reaches behind.advance :=
  reaches.trans reaches.ordered.reaches_advance

/-- Statements that have been read since a cursor, the last one first. -/
structure Stmt.Collected (start : Cursor) (collected : List Stmt) (inner : Cursor) : Prop where
  reaches : start.Reaches inner
  inside : ∀ stmt ∈ collected, stmt.Inside start.current.span.start inner.previousEnd
  before : (collected.map span).Pairwise fun later earlier => earlier.Before later

namespace Stmt.Collected

variable {start inner behind : Cursor} {collected : List Stmt} {stmt : Stmt}

theorem nil (reaches : start.Reaches inner) : Collected start [] inner :=
  ⟨reaches, by simp, .nil⟩

theorem cons (held : Collected start collected inner) (reaches : inner.Reaches behind)
    (spans : stmt.Spans inner.current.span.start behind.previousEnd) :
    Collected start (stmt :: collected) behind := by
  refine ⟨held.reaches.trans reaches, List.forall_mem_cons.mpr
    ⟨spans.widen held.reaches reaches.ordered.reaches, fun earlier member =>
      (held.inside earlier member).mono (le_refl _) reaches.previousEnd_le⟩, ?_⟩
  rw [List.map_cons, List.pairwise_cons, List.forall_mem_map]
  refine ⟨fun earlier member => ?_, held.before⟩
  rw [Span.Before, spans.span_eq]
  exact (held.inside earlier member).between.le_high.trans held.reaches.ordered.previousEnd_le

theorem nests (held : Collected start collected inner) :
    ∀ stmt ∈ collected, stmt.Nests :=
  fun stmt member => (held.inside stmt member).nests

/-- In the order of the text each statement stands before the next. -/
theorem before_reverse (held : Collected start collected inner) :
    (collected.reverse.map span).Pairwise Span.Before := by
  rw [List.map_reverse, List.pairwise_reverse]
  exact held.before

end Stmt.Collected

namespace Parser

variable {cursor : Cursor}

/-! ## Declarations, assignments and returns -/

/-- The initial value of a declaration lies within the declaration. -/
theorem fits_varDecl :
    Fits (fun low high decl => low ≤ high ∧ ∀ expr ∈ decl.exprs, expr.Within low high) varDecl := by
  intro cursor ordered
  simp only [varDecl, ensures_bind]
  refine (compositional_moves.typeName cursor ordered).mono ?_
  rintro found between ⟨reaches, -⟩
  simp only [ensures_expect, ensures_currentKind]
  intro _
  split
  · simp only [ensures_bind, ensures_take, ensures_pure, ensures_expect]
    have front := reaches.next.next
    refine (fits_expr _ front.ordered).mono ?_
    rintro init behind ⟨inner, within⟩ -
    have all := front.trans inner
    refine ⟨all.next, all.start_le_advance, ?_⟩
    simpa [VarDecl.exprs] using within.widen front inner.ordered.reaches_advance
  · simp only [ensures_bind, ensures_pure, ensures_expect]
    intro _
    exact ⟨reaches.next.next, reaches.next.start_le_advance, by simp [VarDecl.exprs]⟩

/-- The index and the value of an assignment lie within the assignment. -/
theorem fits_assignment :
    Fits (fun low high found => low ≤ high ∧ found.info.span = ⟨low, high⟩ ∧
      ∀ expr ∈ found.exprs, expr.Within low high) assignment := by
  refine Fits.begin fun id cursor ordered => ?_
  have name := ordered.reaches.next
  -- Behind the sign of the assignment only the value is left.
  have closing {index : Option Expr} {start behind : Cursor} {value : Expr}
      (front : cursor.Reaches start)
      (indexWithin : ∀ expr ∈ index.toList,
        expr.Within cursor.current.span.start start.previousEnd)
      (reaches : start.advance.Reaches behind)
      (within : value.Within start.advance.current.span.start behind.previousEnd) :
      cursor.Reaches behind ∧ cursor.current.span.start ≤ behind.previousEnd ∧ True ∧
        ∀ expr ∈ index.toList ++ [value],
          expr.Within cursor.current.span.start behind.previousEnd := by
    have all := front.next.trans reaches
    refine ⟨all, front.start_le_advance.trans reaches.previousEnd_le, trivial, ?_⟩
    rw [List.forall_mem_append, List.forall_mem_singleton]
    refine ⟨fun expr member => ?_, within.widen front.next reaches.ordered.reaches⟩
    exact (indexWithin expr member).widen ordered.reaches
      (front.ordered.reaches_advance.trans reaches)
  simp only [ensures_bind, ensures_expect, ensures_currentKind]
  intro _
  split
  · simp only [ensures_bind, ensures_take, ensures_expect, ensures_pure, ensures_spanFrom]
    have opening := name.next
    refine (fits_expr _ opening.ordered).mono ?_
    rintro index between ⟨inner, indexWithin⟩ - -
    have front := (opening.trans inner).next
    refine (fits_expr _ front.next.ordered).mono ?_
    rintro value behind ⟨reaches, within⟩
    refine closing front ?_ reaches within
    simpa using indexWithin.widen opening inner.ordered.reaches_advance
  · simp only [ensures_bind, ensures_expect, ensures_pure, ensures_spanFrom]
    intro _
    refine (fits_expr _ name.next.ordered).mono ?_
    rintro value behind ⟨reaches, within⟩
    exact closing name (by simp) reaches within

/-- A return begins with its keyword and ends with its semicolon. -/
theorem fits_returnClause :
    Fits (fun low high found => low ≤ high ∧ found.span = ⟨low, high⟩ ∧
      ∀ expr ∈ found.exprs, expr.Within low high) returnClause := by
  intro cursor ordered
  have keyword := ordered.reaches.next
  simp only [returnClause, ensures_bind, ensures_expect, ensures_currentKind]
  intro _
  split
  · simp only [ensures_bind, ensures_pure, ensures_expect, ensures_spanFrom]
    intro _
    exact ⟨keyword.next, keyword.start_le_advance, trivial, by simp [Return.exprs]⟩
  · simp only [ensures_bind, ensures_pure, ensures_expect, ensures_spanFrom]
    refine (fits_expr _ keyword.ordered).mono ?_
    rintro value behind ⟨reaches, within⟩ -
    have all := keyword.trans reaches
    refine ⟨all.next, all.start_le_advance, trivial, ?_⟩
    simpa [Return.exprs] using within.widen keyword reaches.ordered.reaches_advance

/-- A condition lies between its parentheses. -/
theorem fits_condition : Fits Expr.Within condition := by
  intro cursor ordered
  have opening := ordered.reaches.next
  simp only [condition, ensures_bind, ensures_expect, ensures_pure]
  intro _
  refine (fits_expr _ opening.ordered).mono ?_
  rintro value behind ⟨reaches, within⟩ -
  exact ⟨(opening.trans reaches).next, within.widen opening reaches.ordered.reaches_advance⟩

/-- A return as a statement takes up what the return does. -/
theorem fits_returnClause_stmt :
    Fits (fun low high returned => ∀ id, (Stmt.ret ⟨id, returned.span⟩ returned).Spans low high)
      returnClause := by
  intro cursor ordered
  refine (fits_returnClause cursor ordered).mono ?_
  rintro returned behind ⟨reaches, le, same, within⟩
  exact ⟨reaches, fun id =>
    .of_inside same le (by simpa using within) (by simp [Stmt.parts]) .nil⟩

theorem fits_returnStmt : Fits Stmt.Spans returnStmt := by
  refine .fresh fun id cursor ordered => ?_
  simp only [ensures_bind, ensures_pure]
  exact (fits_returnClause_stmt cursor ordered).mono fun returned behind facts =>
    ⟨facts.1, facts.2 id⟩

section Statements

variable {nested : Parser Stmt} (fits : Fits Stmt.Spans nested)

include fits

theorem Fits.ifStmt : Fits Stmt.Spans (ifStmt nested) := by
  refine .begin fun id cursor ordered => ?_
  have word := ordered.reaches.next
  simp only [ensures_bind, ensures_expect]
  intro _
  refine (fits_condition _ word.ordered).mono ?_
  rintro tested start ⟨tests, within⟩
  have front := word.trans tests
  refine (fits start front.ordered).mono ?_
  rintro body between ⟨inner, bodySpans⟩
  have middle := front.trans inner
  simp only [ensures_currentKind]
  split
  · simp only [ensures_bind, ensures_take]
    refine (fits _ middle.next.ordered).mono ?_
    rintro alternative behind ⟨last, spans⟩
    have after := middle.ordered.reaches_advance.trans last
    simp only [ensures_spanFrom, ensures_pure]
    refine ⟨middle.trans after, .of_inside rfl ?_ ?_ ?_ .nil⟩
    · exact middle.next.start_le.trans spans.low_le_high
    · simpa [Stmt.ownExprs, Stmt.held] using within.widen word (inner.trans after)
    · simpa [Stmt.parts] using
        And.intro (bodySpans.widen front after) (spans.widen middle.next last.ordered.reaches)
  · simp only [ensures_bind, ensures_spanFrom, ensures_pure]
    refine ⟨middle, .of_inside rfl (front.start_le.trans bodySpans.low_le_high) ?_ ?_ .nil⟩
    · simpa [Stmt.ownExprs, Stmt.held] using within.widen word inner
    · simpa [Stmt.parts] using bodySpans.widen front inner.ordered.reaches

theorem Fits.whileStmt : Fits Stmt.Spans (whileStmt nested) := by
  refine .begin fun id cursor ordered => ?_
  have word := ordered.reaches.next
  simp only [ensures_bind, ensures_expect]
  intro _
  refine (fits_condition _ word.ordered).mono ?_
  rintro tested start ⟨tests, within⟩
  have front := word.trans tests
  refine (fits start front.ordered).mono ?_
  rintro body behind ⟨inner, bodySpans⟩
  simp only [ensures_spanFrom, ensures_pure]
  refine ⟨front.trans inner, .of_inside rfl (front.start_le.trans bodySpans.low_le_high) ?_ ?_ .nil⟩
  · simpa [Stmt.ownExprs, Stmt.held] using within.widen word inner
  · simpa [Stmt.parts] using bodySpans.widen front inner.ordered.reaches

theorem Fits.forStmt : Fits Stmt.Spans (forStmt nested) := by
  refine .begin fun id cursor ordered => ?_
  have opening := ordered.reaches.next.next
  simp only [ensures_bind, ensures_expect]
  intro _ _
  refine (ensures_startsDeclaration _).mono fun declares opened same => ?_
  subst same
  split
  · simp
  simp only [ensures_bind]
  refine (fits_varDecl _ opening.ordered).mono ?_
  rintro init start ⟨first, -, initWithin⟩
  have front := opening.trans first
  refine (fits_expr _ front.ordered).mono ?_
  rintro tested between ⟨second, testedWithin⟩
  simp only [ensures_expect, ensures_currentKind]
  intro _
  have middle := front.trans second
  split
  · simp
  simp only [ensures_bind]
  refine (fits_assignment _ middle.next.ordered).mono ?_
  rintro update last ⟨third, le, same, updateWithin⟩
  simp only [ensures_expect]
  intro _
  have head := middle.next.trans third
  refine (fits _ head.next.ordered).mono ?_
  rintro body behind ⟨fourth, bodySpans⟩
  simp only [ensures_spanFrom, ensures_pure]
  -- What has been read of the head lies in front of the rest.
  have afterHead := head.ordered.reaches.next.trans fourth
  have afterTested := (second.ordered.reaches.next.trans third).trans afterHead
  have updateSpans : (Stmt.assign update).Spans _ _ :=
    .of_inside same le (by simpa using updateWithin) (by simp [Stmt.parts]) .nil
  refine ⟨head.trans afterHead,
    .of_inside rfl (head.next.start_le.trans bodySpans.low_le_high) ?_ ?_ .nil⟩
  · simp only [Stmt.ownExprs_forLoop, List.forall_mem_append, List.forall_mem_cons]
    exact ⟨fun expr member => (initWithin expr member).widen opening (second.trans afterTested),
      testedWithin.widen front afterTested,
      fun expr member => (updateWithin expr member).widen middle.next afterHead⟩
  · simp only [Stmt.parts, List.forall_mem_cons]
    exact ⟨updateSpans.widen middle.next afterHead,
      bodySpans.widen head.next fourth.ordered.reaches, by simp⟩

omit fits in
theorem fits_nameStmt : Fits Stmt.Spans nameStmt := by
  intro cursor ordered
  simp only [nameStmt, ensures_bind, ensures_nextKind]
  split
  · simp only [ensures_bind]
    refine (fits_assignment cursor ordered).mono ?_
    rintro assigned behind ⟨reaches, le, same, within⟩
    simp only [ensures_expect, ensures_spanFrom, ensures_pure]
    intro _
    have closing := reaches.ordered.reaches_advance
    refine ⟨reaches.next, .of_inside ?_ (le.trans closing.previousEnd_le) ?_ ?_ .nil⟩
    · simp [Stmt.span, Stmt.info, same]
    · simpa [Assignment.exprs] using fun expr member =>
        (within expr member).widen ordered.reaches closing
    · simp [Stmt.parts]
  · refine Fits.begin (fun id cursor ordered => ?_) cursor ordered
    simp only [ensures_bind]
    refine (fits_expr cursor ordered).mono ?_
    rintro first between ⟨reaches, firstWithin⟩
    simp only [ensures_currentKind]
    split
    · split
      · next receiver used =>
          have receiverWithin : receiver.Within _ _ :=
            (Expr.within_iff.mp firstWithin).2 receiver (by simp [Expr.parts])
          simp only [ensures_bind, ensures_take]
          refine (fits_expr _ reaches.next.ordered).mono ?_
          rintro value behind ⟨inner, within⟩
          simp only [ensures_expect, ensures_spanFrom, ensures_pure]
          intro _
          have all := reaches.next.trans inner
          refine ⟨all.next, .of_inside rfl all.start_le_advance ?_ (by simp [Stmt.parts]) .nil⟩
          have after := (reaches.ordered.reaches_advance.trans inner).next
          simpa [Stmt.ownExprs, Stmt.held] using
            And.intro (receiverWithin.widen ordered.reaches after)
              (within.widen reaches.next inner.ordered.reaches.next)
      · simp
    · split
      · simp only [ensures_bind, ensures_expect, ensures_spanFrom, ensures_pure]
        intro _
        refine ⟨reaches.next,
          .of_inside rfl reaches.start_le_advance ?_ (by simp [Stmt.parts]) .nil⟩
        simpa [Stmt.ownExprs, Stmt.held] using
          firstWithin.widen ordered.reaches reaches.ordered.reaches.next
      · simp

theorem Fits.bodyItem : Fits Stmt.Spans (bodyItem nested) := by
  intro cursor ordered
  simp only [Parser.bodyItem, ensures_bind]
  refine (ensures_startsDeclaration cursor).mono fun declares same equal => ?_
  subst equal
  split
  · refine Fits.begin (fun id cursor ordered => ?_) _ ordered
    simp only [ensures_bind]
    refine (fits_varDecl cursor ordered).mono ?_
    rintro decl behind ⟨reaches, le, within⟩
    simp only [ensures_spanFrom, ensures_pure]
    exact ⟨reaches, .of_inside rfl le (by simpa using within) (by simp [Stmt.parts]) .nil⟩
  · exact fits _ ordered

theorem Fits.blockStmt : Fits Stmt.Spans (blockStmt nested) := by
  refine .begin fun id cursor ordered => ?_
  have opening := ordered.reaches.next
  simp only [ensures_bind, ensures_expect]
  intro _
  refine ensures_rounds (Stmt.Collected cursor) ?_ (.nil opening)
  intro collected inner held
  simp only [ensures_bind, ensures_currentKind]
  split
  · simp only [ensures_pure, ensures_spanFrom]
    intro _
    have closing := held.reaches.ordered.reaches_advance
    refine ⟨held.reaches.next, .of_inside rfl held.reaches.start_le_advance
      (by simp [Stmt.ownExprs, Stmt.held]) (fun stmt member => ?_) held.before_reverse⟩
    exact (held.inside stmt (List.mem_reverse.mp member)).mono (le_refl _) closing.previousEnd_le
  · simp
  · simp only [ensures_bind, ensures_pure]
    exact (fits.bodyItem inner held.reaches.ordered).mono fun stmt behind facts =>
      held.cons facts.1 facts.2

theorem Fits.stmtLevel : Fits Stmt.Spans (stmtLevel nested) := by
  intro cursor ordered
  simp only [Parser.stmtLevel, ensures_bind, ensures_currentKind]
  split
  · exact fits.ifStmt cursor ordered
  · exact fits.whileStmt cursor ordered
  · exact fits.forStmt cursor ordered
  · exact fits_returnStmt cursor ordered
  · exact fits.blockStmt cursor ordered
  · exact fits_nameStmt cursor ordered
  · simp

end Statements

/-- A statement takes up the text from its first token to its last one, and all
that is inside is where it belongs. -/
theorem fits_stmt : Fits Stmt.Spans stmt := .nesting fun _ fits => fits.stmtLevel

end Parser

end KnightFront
