import KnightFront.Parse.Stmt
import KnightFront.Proofs.Parse.ParsedExpr
import KnightFront.Proofs.Parse.ParsedPath

namespace KnightFront

/-!
# What a statement reader returns

A statement that is read from lexed tokens can be written by source text.  If
it ends in a condition without an alternative, no alternative follows: the
reader would have taken it.
-/

open KnightFront.Parser (Ensures)

variable {cursor : Cursor}

namespace Parser

theorem ensures_typeName (lexed : cursor.Lexed) :
    Ensures typeName cursor fun found behind => found.1.Written ∧ behind.Lexed := by
  have suffix (element : ElementTy) :
      Ensures (arraySuffix element) cursor.advance fun ty behind => ty.Written ∧ behind.Lexed := by
    simp only [arraySuffix, ensures_bind, ensures_currentKind]
    split
    · simp only [ensures_bind, ensures_take, ensures_expect, ensures_pure]
      exact fun _ => ⟨trivial, lexed.advance.advance.advance⟩
    · cases element <;> simpa [ElementTy.ty, Ty.Written] using lexed.advance
  simp only [typeName, ensures_bind, ensures_position, ensures_currentKind]
  split
  · simp only [ensures_bind, ensures_take]
    exact (suffix .int).mono fun ty behind facts => by simpa using facts
  · simp only [ensures_bind, ensures_take]
    exact (suffix .string).mono fun ty behind facts => by simpa using facts
  · simpa [Ty.Written] using lexed.advance
  · simpa [Ty.Written] using lexed.advance
  · next kind => simpa [Ty.Written] using ⟨lexed.isIdentifier kind, lexed.advance⟩
  · simp

/-- Looking for a declaration reads nothing. -/
theorem ensures_startsDeclaration (cursor : Cursor) :
    Ensures startsDeclaration cursor fun _ behind => behind = cursor := by
  simp only [startsDeclaration, ensures_bind, ensures_currentKind]
  split <;> simp

theorem ensures_varDecl (lexed : cursor.Lexed) :
    Ensures varDecl cursor fun decl behind => decl.Written ∧ behind.Lexed := by
  simp only [varDecl, ensures_bind]
  refine (ensures_typeName lexed).mono fun found behind facts => ?_
  rcases facts with ⟨typed, behindLexed⟩
  simp only [ensures_expect, ensures_currentKind]
  intro kind
  have name := behindLexed.isIdentifier kind
  split
  · simp only [ensures_bind, ensures_take]
    refine (ensures_expr_written _ behindLexed.advance.advance).mono fun init further inner => ?_
    simp only [ensures_pure, ensures_expect]
    intro _
    exact ⟨⟨typed, name, by simpa [VarDecl.exprs] using inner.1⟩, inner.2.advance⟩
  · simp only [ensures_bind, ensures_pure, ensures_expect]
    intro _
    exact ⟨⟨typed, name, by simp [VarDecl.exprs]⟩, behindLexed.advance.advance⟩

theorem ensures_assignment (lexed : cursor.Lexed) :
    Ensures assignment cursor fun found behind => found.Written ∧ behind.Lexed := by
  have lexedNext : Cursor.Lexed { cursor with nextId := cursor.nextId + 1 } := lexed
  simp only [assignment, ensures_bind, ensures_position, ensures_freshId, ensures_expect,
    ensures_currentKind, Cursor.contents_withNextId]
  intro kind
  have name : IsIdentifier cursor.current.value := lexed.isIdentifier kind
  split
  · simp only [ensures_bind, ensures_take]
    refine (ensures_expr_written _ lexedNext.advance.advance).mono fun index behind facts => ?_
    rcases facts with ⟨indexWritten, behindLexed⟩
    simp only [ensures_expect, ensures_pure]
    intro _ _
    refine (ensures_expr_written _ behindLexed.advance.advance).mono fun value further inner => ?_
    simp only [ensures_spanFrom]
    exact ⟨⟨⟨name, rfl⟩, by simpa [Assignment.exprs] using ⟨indexWritten, inner.1⟩⟩, inner.2⟩
  · simp only [ensures_bind, ensures_pure, ensures_expect]
    intro _
    refine (ensures_expr_written _ lexedNext.advance.advance).mono fun value further inner => ?_
    simp only [ensures_spanFrom]
    exact ⟨⟨⟨name, rfl⟩, by simpa [Assignment.exprs] using inner.1⟩, inner.2⟩

theorem ensures_returnClause (lexed : cursor.Lexed) :
    Ensures returnClause cursor fun returned behind => returned.Written ∧ behind.Lexed := by
  simp only [returnClause, ensures_bind, ensures_expect, ensures_currentKind]
  intro _
  split
  · simp only [ensures_bind, ensures_pure, ensures_expect, ensures_spanFrom]
    intro _
    exact ⟨by simp [Return.Written, Return.exprs], lexed.advance.advance⟩
  · simp only [ensures_bind]
    refine (ensures_expr_written _ lexed.advance).mono fun value behind facts => ?_
    simp only [ensures_pure, ensures_expect, ensures_spanFrom]
    intro _
    exact ⟨by simpa [Return.Written, Return.exprs] using facts.1, facts.2.advance⟩

theorem ensures_condition (lexed : cursor.Lexed) :
    Ensures condition cursor fun tested behind => tested.Written ∧ behind.Lexed := by
  simp only [condition, ensures_bind, ensures_expect]
  intro _
  refine (ensures_expr_written _ lexed.advance).mono fun tested behind facts => ?_
  simp only [ensures_pure]
  intro _
  exact ⟨facts.1, facts.2.advance⟩

/-- What a statement reader returns from a cursor, and where it stops. -/
structure StmtRead (start : Cursor) (stmt : Stmt) (behind : Cursor) : Prop where
  written : stmt.Written
  isVarDecl : stmt.isVarDecl = false
  isRet : headKind start.contents ≠ .retWord → stmt.isRet = false
  lexed : behind.Lexed
  /-- The reader would have taken an alternative. -/
  apart : stmt.takesElse = true → headKind behind.contents ≠ .elseWord

/-- A reader of statements returns written ones. -/
def ReturnsStmts (nested : Parser Stmt) : Prop :=
  ∀ inner, inner.Lexed → Ensures nested inner (StmtRead inner)

variable {nested : Parser Stmt}

theorem ensures_ifStmt (nestedReads : ReturnsStmts nested) (lexed : cursor.Lexed) :
    Ensures (ifStmt nested) cursor (StmtRead cursor) := by
  have lexedNext : Cursor.Lexed { cursor with nextId := cursor.nextId + 1 } := lexed
  simp only [ifStmt, ensures_bind, ensures_position, ensures_freshId, ensures_expect]
  intro _
  refine (ensures_condition lexedNext.advance).mono fun tested behind facts => ?_
  rcases facts with ⟨testedWritten, behindLexed⟩
  refine (nestedReads behind behindLexed).mono fun body further facts => ?_
  rcases facts with ⟨bodyWritten, plain, -, furtherLexed, apart⟩
  simp only [ensures_currentKind]
  split
  · next kind =>
      have closed : body.takesElse = false := by
        cases takes : body.takesElse with
        | false => rfl
        | true => exact absurd kind (apart takes)
      simp only [ensures_bind, ensures_take]
      refine (nestedReads _ furtherLexed.advance).mono fun alternative last facts => ?_
      rcases facts with ⟨alternativeWritten, plainToo, -, lastLexed, apartToo⟩
      simp only [ensures_spanFrom, ensures_pure]
      exact ⟨⟨testedWritten, bodyWritten, alternativeWritten, plain, plainToo, closed⟩, rfl,
        fun _ => rfl, lastLexed, apartToo⟩
  · next kind =>
      simp only [ensures_bind, ensures_spanFrom, ensures_pure]
      exact ⟨⟨testedWritten, bodyWritten, plain⟩, rfl, fun _ => rfl, furtherLexed, fun _ => kind⟩

theorem ensures_whileStmt (nestedReads : ReturnsStmts nested) (lexed : cursor.Lexed) :
    Ensures (whileStmt nested) cursor (StmtRead cursor) := by
  have lexedNext : Cursor.Lexed { cursor with nextId := cursor.nextId + 1 } := lexed
  simp only [whileStmt, ensures_bind, ensures_position, ensures_freshId, ensures_expect]
  intro _
  refine (ensures_condition lexedNext.advance).mono fun tested behind facts => ?_
  rcases facts with ⟨testedWritten, behindLexed⟩
  refine (nestedReads behind behindLexed).mono fun body further facts => ?_
  rcases facts with ⟨bodyWritten, plain, -, furtherLexed, apart⟩
  simp only [ensures_spanFrom, ensures_pure]
  exact ⟨⟨testedWritten, bodyWritten, plain⟩, rfl, fun _ => rfl, furtherLexed, apart⟩

theorem ensures_forStmt (nestedReads : ReturnsStmts nested) (lexed : cursor.Lexed) :
    Ensures (forStmt nested) cursor (StmtRead cursor) := by
  have lexedNext : Cursor.Lexed { cursor with nextId := cursor.nextId + 1 } := lexed
  simp only [forStmt, ensures_bind, ensures_position, ensures_freshId, ensures_expect]
  intro _ _
  refine (ensures_startsDeclaration _).mono fun declares inner same => ?_
  subst same
  split
  · simp
  · simp only [ensures_bind]
    refine (ensures_varDecl lexedNext.advance.advance).mono fun init behind facts => ?_
    rcases facts with ⟨initWritten, behindLexed⟩
    refine (ensures_expr_written _ behindLexed).mono fun tested further facts => ?_
    rcases facts with ⟨testedWritten, furtherLexed⟩
    simp only [ensures_expect, ensures_currentKind]
    intro _
    split
    · simp
    · simp only [ensures_bind]
      refine (ensures_assignment furtherLexed.advance).mono fun update last facts => ?_
      rcases facts with ⟨updateWritten, lastLexed⟩
      simp only [ensures_expect]
      intro _
      refine (nestedReads _ lastLexed.advance).mono fun body final facts => ?_
      rcases facts with ⟨bodyWritten, plain, -, finalLexed, apart⟩
      simp only [ensures_spanFrom, ensures_pure]
      exact ⟨⟨initWritten, testedWritten, updateWritten, bodyWritten, plain⟩, rfl,
        fun _ => rfl, finalLexed, apart⟩

theorem ensures_nameStmt (lexed : cursor.Lexed) (kind : headKind cursor.contents = .identifier) :
    Ensures nameStmt cursor (StmtRead cursor) := by
  have lexedNext : Cursor.Lexed { cursor with nextId := cursor.nextId + 1 } := lexed
  simp only [nameStmt, ensures_bind, ensures_nextKind]
  split
  · simp only [ensures_bind]
    refine (ensures_assignment lexed).mono fun assigned behind facts => ?_
    simp only [ensures_expect, ensures_spanFrom, ensures_pure]
    intro _
    exact ⟨⟨facts.1.target, facts.1.exprs⟩, rfl, fun _ => rfl, facts.2.advance,
      fun takes => by cases takes⟩
  · simp only [ensures_bind, ensures_position, ensures_freshId]
    refine ((ensures_expr_written _ lexedNext).and
      (ensures_expr_of_identifier kind)).mono fun first behind facts => ?_
    rcases facts with ⟨⟨firstWritten, behindLexed⟩, leads⟩
    simp only [ensures_currentKind]
    split
    · split
      · next info receiver used =>
          have path : receiver.isPath = true := by
            simpa [Expr.isPath, Expr.isOpen] using leads
          rw [Expr.written_field] at firstWritten
          simp only [ensures_bind, ensures_take]
          refine (ensures_expr_written _ behindLexed.advance).mono fun value further inner => ?_
          simp only [ensures_expect, ensures_spanFrom, ensures_pure]
          intro _
          exact ⟨⟨firstWritten.2, path, firstWritten.1, inner.1⟩, rfl, fun _ => rfl,
            inner.2.advance, fun takes => by cases takes⟩
      · simp
    · split
      · next call =>
          have path : first.isPath = true := by
            cases first with
            | call => rfl
            | methodCall => simpa [Expr.isOpen] using leads
            | _ => cases call
          simp only [ensures_bind, ensures_expect, ensures_spanFrom, ensures_pure]
          intro _
          exact ⟨⟨firstWritten, call, path⟩, rfl, fun _ => rfl, behindLexed.advance,
            fun takes => by cases takes⟩
      · simp

theorem ensures_bodyItem (nestedReads : ReturnsStmts nested) (lexed : cursor.Lexed) :
    Ensures (bodyItem nested) cursor fun stmt behind =>
      stmt.Written ∧ (headKind cursor.contents ≠ .retWord → stmt.isRet = false) ∧ behind.Lexed := by
  simp only [bodyItem, ensures_bind]
  refine (ensures_startsDeclaration cursor).mono fun declares inner same => ?_
  subst same
  split
  · have lexedNext : Cursor.Lexed { inner with nextId := inner.nextId + 1 } := lexed
    simp only [ensures_bind, ensures_position, ensures_freshId]
    refine (ensures_varDecl lexedNext).mono fun decl behind facts => ?_
    simp only [ensures_spanFrom, ensures_pure]
    exact ⟨facts.1, fun _ => rfl, facts.2⟩
  · exact (nestedReads _ lexed).mono fun stmt behind facts =>
      ⟨facts.written, facts.isRet, facts.lexed⟩

theorem ensures_blockStmt (nestedReads : ReturnsStmts nested) (lexed : cursor.Lexed) :
    Ensures (blockStmt nested) cursor (StmtRead cursor) := by
  have lexedNext : Cursor.Lexed { cursor with nextId := cursor.nextId + 1 } := lexed
  simp only [blockStmt, ensures_bind, ensures_position, ensures_freshId, ensures_expect]
  intro _
  refine ensures_rounds
    (fun collected inner => (∀ stmt ∈ collected, Stmt.Written stmt) ∧ inner.Lexed) ?_
    ⟨by simp, lexedNext.advance⟩
  rintro collected inner ⟨held, innerLexed⟩
  simp only [ensures_bind, ensures_currentKind]
  split
  · simp only [ensures_pure, ensures_spanFrom]
    intro _
    refine ⟨Stmt.writtenList_iff.mpr ?_, rfl, fun _ => rfl, innerLexed.advance,
      fun takes => by cases takes⟩
    simpa using held
  · simp
  · simp only [ensures_bind, ensures_pure]
    refine (ensures_bodyItem nestedReads innerLexed).mono fun stmt further facts => ?_
    exact ⟨List.forall_mem_cons.mpr ⟨facts.1, held⟩, facts.2.2⟩

theorem ensures_stmtLevel (nestedReads : ReturnsStmts nested) (lexed : cursor.Lexed) :
    Ensures (stmtLevel nested) cursor (StmtRead cursor) := by
  simp only [stmtLevel, ensures_bind, ensures_currentKind]
  split
  · exact ensures_ifStmt nestedReads lexed
  · exact ensures_whileStmt nestedReads lexed
  · exact ensures_forStmt nestedReads lexed
  · next kind =>
      have lexedNext : Cursor.Lexed { cursor with nextId := cursor.nextId + 1 } := lexed
      simp only [returnStmt, ensures_bind, ensures_freshId, ensures_pure]
      refine (ensures_returnClause lexedNext).mono fun returned behind facts => ?_
      exact ⟨facts.1, rfl, fun other => absurd kind other, facts.2, fun takes => by cases takes⟩
  · exact ensures_blockStmt nestedReads lexed
  · next kind => exact ensures_nameStmt lexed kind
  · simp

/-- Every statement that is read can be written. -/
theorem ensures_stmt : ReturnsStmts stmt := by
  intro cursor lexed
  exact ensures_nesting Cursor.Lexed StmtRead
    (fun nested nestedReads inner innerLexed => ensures_stmtLevel nestedReads innerLexed)
    cursor lexed

end Parser
end KnightFront
