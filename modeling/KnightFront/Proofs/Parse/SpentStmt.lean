import KnightFront.Parse.Stmt
import KnightFront.Proofs.Parse.ParsedStmt
import KnightFront.Proofs.Parse.SpentExpr

namespace KnightFront

/-!
# Tokens spent on statements

What a statement declares and mentions are tokens that have been read for it, each
of them once.  The expressions in it are anchored.
-/

namespace Parser

variable {place : Position} {cursor : Cursor}

/-- What a statement declares and mentions. -/
def stmtMarks (stmt : Stmt) : List Position := stmtPlaces stmt ++ stmt.mentions

/-- The expressions in a statement are anchored. -/
def AnchoredStmt (stmt : Stmt) : Prop := ∀ expr ∈ stmt.exprs, expr.Anchored

/-- What statements declare and mention. -/
def stmtsMarks (stmts : List Stmt) : List Position :=
  stmts.flatMap stmtPlaces ++ Stmt.mentionsOfList stmts

theorem count_stmtsMarks (place : Position) (stmts : List Stmt) :
    (stmtsMarks stmts).count place = (stmts.flatMap stmtMarks).count place := by
  induction stmts with
  | nil => rfl
  | cons first rest inductionHypothesis =>
      simp only [stmtsMarks, stmtMarks, Stmt.mentionsOfList, List.flatMap_cons, List.count_append]
        at inductionHypothesis ⊢
      omega

theorem anchored_exprsOfList {stmts : List Stmt} :
    (∀ expr ∈ Stmt.exprsOfList stmts, expr.Anchored) ↔ ∀ stmt ∈ stmts, AnchoredStmt stmt := by
  induction stmts with
  | nil => simp [Stmt.exprsOfList]
  | cons first rest inductionHypothesis =>
      rw [Stmt.exprsOfList, List.forall_mem_append, inductionHypothesis, List.forall_mem_cons]
      rfl

theorem spends_typeName (place : Position) :
    Spends place typeName (fun typed => [typed.2.start]) fun _ => True := by
  intro cursor
  have suffix (element : ElementTy) :
      Ensures (arraySuffix element) cursor.advance fun _ behind =>
        behind.ahead place ≤ cursor.advance.ahead place := by
    have opened := cursor.advance.ahead_advance_le place
    have closed := cursor.advance.advance.ahead_advance_le place
    simp only [arraySuffix, ensures_bind, ensures_currentKind]
    split
    · simp only [ensures_bind, ensures_take, ensures_expect, ensures_pure]
      intro _
      omega
    · simp
  simp only [typeName, ensures_bind, ensures_position, ensures_currentKind, true_and]
  split
  · next kind =>
      have read := cursor.ahead_eq place (kind ▸ by decide)
      simp only [ensures_bind, ensures_take]
      refine (suffix .int).mono fun _ behind spent => ?_
      simp only [ensures_spanFrom, ensures_pure]
      omega
  · next kind =>
      have read := cursor.ahead_eq place (kind ▸ by decide)
      simp only [ensures_bind, ensures_take]
      refine (suffix .string).mono fun _ behind spent => ?_
      simp only [ensures_spanFrom, ensures_pure]
      omega
  · next kind =>
      have read := cursor.ahead_eq place (kind ▸ by decide)
      simp [read]
  · next kind =>
      have read := cursor.ahead_eq place (kind ▸ by decide)
      simp [read]
  · next kind =>
      have read := cursor.ahead_eq place (kind ▸ by decide)
      simp [read]
  · simp

attribute [local simp] List.count_cons

theorem spends_varDecl (place : Position) :
    Spends place varDecl (fun decl => decl.nameSpan.start :: decl.mentions)
      fun decl => ∀ expr ∈ decl.exprs, expr.Anchored := by
  intro cursor
  simp only [varDecl, ensures_bind]
  refine (spends_typeName place cursor).mono fun typed behind facts => ?_
  have type := facts.2
  simp only [ensures_expect, ensures_currentKind]
  intro kind
  have name := behind.ahead_eq place (kind ▸ by decide)
  have sign := behind.advance.ahead_advance_le place
  split
  · simp only [ensures_bind, ensures_take]
    refine (spends_expr place _).mono fun init further inner => ?_
    rcases inner with ⟨anchored, value⟩
    simp only [ensures_pure, ensures_expect]
    intro _
    have closed := further.ahead_advance_le place
    refine ⟨by simpa [VarDecl.exprs] using anchored, ?_⟩
    simp [VarDecl.mentions, VarDecl.exprs] at type name ⊢
    omega
  · simp only [ensures_bind, ensures_pure, ensures_expect]
    intro _
    refine ⟨by simp [VarDecl.exprs], ?_⟩
    simp [VarDecl.mentions, VarDecl.exprs] at type name ⊢
    omega

theorem spends_assignment (place : Position) :
    Spends place assignment Assignment.mentions
      fun found => ∀ expr ∈ found.exprs, expr.Anchored := by
  intro cursor
  simp only [assignment, ensures_bind, ensures_position, ensures_freshId, ensures_expect,
    ensures_currentKind, Cursor.contents_withNextId]
  intro kind
  have name := Cursor.ahead_eq place { cursor with nextId := cursor.nextId + 1 } (kind ▸ by decide)
  have sign := Cursor.ahead_advance_le place
    (Cursor.advance { cursor with nextId := cursor.nextId + 1 })
  rw [Cursor.ahead_withNextId] at name
  split
  · simp only [ensures_bind, ensures_take]
    refine (spends_expr place _).mono fun index behind facts => ?_
    have first := facts.2
    simp only [ensures_expect, ensures_pure]
    intro _ _
    have closed := behind.ahead_advance_le place
    have assigns := behind.advance.ahead_advance_le place
    refine (spends_expr place _).mono fun value further inner => ?_
    have second := inner.2
    simp only [ensures_spanFrom]
    refine ⟨by simpa [Assignment.exprs] using ⟨facts.1, inner.1⟩, ?_⟩
    simp [Assignment.mentions, Assignment.exprs] at name sign first ⊢
    omega
  · simp only [ensures_bind, ensures_pure, ensures_expect]
    intro _
    refine (spends_expr place _).mono fun value further inner => ?_
    have only := inner.2
    simp only [ensures_spanFrom]
    refine ⟨by simpa [Assignment.exprs] using inner.1, ?_⟩
    simp [Assignment.mentions, Assignment.exprs] at name sign only ⊢
    omega

theorem spends_returnClause (place : Position) :
    Spends place returnClause Return.mentions
      fun returned => ∀ expr ∈ returned.exprs, expr.Anchored := by
  intro cursor
  simp only [returnClause, ensures_bind, ensures_expect, ensures_currentKind]
  intro kind
  have keyword := cursor.ahead_eq place (kind ▸ by decide)
  split
  · simp only [ensures_bind, ensures_pure, ensures_expect, ensures_spanFrom]
    intro _
    have closed := cursor.advance.ahead_advance_le place
    refine ⟨by simp [Return.exprs], ?_⟩
    simp [Return.mentions, Return.exprs] at keyword ⊢
    omega
  · simp only [ensures_bind]
    refine (spends_expr place _).mono fun value behind facts => ?_
    have spent := facts.2
    simp only [ensures_pure, ensures_expect, ensures_spanFrom]
    intro _
    have closed := behind.ahead_advance_le place
    refine ⟨by simpa [Return.exprs] using facts.1, ?_⟩
    simp [Return.mentions, Return.exprs] at keyword ⊢
    omega

theorem spends_condition (place : Position) : SpendsLeaves place condition := by
  intro cursor
  simp only [condition, ensures_bind, ensures_expect]
  intro _
  have opened := cursor.ahead_advance_le place
  refine (spends_expr place _).mono fun tested behind facts => ?_
  rcases facts with ⟨anchored, spent⟩
  simp only [ensures_pure]
  intro _
  have closed := behind.ahead_advance_le place
  exact ⟨anchored, by omega⟩

/-- A reader of statements spends what its value declares and mentions. -/
def SpendsMarks (place : Position) (nested : Parser Stmt) : Prop :=
  Spends place nested stmtMarks AnchoredStmt

namespace SpendsMarks

variable {nested : Parser Stmt} (spends : SpendsMarks place nested)

attribute [local simp] stmtMarks stmtPlaces AnchoredStmt Stmt.nodes Stmt.decls Stmt.exprs
  Stmt.mentions

include spends

theorem ifStmt : SpendsMarks place (ifStmt nested) := by
  intro cursor
  simp only [Parser.ifStmt, ensures_bind, ensures_position, ensures_freshId, ensures_expect,
    Cursor.contents_withNextId]
  intro _
  have keyword := Cursor.ahead_advance_le place { cursor with nextId := cursor.nextId + 1 }
  rw [Cursor.ahead_withNextId] at keyword
  refine (spends_condition place _).mono fun tested behind facts => ?_
  rcases facts with ⟨anchored, condition⟩
  refine (spends _).mono fun body further inner => ?_
  rcases inner with ⟨bodyAnchored, first⟩
  have sign := further.ahead_advance_le place
  simp only [ensures_currentKind]
  split
  · simp only [ensures_bind, ensures_take]
    refine (spends _).mono fun alternative last facts => ?_
    rcases facts with ⟨alternativeAnchored, second⟩
    simp only [ensures_spanFrom, ensures_pure]
    simp at bodyAnchored alternativeAnchored keyword condition first second ⊢
    grind
  · simp only [ensures_bind, ensures_spanFrom, ensures_pure]
    simp at bodyAnchored keyword condition first ⊢
    grind

theorem whileStmt : SpendsMarks place (whileStmt nested) := by
  intro cursor
  simp only [Parser.whileStmt, ensures_bind, ensures_position, ensures_freshId, ensures_expect,
    Cursor.contents_withNextId]
  intro _
  have keyword := Cursor.ahead_advance_le place { cursor with nextId := cursor.nextId + 1 }
  rw [Cursor.ahead_withNextId] at keyword
  refine (spends_condition place _).mono fun tested behind facts => ?_
  rcases facts with ⟨anchored, condition⟩
  refine (spends _).mono fun body further inner => ?_
  rcases inner with ⟨bodyAnchored, spent⟩
  simp only [ensures_spanFrom, ensures_pure]
  simp at bodyAnchored keyword condition spent ⊢
  grind

theorem forStmt : SpendsMarks place (forStmt nested) := by
  intro cursor
  simp only [Parser.forStmt, ensures_bind, ensures_position, ensures_freshId, ensures_expect,
    Cursor.contents_withNextId]
  intro _ _
  have keyword := Cursor.ahead_advance_le place { cursor with nextId := cursor.nextId + 1 }
  have opened := Cursor.ahead_advance_le place
    (Cursor.advance { cursor with nextId := cursor.nextId + 1 })
  rw [Cursor.ahead_withNextId] at keyword
  refine (ensures_startsDeclaration _).mono fun declares same sameCursor => ?_
  subst sameCursor
  split
  · simp
  simp only [ensures_bind]
  refine (spends_varDecl place _).mono fun init behind facts => ?_
  rcases facts with ⟨initAnchored, declared⟩
  refine (spends_expr place _).mono fun tested between facts => ?_
  rcases facts with ⟨testedAnchored, condition⟩
  simp only [ensures_expect, ensures_currentKind]
  intro _
  have separated := between.ahead_advance_le place
  split
  · simp
  simp only [ensures_bind, ensures_pure]
  refine (spends_assignment place _).mono fun update further facts => ?_
  rcases facts with ⟨updateAnchored, updated⟩
  simp only [ensures_expect]
  intro _
  have closed := further.ahead_advance_le place
  refine (spends _).mono fun body last facts => ?_
  rcases facts with ⟨bodyAnchored, spent⟩
  simp only [ensures_spanFrom]
  simp at bodyAnchored keyword opened declared condition spent ⊢
  grind

theorem bodyItem : SpendsMarks place (bodyItem nested) := by
  intro cursor
  simp only [Parser.bodyItem, ensures_bind]
  refine (ensures_startsDeclaration _).mono fun declares same sameCursor => ?_
  subst sameCursor
  split
  · simp only [ensures_bind, ensures_position, ensures_freshId]
    refine (spends_varDecl place _).mono fun decl behind facts => ?_
    rcases facts with ⟨anchored, spent⟩
    simp only [ensures_spanFrom, ensures_pure]
    simp at spent ⊢
    grind
  · exact spends _

/-- Statements in the order in which they have been collected. -/
theorem block (cursor : Cursor) :
    Ensures
      (rounds
        (fun collected : List Stmt => do
          match ← currentKind with
          | .closeCurly => return .done collected.reverse
          | .eof => misplaced "expected `\x7d` to close the block"
          | _ => return .again ((← Parser.bodyItem nested) :: collected))
        [])
      cursor fun stmts behind =>
        (∀ stmt ∈ stmts, AnchoredStmt stmt) ∧
          (stmts.flatMap stmtMarks).count place + behind.ahead place ≤ cursor.ahead place := by
  refine ensures_rounds
    (fun collected inner => (∀ stmt ∈ collected, AnchoredStmt stmt) ∧
      (collected.flatMap stmtMarks).count place + inner.ahead place ≤ cursor.ahead place) ?_
    ⟨by simp, by simp⟩
  rintro collected inner ⟨held, within⟩
  simp only [ensures_bind, ensures_currentKind]
  split
  · rw [ensures_pure]
    refine ⟨fun stmt member => held stmt (List.mem_reverse.mp member), ?_⟩
    rw [((List.reverse_perm collected).flatMap_right stmtMarks).count_eq]
    exact within
  · simp
  · simp only [ensures_bind, ensures_pure]
    refine (spends.bodyItem inner).mono fun stmt behind facts => ?_
    rcases facts with ⟨anchored, spent⟩
    refine ⟨List.forall_mem_cons.mpr ⟨anchored, held⟩, ?_⟩
    rw [List.flatMap_cons, List.count_append]
    omega

theorem blockStmt : SpendsMarks place (blockStmt nested) := by
  intro cursor
  simp only [Parser.blockStmt, ensures_bind, ensures_position, ensures_freshId, ensures_expect,
    Cursor.contents_withNextId]
  intro _
  have opened := cursor.ahead_advance_le place
  refine (spends.block _).mono fun stmts behind facts => ?_
  have spent : (stmts.flatMap stmtMarks).count place + behind.ahead place ≤
      cursor.advance.ahead place := facts.2
  simp only [ensures_spanFrom, ensures_pure]
  intro _
  have closed := behind.ahead_advance_le place
  have marks (info : StmtInfo) : stmtMarks (.block info stmts none) = stmtsMarks stmts := by
    rw [stmtsMarks, flatMap_stmtPlaces]
    rfl
  rw [marks, count_stmtsMarks]
  exact ⟨anchored_exprsOfList.mpr facts.1, by omega⟩

end SpendsMarks

/-- A statement that begins with a name. -/
theorem spends_nameStmt (place : Position) : SpendsMarks place nameStmt := by
  intro cursor
  simp only [nameStmt, ensures_bind, ensures_nextKind]
  split
  · simp only [ensures_bind]
    refine (spends_assignment place _).mono fun assigned behind facts => ?_
    rcases facts with ⟨anchored, spent⟩
    have closed := behind.ahead_advance_le place
    simp only [ensures_expect, ensures_spanFrom, ensures_pure]
    intro _
    refine ⟨anchored, Nat.le_trans (Nat.add_le_add_left closed _) spent⟩
  simp only [ensures_bind, ensures_position, ensures_freshId]
  refine (spends_expr place _).mono fun first behind facts => ?_
  rcases facts with ⟨anchored, spent⟩
  rw [Cursor.ahead_withNextId] at spent
  simp only [ensures_currentKind]
  split
  · split
    · simp only [ensures_bind, ensures_take]
      rw [Expr.anchored_field] at anchored
      have sign := behind.ahead_advance_le place
      refine (spends_expr place _).mono fun value further inner => ?_
      rcases inner with ⟨valueAnchored, assigned⟩
      have closed := further.ahead_advance_le place
      simp only [ensures_expect, ensures_spanFrom, ensures_pure]
      intro _
      refine ⟨by simpa [AnchoredStmt, Stmt.exprs] using ⟨anchored.2, valueAnchored⟩, ?_⟩
      simp [stmtMarks, stmtPlaces, Stmt.nodes, Stmt.decls, Stmt.mentions, Expr.leaves] at spent ⊢
      omega
    · simp
  · split
    · simp only [ensures_bind, ensures_expect, ensures_spanFrom, ensures_pure]
      intro _
      have closed := behind.ahead_advance_le place
      exact ⟨List.forall_mem_singleton.mpr anchored,
        Nat.le_trans (Nat.add_le_add_left closed _) spent⟩
    · simp

/-- A statement that is read holds anchored expressions, and the tokens of what it
declares and mentions are spent. -/
theorem spends_stmt (place : Position) : SpendsMarks place stmt := by
  refine Spends.nesting fun nested inside cursor => ?_
  simp only [stmtLevel, ensures_bind, ensures_currentKind]
  split
  · exact SpendsMarks.ifStmt inside cursor
  · exact SpendsMarks.whileStmt inside cursor
  · exact SpendsMarks.forStmt inside cursor
  · simp only [returnStmt, ensures_bind, ensures_freshId, ensures_pure]
    exact spends_returnClause place _
  · exact SpendsMarks.blockStmt inside cursor
  · exact spends_nameStmt place cursor
  · simp

end Parser
end KnightFront
