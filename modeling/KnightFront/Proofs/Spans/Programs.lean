import KnightFront.Parse.Item
import KnightFront.Proofs.Printing.RoundTrip
import KnightFront.Proofs.Spans.Stmts

namespace KnightFront

/-!
# Spans in a file

In a file that has been read from a text, no span of a statement or expression
ends before it starts.  Statements contain whatever is inside them, at any
depth, and those of one block or body stand one behind the other, the return
that closes a body behind all the rest.
-/

/-- The statements of a function's body, one behind the other, with the return
that closes it. -/
def FunctionDecl.sequence (decl : FunctionDecl) : List Stmt :=
  decl.body ++ decl.closing.toList.map Return.stmt

/-- The spans in a function's body are where they belong. -/
structure FunctionDecl.SpansNest (decl : FunctionDecl) : Prop where
  nests : ∀ stmt ∈ decl.sequence, stmt.Nests
  before : (decl.sequence.map Stmt.span).Pairwise Span.Before

/-- No expression of a declaration ends before it starts. -/
def VarDecl.SpansOrdered (decl : VarDecl) : Prop :=
  ∀ expr ∈ decl.exprs, ∀ node ∈ expr.nodes, node.span.Ordered

/-- The spans in a declaration are where they belong. -/
structure Item.SpansNest (item : Item) : Prop where
  bodies : ∀ decl ∈ item.bodies, decl.SpansNest
  members : ∀ decl ∈ item.members, decl.SpansOrdered

theorem FunctionDecl.exprs_eq_flatMap_sequence (decl : FunctionDecl) :
    decl.exprs = decl.sequence.flatMap Stmt.exprs := by
  calc
    decl.exprs = decl.body.flatMap Stmt.exprs ++ decl.closing.toList.flatMap Return.exprs := by
      rw [exprs, Stmt.exprsOfList_eq_flatMap]
    _ = decl.body.flatMap Stmt.exprs ++
          (decl.closing.toList.map Return.stmt).flatMap Stmt.exprs := by
      rw [List.flatMap_map]
      rfl
    _ = decl.sequence.flatMap Stmt.exprs := List.flatMap_append.symm

theorem FunctionDecl.SpansNest.ordered {decl : FunctionDecl} (nests : decl.SpansNest) {expr : Expr}
    (held : expr ∈ decl.exprs) : ∀ node ∈ expr.nodes, node.span.Ordered := by
  rw [exprs_eq_flatMap_sequence] at held
  obtain ⟨stmt, inBody, inside⟩ := List.mem_flatMap.mp held
  intro node member
  exact ((nests.nests stmt inBody).within_of_mem_exprs inside node member).ordered

namespace Parser

/-- A return closes the body behind all other statements. -/
theorem gives_functionBody :
    Gives (fun found => ∀ id head,
      FunctionDecl.SpansNest { id, head, body := found.1, closing := found.2 }) functionBody := by
  intro cursor ordered
  refine ensures_rounds (Stmt.Collected cursor) ?_ (.nil ordered.reaches)
  intro collected inner held
  simp only [ensures_bind, ensures_currentKind]
  split
  · simp only [ensures_pure]
    refine ⟨held.reaches, fun id head => ⟨?_, ?_⟩⟩
    · simpa [FunctionDecl.sequence] using held.nests
    · simpa [FunctionDecl.sequence] using held.before_reverse
  · simp
  · simp only [ensures_bind, ensures_freshId]
    have reached := held.reaches.ordered
    refine (fits_returnClause_stmt _ ((Cursor.ordered_withNextId _).mpr reached)).mono ?_
    rintro returned behind ⟨moved, spans⟩
    have reaches := (Cursor.reaches_withNextId _).mp moved
    simp only [ensures_currentKind]
    split
    · have closed : Stmt.Collected cursor (returned.stmt :: collected) behind :=
        held.cons reaches (spans 0)
      simp only [ensures_pure]
      refine ⟨closed.reaches, fun id head => ⟨?_, ?_⟩⟩
      · simpa [FunctionDecl.sequence, or_comm] using closed.nests
      · simpa [FunctionDecl.sequence] using closed.before_reverse
    · exact ensures_pure.mpr (held.cons reaches (spans _))
  · simp only [ensures_bind, ensures_pure]
    exact (Fits.bodyItem fits_stmt inner held.reaches.ordered).mono fun stmt behind facts =>
      held.cons facts.1 facts.2

theorem gives_function : Gives FunctionDecl.SpansNest function := by
  refine Gives.freshId.bind fun id _ => ?_
  refine compositional_moves.functionHead.bind fun head _ => ?_
  refine (Gives.expect .openCurly).bind fun opening _ => ?_
  refine .bind gives_functionBody fun found nests => ?_
  exact (Gives.expect .closeCurly).bind fun closing _ => .pure (nests id head)

theorem gives_varDecl : Gives VarDecl.SpansOrdered varDecl :=
  fits_varDecl.gives fun _ _ _ facts expr held node member =>
    (facts.2 expr held node member).ordered

theorem gives_classMembers :
    Gives (fun found => (∀ decl ∈ found.1, decl.SpansOrdered) ∧ ∀ decl ∈ found.2, decl.SpansNest)
      classMembers := by
  refine Gives.rounds (fun found : List VarDecl × List FunctionDecl =>
    (∀ decl ∈ found.1, decl.SpansOrdered) ∧ ∀ decl ∈ found.2, decl.SpansNest) ?_ (by simp)
  rintro ⟨fields, methods⟩ ⟨fieldsOrdered, methodsNest⟩
  refine Gives.currentKind.bind fun kind _ => ?_
  split
  · exact .pure (by simpa using ⟨fieldsOrdered, methodsNest⟩)
  · exact .bind gives_function fun decl nests =>
      .pure ⟨fieldsOrdered, List.forall_mem_cons.mpr ⟨nests, methodsNest⟩⟩
  · refine compositional_moves.startsDeclaration.bind fun declares _ => ?_
    split
    · exact .bind gives_varDecl fun decl ordered =>
        .pure ⟨List.forall_mem_cons.mpr ⟨ordered, fieldsOrdered⟩, methodsNest⟩
    · exact .misplaced _

theorem gives_classDecl : Gives (fun decl => Item.SpansNest (.classDecl decl)) classDecl := by
  refine (Gives.expect .classWord).bind fun keyword _ => ?_
  refine (Gives.expect .identifier).bind fun name _ => ?_
  refine compositional_moves.parentClause.bind fun parent _ => ?_
  refine (compositional_moves.nameClause .useWord).bind fun uses _ => ?_
  refine (Gives.expect .openCurly).bind fun opening _ => ?_
  refine .bind gives_classMembers fun members nests => ?_
  refine (Gives.expect .closeCurly).bind fun closing _ => ?_
  exact .pure { bodies := nests.2, members := nests.1 }

theorem gives_item : Gives Item.SpansNest item := by
  refine Gives.currentKind.bind fun kind _ => ?_
  have empty {item : Item} (noBodies : item.bodies = []) (noMembers : item.members = []) :
      item.SpansNest :=
    { bodies := by simp [noBodies], members := by simp [noMembers] }
  split
  · exact compositional_moves.inclusion.bind fun decl _ => .pure (empty rfl rfl)
  · exact compositional_moves.enumeration.bind fun decl _ => .pure (empty rfl rfl)
  · exact compositional_moves.interface.bind fun decl _ => .pure (empty rfl rfl)
  · exact .bind gives_classDecl fun decl nests => .pure nests
  · exact .bind gives_function fun decl nests =>
      .pure ⟨by simpa [Item.bodies] using nests, by simp [Item.members]⟩
  · refine compositional_moves.startsDeclaration.bind fun declares _ => ?_
    split
    · exact .bind gives_varDecl fun decl ordered =>
        .pure ⟨by simp [Item.bodies], by simpa [Item.members] using ordered⟩
    · exact .misplaced _

theorem gives_items : Gives (fun found => ∀ item ∈ found, item.SpansNest) items := by
  refine Gives.rounds (fun found => ∀ item ∈ found, item.SpansNest) (fun found held => ?_) (by simp)
  refine Gives.currentKind.bind fun kind _ => ?_
  split
  · exact .pure (by simpa using held)
  · exact .bind gives_item fun item nests => .pure (List.forall_mem_cons.mpr ⟨nests, held⟩)

end Parser

namespace Program

variable {file source : String} {program : Program}

/-- Every statement of a file, the assignments at the heads of loops and the returns
that close bodies among them. -/
def statements (program : Program) : List Stmt :=
  program.bodies.flatMap fun decl => decl.sequence.flatMap Stmt.statements

/-- The spans in a file are where they belong. -/
structure SpansNest (program : Program) : Prop where
  exprs_ordered : ∀ node ∈ program.nodes, node.span.Ordered
  stmts_ordered : ∀ stmt ∈ program.statements, stmt.span.Ordered
  /-- A statement contains all statements inside it. -/
  contains_stmts : ∀ stmt ∈ program.statements, ∀ inner ∈ stmt.statements,
    stmt.span.Contains inner.span
  /-- A statement contains all nodes of all expressions inside it. -/
  contains_exprs : ∀ stmt ∈ program.statements, ∀ expr ∈ stmt.exprs, ∀ node ∈ expr.nodes,
    stmt.span.Contains node.span
  blocks : ∀ stmt ∈ program.statements, (stmt.sequence.map Stmt.span).Pairwise Span.Before
  bodies : ∀ decl ∈ program.bodies, (decl.sequence.map Stmt.span).Pairwise Span.Before

theorem item_spansNest_of_ofSource (accepted : ofSource file source = .ok program) :
    ∀ item ∈ program.items, item.SpansNest := by
  unfold ofSource at accepted
  split at accepted
  · cases accepted
  · next tokens tokenized =>
      unfold ofTokens at accepted
      split at accepted
      · cases accepted
      · next items behind read =>
          cases accepted
          exact (Parser.gives_items _ (Cursor.ordered_ofTokens tokenized) _ _ read).2

/-- In a file that was read no span ends before it starts, what stands inside a
statement lies inside its span, and the statements of a sequence follow each
other without overlap. -/
theorem spansNest_ofSource (accepted : ofSource file source = .ok program) : program.SpansNest := by
  have items := item_spansNest_of_ofSource accepted
  have bodies : ∀ decl ∈ program.bodies, decl.SpansNest := by
    intro decl member
    obtain ⟨item, inFile, inItem⟩ := List.mem_flatMap.mp member
    exact (items item inFile).bodies decl inItem
  have nests : ∀ stmt ∈ program.statements, stmt.Nests := by
    intro stmt member
    obtain ⟨decl, isBody, among⟩ := List.mem_flatMap.mp member
    obtain ⟨outer, inBody, inside⟩ := List.mem_flatMap.mp among
    exact (((bodies decl isBody).nests outer inBody).of_mem_statements inside).1
  constructor
  case exprs_ordered =>
    intro node member
    obtain ⟨expr, isExpr, inExpr⟩ := List.mem_flatMap.mp member
    obtain ⟨item, inFile, inItem⟩ := List.mem_flatMap.mp isExpr
    rw [Item.exprs_eq, List.mem_append, List.mem_flatMap, List.mem_flatMap] at inItem
    rcases inItem with ⟨decl, isMember, held⟩ | ⟨decl, isBody, held⟩
    · exact (items item inFile).members decl isMember expr held node inExpr
    · exact (bodies decl (List.mem_flatMap_of_mem inFile isBody)).ordered held node inExpr
  case stmts_ordered => exact fun stmt member => (nests stmt member).ordered
  case contains_stmts =>
    exact fun stmt member inner inside => ((nests stmt member).of_mem_statements inside).2
  case contains_exprs =>
    intro stmt member expr held node inside
    exact ((nests stmt member).within_of_mem_exprs held node inside).contains
  case blocks => exact fun stmt member => (nests stmt member).sequence_before
  case bodies => exact fun decl member => (bodies decl member).before

/-- A loop around a call whose argument has a member behind an index, and returns
with parentheses around what is returned. -/
def bracketedSource : String :=
  "fn f(int n): int \x7b for (int i = 0; i < n; i = i + 1) \x7b g(p[i].m); " ++
    "if (i < 2) ret (i) + (1); \x7d ret (n); \x7d"

/-- The spans of statements as columns: the loop, the assignment at its head, its
body with a call, a condition and a return, and the closing return. -/
theorem spansNest_bracketedSource :
    ∃ program, ofSource "p.kn" bracketedSource = .ok program ∧ program.SpansNest ∧
      program.statements.map (fun stmt => (stmt.span.start.column, stmt.span.finish.column)) =
        [(20, 94), (43, 52), (54, 94), (56, 66), (67, 92), (78, 92), (95, 103)] := by
  have passes : acceptedWith (fun program => decide (program.statements.map (fun stmt =>
      (stmt.span.start.column, stmt.span.finish.column)) =
        [(20, 94), (43, 52), (54, 94), (56, 66), (67, 92), (78, 92), (95, 103)]))
      "p.kn" bracketedSource = true :=
    acceptedWith_of_letters (.append .literal .literal) (by decide +kernel)
  obtain ⟨program, accepted, tested⟩ := exists_of_acceptedWith passes
  exact ⟨program, accepted, spansNest_ofSource accepted, of_decide_eq_true tested⟩

end Program
end KnightFront
