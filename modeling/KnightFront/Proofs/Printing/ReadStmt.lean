import KnightFront.Parse.Stmt
import KnightFront.Proofs.Printing.ReadExpr

namespace KnightFront

/-!
# Reading printed statements

The tokens of a printed statement are read as a statement of the same shape,
up to what becomes of the expressions in it.  A statement that ends in a
condition without an alternative must not stand before an alternative.
-/

open KnightFront.Parser (Yields)

variable {cursor : Cursor} {rest : List TokenContent}

theorem yields_typeName {ty : Ty} (written : ty.Written) (single : headKind rest ≠ .openBracket)
    (ahead : cursor.contents = ty.tokens ++ rest) :
    Yields Parser.typeName cursor fun found behind => found.1 = ty ∧ behind.contents = rest := by
  cases ty with
  | array element =>
      cases element <;> simp only [Ty.tokens, List.cons_append, List.nil_append] at ahead <;>
        simp [Parser.typeName, Parser.arraySuffix, ahead]
  | named name =>
      simp only [Ty.tokens, List.cons_append, List.nil_append] at ahead
      simp [Parser.typeName, ahead, Cursor.current_value ahead]
  | function => exact written.elim
  | error => exact written.elim
  | _ =>
      simp only [Ty.tokens, List.cons_append, List.nil_append] at ahead
      simp [Parser.typeName, Parser.arraySuffix, ahead, single, ElementTy.ty]

/-- The kinds that begin a printed type. -/
def Ty.firstKinds : List TokenKind := [.intWord, .stringWord, .boolWord, .voidWord, .identifier]

theorem Ty.headKind_tokens_mem {ty : Ty} (written : ty.Written) (rest : List TokenContent) :
    headKind (ty.tokens ++ rest) ∈ firstKinds := by
  cases ty with
  | array element => cases element <;> simp [tokens, firstKinds]
  | function => exact written.elim
  | error => exact written.elim
  | _ => simp [tokens, firstKinds]

theorem VarDecl.headKind_lineTokens_mem {decl : VarDecl} (written : decl.Written)
    (rest : List TokenContent) : headKind (decl.lineTokens ++ rest) ∈ Ty.firstKinds := by
  rw [lineTokens, tokens, List.append_assoc, List.append_assoc]
  exact Ty.headKind_tokens_mem written.ty _

/-- A declaration is told by its type and name. -/
theorem yields_startsDeclaration {decl : VarDecl} (written : decl.Written)
    {post : Bool → Cursor → Prop} (ahead : cursor.contents = decl.lineTokens ++ rest)
    (holds : post true cursor) : Yields Parser.startsDeclaration cursor post := by
  rcases decl with ⟨ty, tySpan, name, nameSpan, init⟩
  simp only [VarDecl.lineTokens, VarDecl.tokens, List.append_assoc] at ahead
  cases ty with
  | array element =>
      cases element <;> simp only [Ty.tokens, List.cons_append, List.nil_append] at ahead <;>
        simpa [Parser.startsDeclaration, ahead] using holds
  | function => exact written.ty.elim
  | error => exact written.ty.elim
  | _ =>
      simp only [Ty.tokens, List.cons_append, List.nil_append] at ahead
      simpa [Parser.startsDeclaration, ahead] using holds

/-- A declaration is read with its semicolon. -/
theorem yields_varDecl {decl : VarDecl} (written : decl.Written)
    (ahead : cursor.contents = decl.lineTokens ++ rest) :
    Yields Parser.varDecl cursor fun found behind =>
      found.bareWith Expr.bare = decl.bareWith Expr.reread ∧ behind.contents = rest := by
  simp only [VarDecl.lineTokens, VarDecl.tokens, List.append_assoc, List.cons_append] at ahead
  simp only [Parser.varDecl, Parser.yields_bind]
  refine (yields_typeName written.ty (by simp) ahead).mono fun found behind facts => ?_
  rcases facts with ⟨ty, same⟩
  have spelled := Cursor.current_value same
  cases held : decl.init with
  | none =>
      simp only [held, List.nil_append] at same
      simp [same, spelled, ty, held, VarDecl.bareWith]
  | some init =>
      simp only [held, List.cons_append] at same
      have front : behind.advance.advance.contents = init.tokens ++ (.semicolon, ";") :: rest := by
        simp [same]
      simp only [Parser.yields_expect, Parser.yields_currentKind, Parser.yields_bind, same,
        headKind_cons, Cursor.contents_advance, List.tail_cons, if_true, Parser.yields_take, true_and]
      refine (yields_expr (written.exprs init (by simp [VarDecl.exprs, held]))
        (stops_cons.mpr (by decide)) front).mono fun value further facts => ?_
      rcases facts with ⟨bare, follows⟩
      simp [follows, spelled, ty, held, VarDecl.bareWith, bare]

theorem yields_assignment {assignment : Assignment} (written : assignment.Written)
    (stops : Stops rest) (ahead : cursor.contents = assignment.tokens ++ rest) :
    Yields Parser.assignment cursor fun found behind =>
      found.bareWith Expr.bare = assignment.bareWith Expr.reread ∧ behind.contents = rest := by
  simp only [Assignment.tokens, List.append_assoc, List.cons_append] at ahead
  have spelled := Cursor.current_value ahead
  have value := written.exprs assignment.value (by simp [Assignment.exprs])
  simp only [Parser.assignment, Parser.yields_bind, Parser.yields_position, Parser.yields_freshId,
    Parser.yields_expect, Parser.yields_currentKind, Cursor.contents_withNextId, ahead,
    Cursor.advance_withNextId, Cursor.contents_advance, headKind_cons, List.tail_cons, true_and]
  cases held : assignment.index with
  | none =>
      simp only [held, List.nil_append] at ahead
      have front : Cursor.contents { cursor.advance.advance with nextId := cursor.nextId + 1 } =
          assignment.value.tokens ++ rest := by
        simp [ahead]
      simp only [List.nil_append, headKind_cons, reduceCtorEq, if_false, Parser.yields_bind,
        Parser.yields_pure, Parser.yields_expect, Cursor.contents_withNextId,
        Cursor.contents_advance, ahead, List.tail_cons, true_and, Cursor.advance_withNextId]
      refine (yields_expr value stops front).mono fun found further facts => ?_
      rcases facts with ⟨bare, follows⟩
      simp [follows, Assignment.bareWith, held, bare, NameUse.bare, spelled]
  | some index =>
      simp only [held, List.append_assoc, List.cons_append, List.nil_append] at ahead
      have front : Cursor.contents { cursor.advance.advance with nextId := cursor.nextId + 1 } =
          index.tokens ++ (.closeBracket, "]") :: (.assignment, "=") ::
            (assignment.value.tokens ++ rest) := by
        simp [ahead]
      simp only [List.cons_append, headKind_cons, if_true, Parser.yields_bind, Parser.yields_take,
        Cursor.advance_withNextId]
      refine (yields_expr (written.exprs index (by simp [Assignment.exprs, held]))
        (stops_cons.mpr (by decide)) front).mono fun position behind facts => ?_
      rcases facts with ⟨positionBare, same⟩
      have remains : behind.advance.advance.contents = assignment.value.tokens ++ rest := by
        simp [same]
      simp only [Parser.yields_expect, Parser.yields_pure, same, headKind_cons,
        Cursor.contents_advance, List.tail_cons, true_and]
      refine (yields_expr value stops remains).mono fun found further facts => ?_
      rcases facts with ⟨bare, follows⟩
      simp [follows, Assignment.bareWith, held, bare, positionBare, NameUse.bare, spelled]

/-- A return is read with its semicolon. -/
theorem yields_returnClause {returned : Return} (written : returned.Written)
    (ahead : cursor.contents = returned.tokens ++ rest) :
    Yields Parser.returnClause cursor fun found behind =>
      found.bareWith Expr.bare = returned.bareWith Expr.reread ∧ behind.contents = rest := by
  simp only [Return.tokens, List.append_assoc, List.cons_append, List.nil_append] at ahead
  cases held : returned.value with
  | none =>
      simp only [held, List.nil_append] at ahead
      simp [Parser.returnClause, ahead, Return.bareWith, held]
  | some value =>
      simp only [held] at ahead
      have front : cursor.advance.contents = value.tokens ++ (.semicolon, ";") :: rest := by
        simp [ahead]
      have isValue : headKind (value.tokens ++ (.semicolon, ";") :: rest) ≠ .semicolon := by
        intro same
        exact absurd (same ▸ value.headKind_tokens_mem _) (by decide)
      simp only [Parser.returnClause, Parser.yields_bind, Parser.yields_expect, ahead, headKind_cons,
        Parser.yields_currentKind, front, isValue, if_false, true_and]
      refine (yields_expr (written value (by simp [Return.exprs, held]))
        (stops_cons.mpr (by decide)) front).mono fun found further facts => ?_
      rcases facts with ⟨bare, follows⟩
      simp [follows, Return.bareWith, held, bare]

namespace Expr

/-- Behind the name that begins a path stands a dot or a parenthesis, or the
path is this name. -/
theorem tokens_of_isPath : (expr : Expr) → expr.isPath = true → (rest : List TokenContent) →
    ∃ name more, expr.tokens ++ rest = (.identifier, name) :: more ∧
      (headKind more ∈ [.dot, .openParen] ∨ more = rest)
  | int .., path, _ => by cases path
  | string .., path, _ => by cases path
  | bool .., path, _ => by cases path
  | name _ used, _, rest => ⟨used.text, rest, rfl, .inr rfl⟩
  | binary .., path, _ => by cases path
  | call _ callee _, _, rest => ⟨callee.text, _, rfl, .inl (by simp)⟩
  | methodCall _ receiver _ _, path, rest => by
      rcases tokens_of_isPath receiver path _ with ⟨name, more, front, dot | rfl⟩
      · exact ⟨name, more, by rw [tokens, List.append_assoc, front], .inl dot⟩
      · exact ⟨name, _, by rw [tokens, List.append_assoc, front], .inl (by simp)⟩
  | field _ receiver _, path, rest => by
      rcases tokens_of_isPath receiver path _ with ⟨name, more, front, dot | rfl⟩
      · exact ⟨name, more, by rw [tokens, List.append_assoc, front], .inl dot⟩
      · exact ⟨name, _, by rw [tokens, List.append_assoc, front], .inl (by simp)⟩
  | newInstance .., path, _ => by cases path
  | newArray .., path, _ => by cases path
  | index .., path, _ => by cases path
  | array .., path, _ => by cases path

/-- A path never ends in an index, so members behind it stay in their place. -/
theorem isIndex_reread_of_isPath : (expr : Expr) → expr.isPath = true →
    expr.reread.isIndex = false
  | name .., _ => rfl
  | call .., _ => rfl
  | methodCall _ receiver _ _, path => by
      rw [reread, behind_of_isIndex_eq_false (isIndex_reread_of_isPath receiver path)]
      rfl
  | field _ receiver _, path => by
      rw [reread, behind_of_isIndex_eq_false (isIndex_reread_of_isPath receiver path)]
      rfl
  | int .., path => by cases path
  | string .., path => by cases path
  | bool .., path => by cases path
  | binary .., path => by cases path
  | newInstance .., path => by cases path
  | newArray .., path => by cases path
  | index .., path => by cases path
  | array .., path => by cases path

/-- Whether an expression is a call shows in its shape. -/
theorem isCall_bare (expr : Expr) : expr.bare.isCall = expr.isCall := by
  cases expr <;> rfl

/-- A call that is a path reads back as a call. -/
theorem isCall_reread_of_isPath {expr : Expr} (call : expr.isCall = true)
    (path : expr.isPath = true) : expr.reread.isCall = true := by
  cases expr with
  | call => rfl
  | methodCall _ receiver =>
      rw [reread, behind_of_isIndex_eq_false (isIndex_reread_of_isPath receiver path)]
      rfl
  | _ => cases call

end Expr

/-! ## Statements inside statements -/

/-- In front of the tokens of a printed statement, a condition that holds of
what it reads back as and of what follows. -/
def StmtSpec (cursor : Cursor) (post : Stmt → Cursor → Prop) : Prop :=
  ∃ (stmt : Stmt) (rest : List TokenContent), stmt.Written ∧ stmt.isVarDecl = false ∧
    (stmt.takesElse = true → headKind rest ≠ .elseWord) ∧ cursor.contents = stmt.tokens ++ rest ∧
    ∀ value behind, value.bareWith Expr.bare = stmt.bareWith Expr.reread →
      behind.contents = rest → post value behind

/-- A reader reads printed statements wherever fewer tokens are left than a
limit. -/
def ReadsStmtsBelow (nested : Parser Stmt) (limit : Nat) : Prop :=
  ∀ inner post, inner.remaining < limit → StmtSpec inner post → Yields nested inner post

variable {nested : Parser Stmt}

theorem ReadsStmtsBelow.stmt {limit : Nat} (reads : ReadsStmtsBelow nested limit)
    (shorter : cursor.remaining < limit) {stmt : Stmt} (written : stmt.Written)
    (plain : stmt.isVarDecl = false) (apart : stmt.takesElse = true → headKind rest ≠ .elseWord)
    (ahead : cursor.contents = stmt.tokens ++ rest) :
    Yields nested cursor fun value behind =>
      value.bareWith Expr.bare = stmt.bareWith Expr.reread ∧ behind.contents = rest :=
  reads cursor _ shorter
    ⟨stmt, rest, written, plain, apart, ahead, fun _ _ shape same => ⟨shape, same⟩⟩

/-- A condition is read with its parentheses. -/
theorem yields_condition {condition : Expr} (written : condition.Written)
    (ahead : cursor.contents =
      (.openParen, "(") :: (condition.tokens ++ (.closeParen, ")") :: rest)) :
    Yields Parser.condition cursor fun value behind =>
      value.bare = condition.reread ∧ behind.contents = rest := by
  have front : cursor.advance.contents = condition.tokens ++ (.closeParen, ")") :: rest := by
    simp [ahead]
  simp only [Parser.condition, Parser.yields_bind, Parser.yields_expect, ahead, headKind_cons,
    true_and]
  refine (yields_expr written (stops_cons.mpr (by decide)) front).mono fun value behind facts => ?_
  simp [facts.1, facts.2]

theorem yields_ifStmt_ifThen {info : StmtInfo} {condition : Expr} {body : Stmt}
    (written : (Stmt.ifThen info condition body).Written) (apart : headKind rest ≠ .elseWord)
    (ahead : cursor.contents = (Stmt.ifThen info condition body).tokens ++ rest)
    (reads : ReadsStmtsBelow nested cursor.remaining) :
    Yields (Parser.ifStmt nested) cursor fun value behind =>
      value.bareWith Expr.bare = (Stmt.ifThen info condition body).bareWith Expr.reread ∧
        behind.contents = rest := by
  rcases written with ⟨conditionWritten, bodyWritten, plain⟩
  simp only [Stmt.tokens, List.cons_append, List.append_assoc] at ahead
  have front : Cursor.contents { cursor.advance with nextId := cursor.nextId + 1 } =
      (.openParen, "(") :: (condition.tokens ++ (.closeParen, ")") :: (body.tokens ++ rest)) := by
    simp [ahead]
  simp only [Parser.ifStmt, Parser.yields_bind, Parser.yields_position, Parser.yields_freshId,
    Parser.yields_expect, Cursor.contents_withNextId, ahead, headKind_cons, true_and,
    Cursor.advance_withNextId]
  refine (yields_condition conditionWritten front).mono fun tested behind facts => ?_
  rcases facts with ⟨testedBare, same⟩
  have shorter : behind.remaining < cursor.remaining := by
    simp only [Cursor.remaining_eq, same, ahead, List.length_cons, List.length_append]
    omega
  refine (reads.stmt shorter bodyWritten plain (fun _ => apart) same).mono
    fun found further facts => ?_
  rcases facts with ⟨bodyBare, follows⟩
  simp [follows, apart, Stmt.bareWith, testedBare, bodyBare]

theorem yields_ifStmt_ifElse {info : StmtInfo} {condition : Expr} {body alternative : Stmt}
    (written : (Stmt.ifElse info condition body alternative).Written)
    (apart : alternative.takesElse = true → headKind rest ≠ .elseWord)
    (ahead : cursor.contents = (Stmt.ifElse info condition body alternative).tokens ++ rest)
    (reads : ReadsStmtsBelow nested cursor.remaining) :
    Yields (Parser.ifStmt nested) cursor fun value behind =>
      value.bareWith Expr.bare =
          (Stmt.ifElse info condition body alternative).bareWith Expr.reread ∧
        behind.contents = rest := by
  rcases written with ⟨conditionWritten, bodyWritten, alternativeWritten, plain, plainToo, closed⟩
  simp only [Stmt.tokens, List.cons_append, List.append_assoc] at ahead
  have front : Cursor.contents { cursor.advance with nextId := cursor.nextId + 1 } =
      (.openParen, "(") :: (condition.tokens ++ (.closeParen, ")") ::
        (body.tokens ++ (.elseWord, "else") :: (alternative.tokens ++ rest))) := by
    simp [ahead]
  simp only [Parser.ifStmt, Parser.yields_bind, Parser.yields_position, Parser.yields_freshId,
    Parser.yields_expect, Cursor.contents_withNextId, ahead, headKind_cons, true_and,
    Cursor.advance_withNextId]
  refine (yields_condition conditionWritten front).mono fun tested behind facts => ?_
  rcases facts with ⟨testedBare, same⟩
  have shorter : behind.remaining < cursor.remaining := by
    simp only [Cursor.remaining_eq, same, ahead, List.length_cons, List.length_append]
    omega
  refine (reads.stmt shorter bodyWritten plain (fun takes => by simp [closed] at takes) same).mono
    fun found further facts => ?_
  rcases facts with ⟨bodyBare, follows⟩
  have remains : further.advance.contents = alternative.tokens ++ rest := by simp [follows]
  have fewer : further.advance.remaining < cursor.remaining := by
    simp only [Cursor.remaining_eq, remains, ahead, List.length_cons, List.length_append]
    omega
  simp only [Parser.yields_currentKind, follows, headKind_cons, if_true, Parser.yields_bind,
    Parser.yields_take]
  refine (reads.stmt fewer alternativeWritten plainToo apart remains).mono
    fun other last facts => ?_
  simp [facts.2, Stmt.bareWith, testedBare, bodyBare, facts.1]

theorem yields_whileStmt {info : StmtInfo} {condition : Expr} {body : Stmt}
    (written : (Stmt.whileLoop info condition body).Written)
    (apart : body.takesElse = true → headKind rest ≠ .elseWord)
    (ahead : cursor.contents = (Stmt.whileLoop info condition body).tokens ++ rest)
    (reads : ReadsStmtsBelow nested cursor.remaining) :
    Yields (Parser.whileStmt nested) cursor fun value behind =>
      value.bareWith Expr.bare = (Stmt.whileLoop info condition body).bareWith Expr.reread ∧
        behind.contents = rest := by
  rcases written with ⟨conditionWritten, bodyWritten, plain⟩
  simp only [Stmt.tokens, List.cons_append, List.append_assoc] at ahead
  have front : Cursor.contents { cursor.advance with nextId := cursor.nextId + 1 } =
      (.openParen, "(") :: (condition.tokens ++ (.closeParen, ")") :: (body.tokens ++ rest)) := by
    simp [ahead]
  simp only [Parser.whileStmt, Parser.yields_bind, Parser.yields_position, Parser.yields_freshId,
    Parser.yields_expect, Cursor.contents_withNextId, ahead, headKind_cons, true_and,
    Cursor.advance_withNextId]
  refine (yields_condition conditionWritten front).mono fun tested behind facts => ?_
  rcases facts with ⟨testedBare, same⟩
  have shorter : behind.remaining < cursor.remaining := by
    simp only [Cursor.remaining_eq, same, ahead, List.length_cons, List.length_append]
    omega
  refine (reads.stmt shorter bodyWritten plain apart same).mono fun found further facts => ?_
  simp [facts.2, Stmt.bareWith, testedBare, facts.1]

theorem yields_forStmt {info : StmtInfo} {init : VarDecl} {condition : Expr} {update : Assignment}
    {body : Stmt} {scope : Option ScopeId}
    (written : (Stmt.forLoop info init condition update body scope).Written)
    (apart : body.takesElse = true → headKind rest ≠ .elseWord)
    (ahead : cursor.contents = (Stmt.forLoop info init condition update body scope).tokens ++ rest)
    (reads : ReadsStmtsBelow nested cursor.remaining) :
    Yields (Parser.forStmt nested) cursor fun value behind =>
      value.bareWith Expr.bare =
          (Stmt.forLoop info init condition update body scope).bareWith Expr.reread ∧
        behind.contents = rest := by
  rcases written with ⟨initWritten, conditionWritten, updateWritten, bodyWritten, plain⟩
  simp only [Stmt.tokens, List.cons_append, List.append_assoc] at ahead
  have front : Cursor.contents { cursor.advance.advance with nextId := cursor.nextId + 1 } =
      init.lineTokens ++ (condition.tokens ++ (.semicolon, ";") ::
        (update.tokens ++ (.closeParen, ")") :: (body.tokens ++ rest))) := by
    simp [ahead]
  simp only [Parser.forStmt, Parser.yields_bind, Parser.yields_position, Parser.yields_freshId,
    Parser.yields_expect, Cursor.contents_withNextId, ahead, headKind_cons, true_and,
    Cursor.advance_withNextId, Cursor.contents_advance, List.tail_cons]
  refine yields_startsDeclaration initWritten front ?_
  simp only [Bool.not_true, Bool.false_eq_true, if_false, Parser.yields_bind]
  refine (yields_varDecl initWritten front).mono fun first behind facts => ?_
  rcases facts with ⟨firstBare, same⟩
  refine (yields_expr conditionWritten (stops_cons.mpr (by decide)) same).mono
    fun tested further facts => ?_
  rcases facts with ⟨testedBare, follows⟩
  have remains : further.advance.contents =
      update.tokens ++ (.closeParen, ")") :: (body.tokens ++ rest) := by
    simp [follows]
  have named : headKind further.advance.contents = .identifier := by
    simp [remains, Assignment.tokens]
  simp only [Parser.yields_expect, follows, headKind_cons, true_and, Parser.yields_currentKind,
    named, ne_eq, not_true, if_false, Parser.yields_bind]
  refine (yields_assignment updateWritten (stops_cons.mpr (by decide)) remains).mono
    fun step last facts => ?_
  rcases facts with ⟨stepBare, ends⟩
  have inside : last.advance.contents = body.tokens ++ rest := by simp [ends]
  have shorter : last.advance.remaining < cursor.remaining := by
    simp only [Cursor.remaining_eq, inside, ahead, List.length_cons, List.length_append]
    omega
  simp only [ends, headKind_cons, true_and]
  refine (reads.stmt shorter bodyWritten plain apart inside).mono fun found final facts => ?_
  simp [facts.2, Stmt.bareWith, firstBare, testedBare, stepBare, facts.1]

/-- An assignment, an assignment to a field or a call begins with a name. -/
theorem yields_nameStmt_assign {assignment : Assignment} (written : assignment.Written)
    (ahead : cursor.contents = assignment.tokens ++ (.semicolon, ";") :: rest) :
    Yields Parser.nameStmt cursor fun value behind =>
      value.bareWith Expr.bare = (Stmt.assign assignment).bareWith Expr.reread ∧
        behind.contents = rest := by
  have next : headKind cursor.contents.tail = .assignment ∨
      headKind cursor.contents.tail = .openBracket := by
    cases held : assignment.index <;> simp [ahead, Assignment.tokens, held]
  simp only [Parser.nameStmt, Parser.yields_bind, Parser.yields_nextKind, next, if_true]
  refine (yields_assignment written (stops_cons.mpr (by decide)) ahead).mono
    fun assigned behind facts => ?_
  rcases facts with ⟨bare, same⟩
  simp only [Assignment.bareWith, Assignment.mk.injEq, true_and] at bare
  simp [same, Stmt.bareWith, Assignment.bareWith, bare]

/-- Behind the name at the beginning of a path with a dot behind it stands the
dot or a parenthesis. -/
theorem kinds_of_isPath {expr : Expr} (path : expr.isPath = true) (more : List TokenContent) :
    headKind (expr.tokens ++ (.dot, ".") :: more) = .identifier ∧
      headKind (expr.tokens ++ (.dot, ".") :: more).tail ∈ [.dot, .openParen] := by
  rcases expr.tokens_of_isPath path ((.dot, ".") :: more) with ⟨name, others, front, member | rfl⟩
  · simpa [front] using member
  · simp [front]

theorem kinds_of_isCall {expr : Expr} (call : expr.isCall = true) (path : expr.isPath = true)
    (rest : List TokenContent) :
    headKind (expr.tokens ++ rest) = .identifier ∧
      headKind (expr.tokens ++ rest).tail ∈ [.dot, .openParen] := by
  cases expr with
  | call => simp [Expr.tokens]
  | methodCall _ receiver callee args =>
      rw [Expr.tokens, List.append_assoc]
      exact kinds_of_isPath (show receiver.isPath = true from path) _
  | _ => cases call

theorem yields_nameStmt_fieldAssign {info : StmtInfo} {receiver value : Expr} {used : NameUse}
    (written : (Stmt.fieldAssign info receiver used value).Written)
    (ahead : cursor.contents = (Stmt.fieldAssign info receiver used value).tokens ++ rest) :
    Yields Parser.nameStmt cursor fun found behind =>
      found.bareWith Expr.bare = (Stmt.fieldAssign info receiver used value).bareWith Expr.reread ∧
        behind.contents = rest := by
  rcases written with ⟨receiverWritten, path, usedWritten, valueWritten⟩
  simp only [Stmt.tokens, List.cons_append, List.append_assoc, List.nil_append] at ahead
  have next : ¬ (headKind cursor.contents.tail = .assignment ∨
      headKind cursor.contents.tail = .openBracket) := by
    rw [ahead]
    rintro (same | same) <;> exact absurd (same ▸ (kinds_of_isPath path _).2) (by decide)
  have targetWritten : (Expr.field .bare receiver used).Written :=
    Expr.written_field.mpr ⟨usedWritten, receiverWritten⟩
  have front : Cursor.contents { cursor with nextId := cursor.nextId + 1 } =
      (Expr.field .bare receiver used).tokens ++
        (.assignment, "=") :: (value.tokens ++ (.semicolon, ";") :: rest) := by
    simp [ahead, Expr.tokens]
  simp only [Parser.nameStmt, Parser.yields_bind, Parser.yields_nextKind, next, if_false,
    Parser.yields_position, Parser.yields_freshId]
  refine (yields_expr targetWritten (stops_cons.mpr (by decide)) front).mono
    fun target behind facts => ?_
  rcases facts with ⟨targetBare, same⟩
  rw [Expr.reread, Expr.behind_of_isIndex_eq_false (Expr.isIndex_reread_of_isPath receiver path)]
    at targetBare
  cases target with
  | field targetInfo inner name =>
      simp only [Expr.bare, Expr.field.injEq, true_and] at targetBare
      have remains : behind.advance.contents = value.tokens ++ (.semicolon, ";") :: rest := by
        simp [same]
      simp only [Parser.yields_currentKind, same, headKind_cons, if_true, Parser.yields_bind,
        Parser.yields_take]
      refine (yields_expr valueWritten (stops_cons.mpr (by decide)) remains).mono
        fun assigned further facts => ?_
      simp [facts.2, Stmt.bareWith, targetBare, facts.1]
  | _ => simp [Expr.bare] at targetBare

theorem yields_nameStmt_call {info : StmtInfo} {expr : Expr}
    (written : (Stmt.call info expr).Written)
    (ahead : cursor.contents = (Stmt.call info expr).tokens ++ rest) :
    Yields Parser.nameStmt cursor fun found behind =>
      found.bareWith Expr.bare = (Stmt.call info expr).bareWith Expr.reread ∧
        behind.contents = rest := by
  rcases written with ⟨exprWritten, call, path⟩
  simp only [Stmt.tokens, List.cons_append, List.append_assoc, List.nil_append] at ahead
  have next : ¬ (headKind cursor.contents.tail = .assignment ∨
      headKind cursor.contents.tail = .openBracket) := by
    rw [ahead]
    rintro (same | same) <;> exact absurd (same ▸ (kinds_of_isCall call path _).2) (by decide)
  have front : Cursor.contents { cursor with nextId := cursor.nextId + 1 } =
      expr.tokens ++ (.semicolon, ";") :: rest := ahead
  simp only [Parser.nameStmt, Parser.yields_bind, Parser.yields_nextKind, next, if_false,
    Parser.yields_position, Parser.yields_freshId]
  refine (yields_expr exprWritten (stops_cons.mpr (by decide)) front).mono
    fun found behind facts => ?_
  rcases facts with ⟨bare, same⟩
  have isCall : found.isCall = true := by
    rw [← Expr.isCall_bare, bare]
    exact Expr.isCall_reread_of_isPath call path
  simp [same, isCall, Stmt.bareWith, bare]

/-! ## Blocks -/

namespace Stmt

/-- The kinds that begin a printed statement or declaration. -/
def firstKinds : List TokenKind :=
  [.ifWord, .whileWord, .forWord, .retWord, .openCurly, .identifier, .intWord, .stringWord,
    .boolWord, .voidWord]

theorem headKind_tokens_mem {stmt : Stmt} (written : stmt.Written) (rest : List TokenContent) :
    headKind (stmt.tokens ++ rest) ∈ firstKinds := by
  have named : TokenKind.identifier ∈ firstKinds := by decide
  cases stmt with
  | varDecl info decl =>
      have listed : ∀ kind ∈ Ty.firstKinds, kind ∈ firstKinds := by decide
      exact listed _ (VarDecl.headKind_lineTokens_mem written rest)
  | assign assignment => simpa [tokens, Assignment.tokens] using named
  | fieldAssign info receiver used value =>
      rcases receiver.tokens_of_isPath written.2.1 _ with ⟨name, more, front, -⟩
      rw [tokens, List.append_assoc, front]
      exact named
  | call info expr =>
      rcases expr.tokens_of_isPath written.2.2 _ with ⟨name, more, front, -⟩
      rw [tokens, List.append_assoc, front]
      exact named
  | _ => simp [tokens, Return.tokens, firstKinds]

/-- A statement that is no declaration does not begin like one. -/
theorem yields_startsDeclaration_false {stmt : Stmt} (written : stmt.Written)
    (plain : stmt.isVarDecl = false) {post : Bool → Cursor → Prop}
    (ahead : cursor.contents = stmt.tokens ++ rest) (holds : post false cursor) :
    Yields Parser.startsDeclaration cursor post := by
  have named (kind : headKind cursor.contents = .identifier)
      (next : headKind cursor.contents.tail ≠ .identifier) :
      Yields Parser.startsDeclaration cursor post := by
    simpa [Parser.startsDeclaration, kind, next] using holds
  cases stmt with
  | varDecl => cases plain
  | assign assignment =>
      apply named
      · simp [ahead, tokens, Assignment.tokens]
      · cases held : assignment.index <;> simp [ahead, tokens, Assignment.tokens, held]
  | fieldAssign info receiver used value =>
      simp only [tokens, List.append_assoc, List.cons_append, List.nil_append] at ahead
      have kinds := kinds_of_isPath written.2.1 ((.identifier, used.text) :: (.assignment, "=") ::
        (value.tokens ++ (.semicolon, ";") :: rest))
      rw [← ahead] at kinds
      exact named kinds.1 fun same => absurd (same ▸ kinds.2) (by decide)
  | call info expr =>
      rw [tokens, List.append_assoc] at ahead
      have kinds := kinds_of_isCall written.2.1 written.2.2 ([(TokenKind.semicolon, ";")] ++ rest)
      rw [← ahead] at kinds
      exact named kinds.1 fun same => absurd (same ▸ kinds.2) (by decide)
  | _ => simpa [Parser.startsDeclaration, ahead, tokens, Return.tokens] using holds

end Stmt

/-- A statement or declaration is read in a block. -/
theorem yields_bodyItem {stmt : Stmt} {limit : Nat} (reads : ReadsStmtsBelow nested limit)
    (shorter : cursor.remaining < limit) (written : stmt.Written)
    (apart : headKind rest ≠ .elseWord) (ahead : cursor.contents = stmt.tokens ++ rest) :
    Yields (Parser.bodyItem nested) cursor fun value behind =>
      value.bareWith Expr.bare = stmt.bareWith Expr.reread ∧ behind.contents = rest := by
  simp only [Parser.bodyItem, Parser.yields_bind]
  by_cases declaration : stmt.isVarDecl = true
  · cases stmt with
    | varDecl info decl =>
        refine yields_startsDeclaration written ahead ?_
        simp only [if_true, Parser.yields_bind, Parser.yields_position, Parser.yields_freshId]
        have line : Cursor.contents { cursor with nextId := cursor.nextId + 1 } =
            decl.lineTokens ++ rest := ahead
        refine (yields_varDecl written line).mono fun found behind facts => ?_
        simp [facts.2, Stmt.bareWith, facts.1]
    | _ => cases declaration
  · have plain : stmt.isVarDecl = false := by simpa using declaration
    refine Stmt.yields_startsDeclaration_false written plain ahead ?_
    simp only [Bool.false_eq_true, if_false]
    exact reads.stmt shorter written plain (fun _ => apart) ahead

/-- A printed statement has a token. -/
theorem tokens_length_pos {stmt : Stmt} (written : stmt.Written) : 0 < stmt.tokens.length := by
  refine List.length_pos_iff.mpr fun empty => ?_
  have begins := Stmt.headKind_tokens_mem written []
  rw [empty] at begins
  exact absurd begins (by decide)

theorem headKind_tokensOfList_ne_else {stmts : List Stmt} (written : Stmt.WrittenList stmts)
    (closes : headKind rest ≠ .elseWord) :
    headKind (Stmt.tokensOfList stmts ++ rest) ≠ .elseWord := by
  cases stmts with
  | nil => simpa [Stmt.tokensOfList] using closes
  | cons first others =>
      intro same
      rw [Stmt.tokensOfList, List.append_assoc] at same
      exact absurd (same ▸ Stmt.headKind_tokens_mem written.1 _) (by decide)

theorem yields_blockStmt {info : StmtInfo} {stmts : List Stmt} {scope : Option ScopeId}
    (written : Stmt.WrittenList stmts)
    (ahead : cursor.contents = (Stmt.block info stmts scope).tokens ++ rest)
    (reads : ReadsStmtsBelow nested cursor.remaining) :
    Yields (Parser.blockStmt nested) cursor fun value behind =>
      value.bareWith Expr.bare = (Stmt.block info stmts scope).bareWith Expr.reread ∧
        behind.contents = rest := by
  simp only [Stmt.tokens, List.cons_append, List.append_assoc, List.nil_append] at ahead
  have front : Cursor.contents { cursor.advance with nextId := cursor.nextId + 1 } =
      Stmt.tokensOfList stmts ++ (.closeCurly, "\x7d") :: rest := by
    simp [ahead]
  simp only [Parser.blockStmt, Parser.yields_bind, Parser.yields_position, Parser.yields_freshId,
    Parser.yields_expect, Cursor.contents_withNextId, ahead, headKind_cons, true_and,
    Cursor.advance_withNextId]
  refine Parser.yields_rounds_of_invariant
    (fun collected inner => ∃ others, Stmt.WrittenList others ∧
      Stmt.bareListWith Expr.bare collected.reverse ++ Stmt.bareListWith Expr.reread others =
        Stmt.bareListWith Expr.reread stmts ∧
      inner.contents = Stmt.tokensOfList others ++ (.closeCurly, "\x7d") :: rest ∧
      inner.remaining < cursor.remaining)
    ?_ ⟨stmts, written, rfl, front, by simp [Cursor.remaining_eq, ahead]⟩
  rintro collected inner ⟨others, othersWritten, agreeing, same, shorter⟩
  cases others with
  | nil =>
      simp only [Stmt.tokensOfList, List.nil_append] at same
      simp only [Stmt.bareListWith, List.append_nil] at agreeing
      simp [same, Stmt.bareWith, agreeing]
  | cons first more =>
      simp only [Stmt.tokensOfList, List.append_assoc] at same
      have apart := headKind_tokensOfList_ne_else othersWritten.2
        (show headKind ((TokenKind.closeCurly, "\x7d") :: rest) ≠ .elseWord by simp)
      have begins := Stmt.headKind_tokens_mem othersWritten.1
        (Stmt.tokensOfList more ++ (.closeCurly, "\x7d") :: rest)
      simp only [Parser.yields_bind, Parser.yields_currentKind, same]
      split
      · next kind => exact absurd (kind ▸ begins) (by decide)
      · next kind => exact absurd (kind ▸ begins) (by decide)
      · simp only [Parser.yields_bind]
        refine (yields_bodyItem reads shorter othersWritten.1 apart same).mono
          fun found behind facts => ?_
        rcases facts with ⟨bare, follows⟩
        have fewer : behind.remaining < inner.remaining := by
          have some := tokens_length_pos othersWritten.1
          simp only [Cursor.remaining_eq, same, follows, List.length_append]
          omega
        simp only [Parser.yields_pure]
        refine ⟨fewer, more, othersWritten.2, ?_, follows, by omega⟩
        simpa [Stmt.bareListWith_append, Stmt.bareListWith, bare] using agreeing

/-- A printed statement is read when a reader for shorter ones is given. -/
theorem yields_stmtLevel {stmt : Stmt} (written : stmt.Written) (plain : stmt.isVarDecl = false)
    (apart : stmt.takesElse = true → headKind rest ≠ .elseWord)
    (ahead : cursor.contents = stmt.tokens ++ rest)
    (reads : ReadsStmtsBelow nested cursor.remaining) :
    Yields (Parser.stmtLevel nested) cursor fun value behind =>
      value.bareWith Expr.bare = stmt.bareWith Expr.reread ∧ behind.contents = rest := by
  simp only [Parser.stmtLevel, Parser.yields_bind, Parser.yields_currentKind]
  cases stmt with
  | varDecl => cases plain
  | assign assignment =>
      have kind : headKind cursor.contents = .identifier := by
        simp [ahead, Stmt.tokens, Assignment.tokens]
      simp only [kind]
      exact yields_nameStmt_assign written (by simpa [Stmt.tokens] using ahead)
  | fieldAssign info receiver used value =>
      have kind : headKind cursor.contents = .identifier := by
        simp only [ahead, Stmt.tokens, List.append_assoc, List.cons_append]
        exact (kinds_of_isPath written.2.1 _).1
      simp only [kind]
      exact yields_nameStmt_fieldAssign written ahead
  | call info expr =>
      have kind : headKind cursor.contents = .identifier := by
        simp only [ahead, Stmt.tokens, List.append_assoc]
        exact (kinds_of_isCall written.2.1 written.2.2 _).1
      simp only [kind]
      exact yields_nameStmt_call written ahead
  | ifThen =>
      have kind : headKind cursor.contents = .ifWord := by simp [ahead, Stmt.tokens]
      simp only [kind]
      exact yields_ifStmt_ifThen written (apart rfl) ahead reads
  | ifElse =>
      have kind : headKind cursor.contents = .ifWord := by simp [ahead, Stmt.tokens]
      simp only [kind]
      exact yields_ifStmt_ifElse written apart ahead reads
  | whileLoop =>
      have kind : headKind cursor.contents = .whileWord := by simp [ahead, Stmt.tokens]
      simp only [kind]
      exact yields_whileStmt written apart ahead reads
  | forLoop =>
      have kind : headKind cursor.contents = .forWord := by simp [ahead, Stmt.tokens]
      simp only [kind]
      exact yields_forStmt written apart ahead reads
  | ret info returned =>
      have kind : headKind cursor.contents = .retWord := by
        simp [ahead, Stmt.tokens, Return.tokens]
      have front : Cursor.contents { cursor with nextId := cursor.nextId + 1 } =
          returned.tokens ++ rest := ahead
      simp only [kind, Parser.returnStmt, Parser.yields_bind, Parser.yields_freshId]
      refine (yields_returnClause written front).mono fun found behind facts => ?_
      simp [facts.2, Stmt.bareWith, facts.1]
  | block =>
      have kind : headKind cursor.contents = .openCurly := by simp [ahead, Stmt.tokens]
      simp only [kind]
      exact yields_blockStmt written ahead reads

/-- Every statement that source text can write, other than a declaration, is
read back from its printed tokens, up to what becomes of its expressions. -/
theorem yields_stmt_of_spec (cursor : Cursor) (post : Stmt → Cursor → Prop)
    (spec : StmtSpec cursor post) : Yields Parser.stmt cursor post := by
  refine Parser.yields_nesting StmtSpec ?_ cursor post spec
  rintro cursor nested reads post ⟨stmt, rest, written, plain, apart, ahead, implies⟩
  exact (yields_stmtLevel written plain apart ahead reads).mono
    fun value behind facts => implies value behind facts.1 facts.2

end KnightFront
