import KnightFront.Parse.Stmt
import KnightFront.Proofs.Grammar.Alternatives
import KnightFront.Proofs.Grammar.ReadsPath

namespace KnightFront
namespace Grammar

/-!
# Reading statements

A statement is told by its first token, and behind a name by the second one.
A statement that ends with a condition reads on if an alternative follows, so
it is read completely in front of anything but an alternative.
-/

open KnightFront.Parser (Ensures Yields)
open Form (name)

variable {cursor : Cursor} {nested : Parser Stmt} {limit : Nat}
variable {ahead middle behind rest : List TokenContent} {follow : TokenKind → Prop}

/-- Whether a declaration of a variable is ahead. -/
def declares (contents : List TokenContent) : Bool :=
  headKind contents ∈ [.intWord, .stringWord, .boolWord, .voidWord] ∨
    headKind contents = .identifier ∧ headKind contents.tail = .identifier

theorem startsDeclaration_eq (cursor : Cursor) :
    Parser.startsDeclaration cursor = .ok (declares cursor.contents, cursor) := by
  have yields : Yields Parser.startsDeclaration cursor fun found behind =>
      found = declares cursor.contents ∧ behind = cursor := by
    simp only [Parser.startsDeclaration, Parser.yields_bind, Parser.yields_currentKind]
    split
    · next kind => simp [declares, kind]
    · next kind => simp [declares, kind]
    · next kind => simp [declares, kind]
    · next kind => simp [declares, kind]
    · next kind => simp [declares, kind]
    · next notInt notString notBool notVoid notName =>
        simpa [declares] using ⟨⟨notInt, notString, notBool, notVoid⟩, fun name => (notName name).elim⟩
  rcases yields with ⟨found, behind, read, rfl, rfl⟩
  exact read

theorem reads_bind_startsDeclaration {β : Type} {next : Bool → Parser β} {form : Form}
    {holds : β → Prop} :
    Reads (Parser.startsDeclaration >>= next) cursor form follow holds ↔
      Reads (next (declares cursor.contents)) cursor form follow holds :=
  reads_bind_of_ok (startsDeclaration_eq cursor) rfl

theorem declares_of_varDecl (between : Between .accepted (.phrase .varDecl) ahead behind) :
    declares ahead = true := by
  have typed : Between .accepted (.phrase .type ++ (name ++ (Form.optional
      (.token .assignment ++ .phrase .expr) ++ .token .semicolon))) ahead behind := by
    simpa only [Phrase.rule, between_append_assoc] using between_phrase.mp between
  rcases between_append.mp typed with ⟨middle, type, next⟩
  have named := List.mem_singleton.mp (Begins.token.append _ _ next)
  have starts : headKind ahead ∈ [TokenKind.intWord, .stringWord, .boolWord, .voidWord] ++ [TokenKind.identifier] :=
    begins_type _ _ type
  rcases List.mem_append.mp starts with word | isName
  · simp [declares, word]
  · replace isName := List.mem_singleton.mp isName
    have alone : ahead.tail = middle := by
      simpa [between_phrase, Phrase.rule, between_token, name, isName] using type
    simp [declares, isName, alone, named]

theorem reads_varDecl : Reads Parser.varDecl cursor (.phrase .varDecl) anything := by
  simp only [Parser.varDecl, reads_phrase, Phrase.rule, reads_append_assoc]
  refine .before reads_typeName (Begins.token.append.fits (by decide)) fun typed _ => ?_
  refine Reads.step (reads_expect (by decide)) fun named _ => ?_
  simp only [reads_bind_currentKind, pure_bind]
  split
  · next found =>
      refine Reads.presentThen ?_ (by simp [between_token, found])
      rw [reads_append_assoc]
      refine (reads_take found (by decide)).step fun sign _ => ?_
      refine .before reads_expr (Begins.token.fits (by decide)) fun value _ => ?_
      refine Reads.ending (reads_expect (by decide)) fun semicolon _ => ?_
      simp
  · next other =>
      refine Reads.absentThen ?_ (by simp [between_token, other])
      refine Reads.ending (reads_expect (by decide)) fun semicolon _ => ?_
      simp

/-- An assignment to a variable or an array element. -/
theorem reads_assignment :
    Reads Parser.assignment cursor (.phrase .assign ||| .phrase .arrayAssign) EndsExpr := by
  suffices reads : Reads Parser.assignment cursor
      (name ++ (.token .assignment ++ .phrase .expr |||
        .token .openBracket ++ (.phrase .expr ++ (.token .closeBracket ++
          (.token .assignment ++ .phrase .expr))))) EndsExpr by
    refine reads.same fun rest => ?_
    rw [between_or, between_phrase, between_phrase]
    simp only [Phrase.rule, between_append_assoc]
    simp only [between_append, between_or, and_or_left, exists_or]
  simp only [Parser.assignment, reads_bind_position, reads_bind_freshId]
  refine Reads.step (reads_expect (by decide)) fun target _ => ?_
  simp only [reads_bind_currentKind, pure_bind]
  split
  · next found =>
      refine Reads.right ?_ (by simp [between_token, found])
      refine (reads_take found (by decide)).step fun opening _ => ?_
      refine .before reads_expr (Begins.token.append.fits (by decide)) fun index _ => ?_
      refine Reads.step (reads_expect (by decide)) fun closing _ => ?_
      refine Reads.step (reads_expect (by decide)) fun sign _ => ?_
      refine .ending reads_expr fun value _ => ?_
      simp
  · next other =>
      refine Reads.left ?_ fun _ between => by simp [between_token, other] at between
      refine Reads.step (reads_expect (by decide)) fun sign _ => ?_
      refine .ending reads_expr fun value _ => ?_
      simp

theorem reads_returnClause : Reads Parser.returnClause cursor (.phrase .ret) anything := by
  simp only [Parser.returnClause, reads_phrase, Phrase.rule, reads_append_assoc]
  refine Reads.step (reads_expect (by decide)) fun keyword _ => ?_
  simp only [reads_bind_currentKind, pure_bind]
  split
  · next found =>
      refine Reads.absentThen ?_ fun _ => begins_expr.excludes found (by decide)
      refine Reads.ending (reads_expect (by decide)) fun semicolon _ => ?_
      simp
  · next other =>
      refine Reads.presentThen ?_ (by simp [between_token, other])
      refine .before reads_expr (Begins.token.fits (by decide)) fun value _ => ?_
      refine Reads.ending (reads_expect (by decide)) fun semicolon _ => ?_
      simp

theorem reads_condition : Reads Parser.condition cursor (.phrase .condition) anything := by
  simp only [Parser.condition, reads_phrase, Phrase.rule, reads_append_assoc]
  refine Reads.step (reads_expect (by decide)) fun opening _ => ?_
  refine .before reads_expr (Begins.token.fits (by decide)) fun tested _ => ?_
  refine Reads.ending (reads_expect (by decide)) fun closing _ => ?_
  simp

/-- An assignment to a variable or an array element is told by the token behind
the name. -/
theorem next_of_assignment
    (between : Between .accepted (.phrase .assign ||| .phrase .arrayAssign) ahead behind) :
    headKind ahead.tail = .assignment ∨ headKind ahead.tail = .openBracket := by
  rcases between_or.mp between with assign | arrayAssign
  · rw [between_phrase, Phrase.rule, between_append_assoc] at assign
    rcases between_append.mp assign with ⟨middle, named, next⟩
    rw [((between_token (by decide) (by decide)).mp named).2]
    exact .inl (List.mem_singleton.mp (Begins.token.append _ _ next))
  · rw [between_phrase] at arrayAssign
    simp only [Phrase.rule, between_append_assoc] at arrayAssign
    rcases between_append.mp arrayAssign with ⟨middle, named, next⟩
    rw [((between_token (by decide) (by decide)).mp named).2]
    exact .inr (List.mem_singleton.mp (Begins.token.append _ _ next))

/-- What else begins with a name: a row behind which an assignment or a
semicolon stands. -/
def rowStatement : Form := .phrase .fieldAssign ||| .phrase .call ++ .token .semicolon

theorem next_of_rowStatement (between : Between .accepted rowStatement ahead behind) :
    headKind ahead.tail = .openParen ∨ headKind ahead.tail = .dot := by
  rcases between_or.mp between with field | call
  · rw [between_phrase] at field
    simp only [Phrase.rule, between_append_assoc] at field
    rcases between_append.mp field with ⟨_, target, -⟩
    exact (between_fieldTarget_iff.mp target).next_of_row (.inl rfl)
  · rcases between_append.mp call with ⟨_, call, -⟩
    rcases between_call_iff.mp call with ⟨_, row⟩
    exact row.next_of_row (.inr rfl)

/-- Behind the expression that a statement begins with, its tree decides how
the statement goes on. -/
theorem reads_bind_expr_row {β : Type} {next : Expr → Parser β}
    (found : headKind cursor.contents = .identifier)
    (field : ∀ first behind, first.isField = true → Reads (next first) behind
      (.token .assignment ++ (.phrase .expr ++ .token .semicolon)) anything)
    (call : ∀ first behind, first.isCall = true →
      Reads (next first) behind (.token .semicolon) anything)
    (fails : ∀ first behind, first.isField = false → first.isCall = false →
      Ensures (next first) behind fun _ _ => False) :
    Reads (Parser.expr >>= next) cursor rowStatement anything := by
  have assigned {rest : List TokenContent} :
      Between .accepted (.phrase .fieldAssign) cursor.contents rest ↔
        ∃ middle, Between .accepted (row true false) cursor.contents middle ∧
          Between .accepted (.token .assignment ++ (.phrase .expr ++ .token .semicolon)) middle rest := by
    rw [between_phrase]
    simp only [Phrase.rule, between_append_assoc]
    rw [between_append]
    simp only [between_fieldTarget_iff]
  constructor
  · rw [Parser.ensures_bind]
    refine (ensures_expr_row found).mono fun first behind facts => ?_
    rcases facts with isOpen | ⟨isDotted, called, row, isCall, isField⟩
    · have neither : first.isField = false ∧ first.isCall = false := by
        cases first <;> first | exact ⟨rfl, rfl⟩ | cases isOpen
      exact (fails first behind neither.1 neither.2).mono fun _ _ never => never.elim
    · cases called with
      | true =>
          refine (call first behind isCall).sound.mono fun _ further facts => ⟨?_, trivial⟩
          exact between_or.mpr (.inr ((between_call_iff.mpr ⟨_, row⟩).append facts.1))
      | false =>
          cases isDotted with
          | true =>
              refine (field first behind isField).sound.mono fun _ further facts => ⟨?_, trivial⟩
              exact between_or.mpr (.inl (assigned.mpr ⟨_, row, facts.1⟩))
          | false => exact (fails first behind isField isCall).mono fun _ _ never => never.elim
  · intro rest between _
    rw [Parser.yields_bind]
    rcases between_or.mp between with fieldAssign | callStatement
    · rcases assigned.mp fieldAssign with ⟨middle, row, others⟩
      have isNext := List.mem_singleton.mp (Begins.token.append _ _ others)
      refine (yields_expr_row row (by rw [isNext]; decide)).mono fun first behind facts => ?_
      rcases facts with ⟨⟨-, isField⟩, rfl⟩
      exact (field first behind isField).complete rest others trivial
    · rcases between_append.mp callStatement with ⟨middle, isCall, others⟩
      rcases between_call_iff.mp isCall with ⟨_, row⟩
      have isNext := List.mem_singleton.mp (Begins.token _ _ others)
      refine (yields_expr_row row (by rw [isNext]; decide)).mono fun first behind facts => ?_
      rcases facts with ⟨⟨valueIsCall, -⟩, rfl⟩
      exact (call first behind valueIsCall).complete rest others trivial

theorem between_nameStatement_iff :
    Between .accepted nameStatement ahead behind ↔
      Between .accepted ((.phrase .assign ||| .phrase .arrayAssign) ++ .token .semicolon |||
        rowStatement) ahead behind := by
  simp only [nameStatement, rowStatement, between_or, between_append, or_and_right, exists_or,
    or_assoc]

/-- A statement that begins with a name is told by the token behind it. -/
theorem next_of_nameStatement (between : Between .accepted nameStatement ahead behind) :
    headKind ahead.tail ∈ [.assignment, .openBracket, .openParen, .dot] := by
  rcases between_or.mp (between_nameStatement_iff.mp between) with assigned | row
  · rcases between_append.mp assigned with ⟨_, assigned, -⟩
    rcases next_of_assignment assigned with next | next <;> simp [next]
  · rcases next_of_rowStatement row with next | next <;> simp [next]

theorem reads_nameStmt (found : headKind cursor.contents = .identifier) :
    Reads Parser.nameStmt cursor nameStatement anything := by
  refine Reads.same ?_ fun rest => between_nameStatement_iff.symm
  simp only [Parser.nameStmt, reads_bind_nextKind]
  split
  · next isAssignment =>
      refine Reads.left ?_ fun rest between => ?_
      · refine .before reads_assignment (Begins.token.fits (by decide)) fun assigned _ => ?_
        refine Reads.ending (reads_expect (by decide)) fun semicolon _ => ?_
        simp
      · have next := next_of_rowStatement between
        rcases isAssignment with same | same <;> simp [same] at next
  · next other =>
      refine Reads.right ?_ fun rest between => ?_
      · simp only [reads_bind_position, reads_bind_freshId]
        refine reads_bind_expr_row (by simpa using found) ?_ ?_ ?_
        · intro first behind isField
          cases first <;> cases isField
          simp only [reads_bind_currentKind]
          split
          · next isNext =>
              refine (reads_take isNext (by decide)).step fun sign _ => ?_
              refine .before reads_expr (Begins.token.fits (by decide)) fun value _ => ?_
              refine Reads.ending (reads_expect (by decide)) fun semicolon _ => ?_
              simp
          · next isOther =>
              simp only [Expr.isCall, Bool.false_eq_true, if_false]
              refine reads_misplaced fun rest between => isOther ?_
              exact List.mem_singleton.mp (Begins.token.append _ _ between)
        · intro first behind isCall
          simp only [reads_bind_currentKind, isCall, if_true]
          split
          · next isNext =>
              split
              · cases isCall
              · exact reads_misplaced fun _ => Begins.token.excludes isNext (by decide)
          · refine Reads.ending (reads_expect (by decide)) fun semicolon _ => ?_
            simp
        · intro first behind isField isCall
          simp only [Parser.ensures_bind, Parser.ensures_currentKind, isCall]
          split
          · split
            · cases isField
            · simp
          · simp
      · rcases between_append.mp between with ⟨_, assigned, -⟩
        exact other (next_of_assignment assigned)

/-! ## Where statements begin -/

theorem begins_chain : Begins .accepted (.phrase .chain) [.identifier] :=
  .phrase begins_nameOrCall.append

theorem begins_assign {dialect : Dialect} : Begins dialect (.phrase .assign) [.identifier] :=
  .phrase (.append (.append .token))

theorem begins_arrayAssign {dialect : Dialect} :
    Begins dialect (.phrase .arrayAssign) [.identifier] :=
  .phrase (.append (.append (.append (.append (.append .token)))))

theorem begins_fieldAssign : Begins .accepted (.phrase .fieldAssign) [.identifier] :=
  .phrase (.append (.append (.append (.phrase (.append (.append begins_chain))))))

theorem begins_call : Begins .accepted (.phrase .call) [.identifier] :=
  .mono (.phrase (.append (.optionalAppend (.append begins_chain) .token))) (by decide)

theorem begins_nameStatement : Begins .accepted nameStatement [.identifier] :=
  .mono (((begins_assign.append.or begins_arrayAssign.append).or begins_fieldAssign).or
    begins_call.append) (by decide)

/-- The kinds that begin a statement. -/
def stmtKinds : List TokenKind :=
  [.openCurly, .retWord, .identifier, .ifWord, .whileWord, .forWord]

theorem begins_block {dialect : Dialect} : Begins dialect (.phrase .block) [.openCurly] :=
  .phrase (.append (.append .token))

theorem begins_ret {dialect : Dialect} : Begins dialect (.phrase .ret) [.retWord] :=
  .phrase (.append (.append .token))

theorem begins_plainStatement :
    Begins .accepted plainStatement [.openCurly, .retWord, .identifier] :=
  (begins_block.or begins_ret).or begins_nameStatement

theorem begins_statement : Begins .accepted (.phrase .statement) stmtKinds := by
  intro ahead behind between
  rcases between_statement_iff.mp between with plain | ⟨_, head, -⟩ | ⟨_, head, -⟩
  · have starts := begins_plainStatement _ _ plain
    exact List.mem_append_left [.ifWord, .whileWord, .forWord] starts
  · rw [List.mem_singleton.mp (Begins.token.append _ _ head)]
    decide
  · have starts := begins_loopHead _ _ head
    exact List.mem_append_right [.openCurly, .retWord, .identifier, .ifWord] starts

theorem declares_eq_false (other : headKind ahead ∉ typeKinds) : declares ahead = false := by
  simp only [typeKinds, List.mem_cons, List.not_mem_nil, or_false, not_or] at other
  simp [declares, other]

/-- A statement does not begin like a declaration. -/
theorem declares_of_statement (between : Between .accepted (.phrase .statement) ahead behind) :
    declares ahead = false := by
  by_cases isName : headKind ahead = .identifier
  · have next : headKind ahead.tail ∈ [.assignment, .openBracket, .openParen, .dot] := by
      rcases between_statement_iff.mp between with plain | ⟨_, head, -⟩ | ⟨_, head, -⟩
      · rcases between_or.mp plain with blockOrRet | named
        · exact absurd blockOrRet ((begins_block.or begins_ret).excludes isName (by decide))
        · exact next_of_nameStatement named
      · exact absurd head (Begins.token.append.excludes isName (by decide))
      · exact absurd head (begins_loopHead.excludes isName (by decide))
    have other : headKind ahead.tail ≠ .identifier := fun same => by simp [same] at next
    simp [declares, isName, other]
  · refine declares_eq_false fun isType => ?_
    have starts := begins_statement _ _ between
    simp only [stmtKinds, typeKinds, List.mem_cons, List.not_mem_nil, isName] at starts isType
    grind

/-- A statement is read.  Only where it ends with a condition, an alternative
must not follow. -/
structure ReadsStatement (parser : Parser Stmt) (cursor : Cursor) : Prop where
  sound : Ensures parser cursor fun _ behind =>
    Between .accepted (.phrase .statement) cursor.contents behind.contents
  complete (takes : Bool) (rest : List TokenContent) :
    Nearest takes cursor.contents rest → (takes = true → headKind rest ≠ .elseWord) →
      Yields parser cursor fun _ behind => behind.contents = rest

theorem ReadsStatement.reads {parser : Parser Stmt} (reads : ReadsStatement parser cursor) :
    Reads parser cursor (.phrase .statement) (except .elseWord) where
  sound := reads.sound.mono fun _ _ between => ⟨between, trivial⟩
  complete rest between other := by
    rcases exists_nearest between with ⟨takes, nearest⟩
    exact reads.complete takes rest nearest fun _ => other

/-- A reader reads statements wherever fewer tokens are left than a limit. -/
def StatementsInside (nested : Parser Stmt) (limit : Nat) : Prop :=
  ∀ inner : Cursor, inner.remaining < limit → ReadsStatement nested inner

theorem begins_varDecl {dialect : Dialect} : Begins dialect (.phrase .varDecl) typeKinds :=
  .phrase (.append (.append begins_type.append))

/-- The kinds that begin a declaration or a statement. -/
def bodyKinds : List TokenKind := typeKinds ++ stmtKinds

theorem begins_bodyItem : Begins .accepted (.phrase .bodyItem) bodyKinds :=
  .phrase (begins_varDecl.or begins_statement)

theorem reads_bodyItem (inside : StatementsInside nested limit) (fits : cursor.remaining < limit) :
    Reads (Parser.bodyItem nested) cursor (.phrase .bodyItem) (except .elseWord) := by
  rw [Parser.bodyItem, reads_bind_startsDeclaration, reads_phrase]
  cases declared : declares cursor.contents with
  | true =>
      simp only [if_true, reads_bind_position, reads_bind_freshId]
      refine Reads.left ?_ fun rest between => ?_
      · refine (reads_varDecl.mono fun _ _ => trivial).ending fun decl _ => ?_
        simp
      · exact absurd (declared.symm.trans (declares_of_statement between)) (by decide)
  | false =>
      simp only [Bool.false_eq_true, if_false]
      refine Reads.right (inside cursor fits).reads fun rest between => ?_
      exact absurd (declared.symm.trans (declares_of_varDecl between)) (by decide)

theorem reads_blockStmt (inside : StatementsInside nested limit) (fits : cursor.remaining ≤ limit) :
    Reads (Parser.blockStmt nested) cursor (.phrase .block) anything := by
  simp only [Parser.blockStmt, reads_bind_position, reads_bind_freshId, reads_phrase, Phrase.rule,
    reads_append_assoc]
  refine Reads.andThen (reads_expect (by decide)) fun _ behind _ opened => ?_
  have within : behind.remaining < limit := Nat.lt_of_lt_of_le (remaining_lt_of_token opened) fits
  refine Reads.before (reads_rounds_many (fun _ => True) begins_bodyItem (by decide)
    (by decide : ∀ kind ∈ bodyKinds, except .elseWord kind)
    (by rintro _ rfl; decide : ∀ kind, only .closeCurly kind → except .elseWord kind) ?_ trivial)
    (Begins.token.fits (by decide))
    fun stmts _ => Reads.ending (reads_expect (by decide)) fun closing _ => by simp
  intro collected inner _ shorter
  simp only [reads_bind_currentKind]
  split
  · next closed => exact .inl ⟨reads_pure.mpr trivial, by simp [closed, bodyKinds, typeKinds, stmtKinds]⟩
  · next ended =>
      refine .inr ⟨reads_misplaced fun _ => begins_bodyItem.excludes ended (by decide), ?_⟩
      simp [ended, only]
  · next notClosed _ =>
      refine .inr ⟨?_, notClosed⟩
      have items := reads_bodyItem inside (Nat.lt_of_le_of_lt shorter within)
      exact items.ending fun item _ => reads_pure.mpr trivial

/-! ## Conditions and loops -/

/-- A condition takes the alternative behind its body. -/
theorem readsStatement_ifStmt (inside : StatementsInside nested cursor.remaining)
    (found : headKind cursor.contents = .ifWord) :
    ReadsStatement (Parser.ifStmt nested) cursor := by
  have shorter {middle : List TokenContent}
      (head : Between .accepted (.token .ifWord ++ .phrase .condition) cursor.contents middle) :
      middle.length < cursor.remaining := by
    simpa only [Cursor.remaining_eq] using (Begins.append .token).length_lt (by decide) head
  constructor
  · simp only [Parser.ifStmt, Parser.ensures_bind, Parser.ensures_position, Parser.ensures_freshId,
      Parser.ensures_expect]
    intro _
    refine reads_condition.sound.mono fun _ first facts => ?_
    have head : Between .accepted (.token .ifWord ++ .phrase .condition) cursor.contents
        first.contents := (Between.token found (by decide)).append (by simpa using facts.1)
    have within := shorter head
    rw [← Cursor.remaining_eq] at within
    refine (inside first within).sound.mono fun _ second body => ?_
    simp only [Parser.ensures_currentKind]
    split
    · next word =>
        simp only [Parser.ensures_bind, Parser.ensures_take]
        have withinToo := Nat.lt_of_le_of_lt (Nat.le_trans second.remaining_advance_le
          (remaining_le_of_between body)) within
        refine (inside second.advance withinToo).sound.mono fun _ third alternative => ?_
        rw [Cursor.contents_advance] at alternative
        simpa using between_statement_iff.mpr
          (.inr (.inl ⟨_, head, _, body, .inr ⟨word, alternative⟩⟩))
    · simpa using between_statement_iff.mpr (.inr (.inl ⟨_, head, _, body, .inl rfl⟩))
  · intro takes rest nearest apart
    simp only [Parser.ifStmt, Parser.yields_bind, Parser.yields_position, Parser.yields_freshId,
      Parser.yields_expect, Cursor.contents_withNextId, found, true_and]
    cases nearest with
    | plain between => exact absurd between (begins_plainStatement.excludes found (by decide))
    | loop head => exact absurd head (begins_loopHead.excludes found (by decide))
    | @ifThen inner _ middle _ head body =>
        rcases between_append.mp head with ⟨_, word, tested⟩
        rw [← ((between_token (by decide) (by decide)).mp word).2] at tested
        refine (reads_condition.complete middle (by simpa using tested) trivial).mono
          fun _ first same => ?_
        subst same
        have within := shorter head
        rw [← Cursor.remaining_eq] at within
        refine ((inside first within).complete inner rest body fun _ => apart rfl).mono
          fun _ second same => ?_
        simp [same, apart rfl]
    | @ifElse _ _ middle further _ head body word alternative =>
        rcases between_append.mp head with ⟨_, isIf, tested⟩
        rw [← ((between_token (by decide) (by decide)).mp isIf).2] at tested
        refine (reads_condition.complete middle (by simpa using tested) trivial).mono
          fun _ first same => ?_
        subst same
        have within := shorter head
        rw [← Cursor.remaining_eq] at within
        refine ((inside first within).complete false further body fun never => by cases never).mono
          fun _ second same => ?_
        subst same
        have withinToo := Nat.lt_of_le_of_lt (Nat.le_trans second.remaining_advance_le
          (remaining_le_of_between body.between)) within
        simp only [Parser.yields_currentKind, word, if_true, Parser.yields_bind, Parser.yields_take]
        refine ((inside second.advance withinToo).complete takes rest
          (by simpa using alternative) apart).mono fun _ third same => ?_
        simp [same]

/-- Behind the head of a loop its body is read. -/
theorem readsStatement_of_loop {parser : Parser Stmt}
    (inside : StatementsInside nested cursor.remaining)
    (found : headKind cursor.contents ∈ [.whileWord, .forWord])
    (sound : (∀ first : Cursor, Between .accepted loopHead cursor.contents first.contents →
        Ensures nested first fun _ behind =>
          Between .accepted (.phrase .statement) cursor.contents behind.contents) →
      Ensures parser cursor fun _ behind =>
        Between .accepted (.phrase .statement) cursor.contents behind.contents)
    (complete : ∀ middle rest, Between .accepted loopHead cursor.contents middle →
      (∀ first : Cursor, first.contents = middle →
        Yields nested first fun _ behind => behind.contents = rest) →
      Yields parser cursor fun _ behind => behind.contents = rest) :
    ReadsStatement parser cursor := by
  have shorter {middle : List TokenContent}
      (head : Between .accepted loopHead cursor.contents middle) :
      middle.length < cursor.remaining := by
    simpa only [Cursor.remaining_eq] using begins_loopHead.length_lt (by decide) head
  constructor
  · refine sound fun first head => ?_
    have within := shorter head
    rw [← Cursor.remaining_eq] at within
    exact (inside first within).sound.mono fun _ _ body =>
      between_statement_iff.mpr (.inr (.inr ⟨_, head, body⟩))
  · intro takes rest nearest apart
    cases nearest with
    | plain between =>
        have starts := begins_plainStatement _ _ between
        simp only [List.mem_cons, List.not_mem_nil] at starts found
        grind
    | ifThen head | ifElse head =>
        have starts := Begins.token.append _ _ head
        simp only [List.mem_cons, List.not_mem_nil] at starts found
        grind
    | @loop _ _ middle _ head body =>
        refine complete middle rest head fun first same => ?_
        subst same
        have within := shorter head
        rw [← Cursor.remaining_eq] at within
        exact (inside first within).complete takes rest body apart

theorem readsStatement_whileStmt (inside : StatementsInside nested cursor.remaining)
    (found : headKind cursor.contents = .whileWord) :
    ReadsStatement (Parser.whileStmt nested) cursor := by
  refine readsStatement_of_loop inside (by simp [found]) ?_ ?_
  · intro body
    simp only [Parser.whileStmt, Parser.ensures_bind, Parser.ensures_position,
      Parser.ensures_freshId, Parser.ensures_expect]
    intro _
    refine reads_condition.sound.mono fun _ first facts => ?_
    have tested : Between .accepted (.phrase .condition) cursor.contents.tail first.contents := by
      simpa using facts.1
    have headed := (Between.token found (by decide)).append tested
    refine (body first (between_or.mpr (.inl headed))).mono ?_
    exact fun _ second whole => by simpa using whole
  · intro middle rest head body
    simp only [Parser.whileStmt, Parser.yields_bind, Parser.yields_position,
      Parser.yields_freshId, Parser.yields_expect, Cursor.contents_withNextId, found, true_and]
    have tested : Between .accepted (.phrase .condition) cursor.contents.tail middle := by
      rcases between_or.mp head with head | head
      · rcases between_append.mp head with ⟨_, word, tested⟩
        rwa [((between_token (by decide) (by decide)).mp word).2]
      · exact absurd head (begins_forHead.excludes found (by decide))
    refine (reads_condition.complete middle (by simpa using tested) trivial).mono
      fun _ first same => ?_
    exact (body first same).mono fun _ second same => by simpa using same

theorem between_forHead_iff :
    Between .accepted (.phrase .forHead) ahead behind ↔
      Between .accepted (.token .forWord ++ (.token .openParen ++ (.phrase .varDecl ++
        (.phrase .expr ++ (.token .semicolon ++
          ((.phrase .assign ||| .phrase .arrayAssign) ++ .token .closeParen)))))) ahead behind := by
  have update {ahead behind : List TokenContent} : Between .accepted (.phrase .update) ahead behind ↔
      Between .accepted (.phrase .assign ||| .phrase .arrayAssign) ahead behind := between_phrase
  rw [between_phrase]
  simp only [Phrase.rule, between_append_assoc]
  simp only [between_append, update]

theorem readsStatement_forStmt (inside : StatementsInside nested cursor.remaining)
    (found : headKind cursor.contents = .forWord) :
    ReadsStatement (Parser.forStmt nested) cursor := by
  refine readsStatement_of_loop inside (by simp [found]) ?_ ?_
  · intro body
    simp only [Parser.forStmt, Parser.ensures_bind, Parser.ensures_position,
      Parser.ensures_freshId, Parser.ensures_expect]
    intro _ opened
    rw [Parser.ensures_of_ok (startsDeclaration_eq _)]
    split
    · simp
    simp only [Parser.ensures_bind]
    refine reads_varDecl.sound.mono fun _ first declared => ?_
    refine reads_expr.sound.mono fun _ second tested => ?_
    simp only [Parser.ensures_expect, Parser.ensures_currentKind]
    intro separated
    split
    · simp
    simp only [Parser.ensures_bind]
    refine reads_assignment.sound.mono fun _ third updated => ?_
    simp only [Parser.ensures_expect]
    intro closed
    have head : Between .accepted (.phrase .forHead) cursor.contents third.advance.contents := by
      simp only [Cursor.contents_advance, Cursor.contents_withNextId, Cursor.advance_withNextId]
        at opened declared updated ⊢
      exact between_forHead_iff.mpr ((Between.token found (by decide)).append
        ((Between.token opened (by decide)).append
        (declared.1.append (tested.1.append ((Between.token separated (by decide)).append
          (updated.1.append (.token closed (by decide))))))))
    refine (body third.advance (between_or.mpr (.inr head))).mono fun _ fourth whole => ?_
    simpa using whole
  · intro middle rest head body
    rcases between_or.mp head with head | head
    · exact absurd head (Begins.token.append.excludes found (by decide))
    rcases between_append.mp (between_forHead_iff.mp head) with ⟨first, isFor, behindFor⟩
    rcases between_append.mp behindFor with ⟨second, opened, behindOpened⟩
    rcases between_append.mp behindOpened with ⟨third, declared, behindDeclared⟩
    rcases between_append.mp behindDeclared with ⟨fourth, tested, behindTested⟩
    rcases between_append.mp behindTested with ⟨fifth, separated, behindSeparated⟩
    rcases between_append.mp behindSeparated with ⟨sixth, updated, closed⟩
    rw [between_token (by decide) (by decide)] at isFor opened separated closed
    rcases isFor with ⟨-, rfl⟩
    rcases opened with ⟨opened, rfl⟩
    rcases separated with ⟨separated, rfl⟩
    simp only [Parser.forStmt, Parser.yields_bind, Parser.yields_position,
      Parser.yields_freshId, Parser.yields_expect, Cursor.contents_withNextId,
      Cursor.advance_withNextId, Cursor.contents_advance, found, opened, true_and,
      Parser.yields_of_ok (startsDeclaration_eq _), declares_of_varDecl declared,
      Bool.not_true, Bool.false_eq_true, if_false]
    refine (reads_varDecl.complete third (by simpa using declared) trivial).mono
      fun _ behindDecl same => ?_
    subst same
    refine (reads_expr.complete fourth tested (by rw [separated]; decide)).mono
      fun _ behindTest same => ?_
    subst same
    have named : headKind behindTest.contents.tail = .identifier :=
      List.mem_singleton.mp ((begins_assign.or begins_arrayAssign).mono (by decide) _ _ updated)
    simp only [Parser.yields_expect, separated, true_and, Parser.yields_currentKind,
      Cursor.contents_advance, named, ne_eq, not_true, if_false, Parser.yields_bind]
    refine (reads_assignment.complete sixth (by simpa using updated)
      (by rw [closed.1]; decide)).mono fun _ behindUpdate same => ?_
    subst same
    simp only [closed.1, true_and]
    refine (body behindUpdate.advance (by simpa using closed.2)).mono fun _ last same => ?_
    simpa using same

/-- A statement that ends with a token of its own is read. -/
theorem ReadsStatement.of_plain {parser : Parser Stmt}
    (reads : Reads parser cursor plainStatement anything)
    (other : headKind cursor.contents ∉ [.ifWord, .whileWord, .forWord]) :
    ReadsStatement parser cursor where
  sound := reads.sound.mono fun _ _ facts => between_statement_iff.mpr (.inl facts.1)
  complete takes rest nearest _ := by
    cases nearest with
    | plain between => exact reads.complete rest between trivial
    | ifThen head | ifElse head =>
        exact absurd (List.mem_cons.mpr (.inl (List.mem_singleton.mp
          (Begins.token.append _ _ head)))) other
    | loop head => exact absurd (List.mem_cons_of_mem _ (begins_loopHead _ _ head)) other

theorem ReadsStatement.congr {parser other : Parser Stmt} (same : parser cursor = other cursor)
    (reads : ReadsStatement other cursor) : ReadsStatement parser cursor := by
  constructor
  · simpa only [Ensures, same] using reads.sound
  · simpa only [Yields, same] using reads.complete

theorem readsStatement_stmtLevel (inside : StatementsInside nested cursor.remaining) :
    ReadsStatement (Parser.stmtLevel nested) cursor := by
  have looked {next : TokenKind → Parser Stmt}
      (reads : ReadsStatement (next (headKind cursor.contents)) cursor) :
      ReadsStatement (Parser.currentKind >>= next) cursor :=
    reads.congr (by rw [← cursor.kind_eq]; exact Parser.bind_of_ok rfl)
  refine looked ?_
  split
  · next found => exact readsStatement_ifStmt inside found
  · next found => exact readsStatement_whileStmt inside found
  · next found => exact readsStatement_forStmt inside found
  · next found =>
      refine .of_plain (.left (.right ?_ fun _ => begins_block.excludes found (by decide))
        fun _ between => absurd between (begins_nameStatement.excludes found (by decide)))
        (by simp [found])
      simp only [Parser.returnStmt, reads_bind_freshId]
      refine .ending reads_returnClause fun returned _ => ?_
      simp
  · next found =>
      refine .of_plain (.left (.left (reads_blockStmt inside (Nat.le_refl _))
        fun _ between => absurd between (begins_ret.excludes found (by decide)))
        fun _ between => absurd between (begins_nameStatement.excludes found (by decide)))
        (by simp [found])
  · next found =>
      exact .of_plain (.right (reads_nameStmt found)
        fun _ => (begins_block.or begins_ret).excludes found (by decide)) (by simp [found])
  · constructor
    · simp
    · intro takes rest nearest
      have starts := begins_statement _ _ nearest.between
      simp only [stmtKinds, List.mem_cons, List.not_mem_nil] at starts
      grind

/-- A statement is read. -/
theorem readsStatement_stmt (cursor : Cursor) : ReadsStatement Parser.stmt cursor := by
  induction size : cursor.remaining using Nat.strongRecOn generalizing cursor with
  | ind size inductionHypothesis =>
      have inside : StatementsInside (below cursor.remaining Parser.stmt) cursor.remaining := by
        intro inner shorter
        have same : below cursor.remaining Parser.stmt inner = Parser.stmt inner := by
          simp only [below, shorter, if_true]
        exact (inductionHypothesis inner.remaining (size ▸ shorter) inner rfl).congr same
      exact (readsStatement_stmtLevel inside).congr (nesting_eq _ _)

end Grammar
end KnightFront
