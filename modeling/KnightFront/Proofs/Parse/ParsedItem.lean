import KnightFront.Parse.Item
import KnightFront.Proofs.Parse.ParsedStmt

namespace KnightFront

/-!
# What a declaration reader returns

Every file that is accepted can be written by source text.  Its names are
identifiers and none is bound, declarations stand only where they may, and a
return at the end of a function is kept apart from the body.
-/

open KnightFront.Parser (Ensures)

variable {cursor : Cursor}

namespace Parser

theorem ensures_param (lexed : cursor.Lexed) :
    Ensures param cursor fun found behind => found.Written ∧ behind.Lexed := by
  simp only [param, ensures_bind]
  refine (ensures_typeName lexed).mono fun found behind facts => ?_
  simp only [ensures_expect, ensures_pure]
  intro kind
  exact ⟨⟨facts.1, facts.2.isIdentifier kind⟩, facts.2.advance⟩

theorem ensures_functionHead (lexed : cursor.Lexed) :
    Ensures functionHead cursor fun head behind => head.Written ∧ behind.Lexed := by
  simp only [functionHead, params, ensures_bind, ensures_expect]
  intro _ kind _
  have name := lexed.advance.isIdentifier kind
  refine (ensures_listUpTo (fun _ => ensures_param) lexed.advance.advance.advance).mono
    fun found behind facts => ?_
  rcases facts with ⟨paramsWritten, behindLexed⟩
  simp only [ensures_pure]
  intro _ _
  refine (ensures_typeName behindLexed.advance.advance).mono fun returned further facts => ?_
  exact ⟨⟨name, paramsWritten, facts.1⟩, facts.2⟩

/-- A body that ends without a return of its own does not end in a return
statement. -/
theorem ensures_functionBody (lexed : cursor.Lexed) :
    Ensures functionBody cursor fun found behind =>
      (∀ stmt ∈ found.1, stmt.Written) ∧ (∀ returned ∈ found.2, returned.Written) ∧
        (found.2 = none → ∀ stmt ∈ found.1.getLast?, stmt.isRet = false) ∧ behind.Lexed := by
  refine ensures_rounds
    (fun collected inner => (∀ stmt ∈ collected, Stmt.Written stmt) ∧
      (headKind inner.contents = .closeCurly → ∀ stmt ∈ collected.head?, stmt.isRet = false) ∧
      inner.Lexed)
    ?_ ⟨by simp, by simp, lexed⟩
  rintro collected inner ⟨held, closes, innerLexed⟩
  simp only [ensures_bind, ensures_currentKind]
  split
  · next kind => simpa using ⟨held, closes kind, innerLexed⟩
  · simp
  · have lexedNext : Cursor.Lexed { inner with nextId := inner.nextId + 1 } := innerLexed
    simp only [ensures_bind, ensures_freshId]
    refine (ensures_returnClause lexedNext).mono fun returned behind facts => ?_
    simp only [ensures_currentKind]
    split
    · simpa using ⟨held, facts⟩
    · next kind =>
        simp only [ensures_pure]
        exact ⟨List.forall_mem_cons.mpr ⟨facts.1, held⟩, fun same => absurd same kind, facts.2⟩
  · next noReturn =>
      simp only [ensures_bind, ensures_pure]
      refine (ensures_bodyItem ensures_stmt innerLexed).mono fun stmt behind facts => ?_
      rcases facts with ⟨written, isRet, behindLexed⟩
      refine ⟨List.forall_mem_cons.mpr ⟨written, held⟩, fun _ => ?_, behindLexed⟩
      simpa using isRet noReturn

theorem ensures_function (lexed : cursor.Lexed) :
    Ensures function cursor fun decl behind => decl.Written ∧ behind.Lexed := by
  have lexedNext : Cursor.Lexed { cursor with nextId := cursor.nextId + 1 } := lexed
  simp only [function, ensures_bind, ensures_freshId]
  refine (ensures_functionHead lexedNext).mono fun head behind facts => ?_
  rcases facts with ⟨headWritten, behindLexed⟩
  simp only [ensures_expect]
  intro _
  refine (ensures_functionBody behindLexed.advance).mono fun found further facts => ?_
  rcases facts with ⟨body, closing, closes, furtherLexed⟩
  simp only [ensures_pure]
  intro _
  exact ⟨⟨headWritten, body, closing, closes⟩, furtherLexed.advance⟩

theorem ensures_inclusion (lexed : cursor.Lexed) :
    Ensures inclusion cursor fun decl behind => IsIdentifier decl.name ∧ behind.Lexed := by
  simp only [inclusion, ensures_bind, ensures_expect, ensures_spanFrom, ensures_pure]
  intro _ _ kind _
  exact ⟨lexed.advance.advance.isIdentifier kind, lexed.advance.advance.advance.advance⟩

theorem ensures_enumMembers (lexed : cursor.Lexed) :
    Ensures enumMembers cursor fun members behind =>
      (∀ member ∈ members, IsIdentifier member.1) ∧ behind.Lexed := by
  refine ensures_rounds
    (fun collected inner => (∀ member ∈ collected, IsIdentifier (Prod.fst member)) ∧ inner.Lexed)
    ?_ ⟨by simp, lexed⟩
  rintro collected inner ⟨held, innerLexed⟩
  simp only [ensures_bind, ensures_currentKind]
  split
  · next kind =>
      have longer : ∀ member ∈ (inner.current.value, inner.current.span) :: collected,
          IsIdentifier (Prod.fst member) :=
        List.forall_mem_cons.mpr ⟨innerLexed.isIdentifier kind, held⟩
      simp only [ensures_bind, ensures_take, ensures_currentKind]
      split
      · simpa only [ensures_bind, ensures_take, ensures_pure] using
          ⟨longer, innerLexed.advance.advance⟩
      · simpa only [ensures_pure, List.mem_reverse] using ⟨longer, innerLexed.advance⟩
  · simpa only [ensures_pure, List.mem_reverse] using ⟨held, innerLexed⟩

theorem ensures_enumeration (lexed : cursor.Lexed) :
    Ensures enumeration cursor fun decl behind =>
      IsIdentifier decl.name ∧ (∀ member ∈ decl.members, IsIdentifier member.1) ∧
        behind.Lexed := by
  simp only [enumeration, ensures_bind, ensures_expect]
  intro _ kind _
  refine (ensures_enumMembers lexed.advance.advance.advance).mono fun members behind facts => ?_
  simp only [ensures_pure]
  intro _
  exact ⟨lexed.advance.isIdentifier kind, facts.1, facts.2.advance⟩

theorem ensures_nameUse (lexed : cursor.Lexed) :
    Ensures nameUse cursor fun used behind => used.Written ∧ behind.Lexed := by
  simp only [nameUse, ensures_bind, ensures_expect, ensures_pure]
  intro kind
  exact ⟨⟨lexed.isIdentifier kind, rfl⟩, lexed.advance⟩

theorem ensures_nameClause (keyword : TokenKind) (lexed : cursor.Lexed) :
    Ensures (nameClause keyword) cursor fun names behind =>
      (∀ used ∈ names, used.Written) ∧ behind.Lexed := by
  simp only [nameClause, ensures_bind, ensures_currentKind]
  split
  · simp only [ensures_bind, ensures_take]
    exact ensures_commaSeparated (fun _ => ensures_nameUse) lexed.advance
  · simpa using lexed

theorem ensures_interfaceMethods (lexed : cursor.Lexed) :
    Ensures interfaceMethods cursor fun methods behind =>
      (∀ head ∈ methods, head.Written) ∧ behind.Lexed := by
  refine ensures_rounds
    (fun collected inner => (∀ head ∈ collected, FunctionHead.Written head) ∧ inner.Lexed)
    ?_ ⟨by simp, lexed⟩
  rintro collected inner ⟨held, innerLexed⟩
  simp only [ensures_bind, ensures_currentKind]
  split
  · simp only [ensures_bind]
    refine (ensures_functionHead innerLexed).mono fun head behind facts => ?_
    simp only [ensures_expect, ensures_pure]
    intro _
    exact ⟨List.forall_mem_cons.mpr ⟨facts.1, held⟩, facts.2.advance⟩
  · simpa using ⟨held, innerLexed⟩

theorem ensures_interface (lexed : cursor.Lexed) :
    Ensures interface cursor fun decl behind => decl.Written ∧ behind.Lexed := by
  simp only [interface, ensures_bind, ensures_expect]
  intro _ kind
  refine (ensures_nameClause _ lexed.advance.advance).mono fun bases behind facts => ?_
  rcases facts with ⟨basesWritten, behindLexed⟩
  intro _
  refine (ensures_interfaceMethods behindLexed.advance).mono fun methods further facts => ?_
  simp only [ensures_pure]
  intro _
  exact ⟨⟨lexed.advance.isIdentifier kind, basesWritten, facts.1⟩, facts.2.advance⟩

theorem ensures_parentClause (lexed : cursor.Lexed) :
    Ensures parentClause cursor fun parent behind =>
      (∀ used ∈ parent, used.Written) ∧ behind.Lexed := by
  simp only [parentClause, ensures_bind, ensures_currentKind]
  split
  · simp only [ensures_bind, ensures_take, ensures_pure]
    exact (ensures_nameUse lexed.advance).mono fun used behind facts => by simpa using facts
  · simpa using lexed

theorem ensures_classMembers (lexed : cursor.Lexed) :
    Ensures classMembers cursor fun members behind =>
      (∀ field ∈ members.1, field.Written) ∧ (∀ method ∈ members.2, method.Written) ∧
        behind.Lexed := by
  refine ensures_rounds
    (fun collected inner => (∀ field ∈ collected.1, VarDecl.Written field) ∧
      (∀ method ∈ collected.2, FunctionDecl.Written method) ∧ inner.Lexed)
    ?_ ⟨by simp, by simp, lexed⟩
  rintro ⟨fields, methods⟩ inner ⟨fieldsHeld, methodsHeld, innerLexed⟩
  simp only [ensures_bind, ensures_currentKind]
  split
  · simpa using ⟨fieldsHeld, methodsHeld, innerLexed⟩
  · simp only [ensures_bind, ensures_pure]
    refine (ensures_function innerLexed).mono fun method behind facts => ?_
    exact ⟨fieldsHeld, List.forall_mem_cons.mpr ⟨facts.1, methodsHeld⟩, facts.2⟩
  · simp only [ensures_bind]
    refine (ensures_startsDeclaration inner).mono fun declares same behind => ?_
    subst behind
    split
    · simp only [ensures_bind, ensures_pure]
      refine (ensures_varDecl innerLexed).mono fun field behind facts => ?_
      exact ⟨List.forall_mem_cons.mpr ⟨facts.1, fieldsHeld⟩, methodsHeld, facts.2⟩
    · simp

theorem ensures_classDecl (lexed : cursor.Lexed) :
    Ensures classDecl cursor fun decl behind => decl.Written ∧ behind.Lexed := by
  simp only [classDecl, ensures_bind, ensures_expect]
  intro _ kind
  refine (ensures_parentClause lexed.advance.advance).mono fun parent behind facts => ?_
  rcases facts with ⟨parentWritten, behindLexed⟩
  refine (ensures_nameClause _ behindLexed).mono fun uses further facts => ?_
  rcases facts with ⟨usesWritten, furtherLexed⟩
  intro _
  refine (ensures_classMembers furtherLexed.advance).mono fun members last facts => ?_
  rcases facts with ⟨fieldsWritten, methodsWritten, lastLexed⟩
  simp only [ensures_pure]
  intro _
  exact ⟨⟨lexed.advance.isIdentifier kind, parentWritten, usesWritten, fieldsWritten,
    methodsWritten⟩, lastLexed.advance⟩

theorem ensures_item (lexed : cursor.Lexed) :
    Ensures item cursor fun found behind => found.Written ∧ behind.Lexed := by
  simp only [item, ensures_bind, ensures_currentKind]
  split
  · simp only [ensures_bind, ensures_pure]
    exact ensures_inclusion lexed
  · simp only [ensures_bind, ensures_pure]
    exact (ensures_enumeration lexed).mono fun decl behind facts =>
      ⟨⟨facts.1, facts.2.1⟩, facts.2.2⟩
  · simp only [ensures_bind, ensures_pure]
    exact ensures_interface lexed
  · simp only [ensures_bind, ensures_pure]
    exact ensures_classDecl lexed
  · simp only [ensures_bind, ensures_pure]
    exact ensures_function lexed
  · simp only [ensures_bind]
    refine (ensures_startsDeclaration cursor).mono fun declares inner same => ?_
    subst same
    split
    · simp only [ensures_bind, ensures_pure]
      exact ensures_varDecl lexed
    · simp

theorem ensures_items (lexed : cursor.Lexed) :
    Ensures items cursor fun found _ => ∀ item ∈ found, item.Written := by
  refine ensures_rounds
    (fun collected inner => (∀ item ∈ collected, Item.Written item) ∧ inner.Lexed)
    ?_ ⟨by simp, lexed⟩
  rintro collected inner ⟨held, innerLexed⟩
  simp only [ensures_bind, ensures_currentKind]
  split
  · simpa using held
  · simp only [ensures_bind, ensures_pure]
    refine (ensures_item innerLexed).mono fun found behind facts => ?_
    exact ⟨List.forall_mem_cons.mpr ⟨facts.1, held⟩, facts.2⟩

end Parser

/-- Every file that is accepted can be written. -/
theorem Program.written_ofSource {file source : String} {program : Program}
    (accepted : ofSource file source = .ok program) : program.Written := by
  unfold ofSource at accepted
  split at accepted
  · cases accepted
  · next tokens tokenized =>
      unfold ofTokens at accepted
      split at accepted
      · cases accepted
      · next items behind read =>
          cases accepted
          have lexed : (Cursor.ofTokens tokens).Lexed :=
            TokenStream.lexed_ofTokens (lexed_of_tokensFrom tokenized)
          exact Parser.ensures_items lexed items behind read

end KnightFront
