import KnightFront.Parse.Item
import KnightFront.Proofs.Printing.ReadStmt

namespace KnightFront

/-!
# Reading printed declarations

The tokens of a printed file are read as a file with the same declarations in
the same order, up to what becomes of the expressions in them.  Since a class
is printed with its fields before its methods, and each keep their own order,
nothing is lost where the source mixed them.
-/

open KnightFront.Parser (Yields)

variable {cursor : Cursor} {rest : List TokenContent}

theorem yields_param {param : Param} (written : param.Written)
    (ahead : cursor.contents = param.tokens ++ rest) :
    Yields Parser.param cursor fun found behind =>
      found.bare = param.bare ∧ behind.contents = rest := by
  simp only [Param.tokens, List.append_assoc, List.cons_append, List.nil_append] at ahead
  simp only [Parser.param, Parser.yields_bind]
  refine (yields_typeName written.ty (by simp) ahead).mono fun found behind facts => ?_
  rcases facts with ⟨ty, same⟩
  simp [same, Cursor.current_value same, ty, Param.bare]

/-- Parameters are read with their parentheses. -/
theorem yields_params {params : List Param} (written : ∀ param ∈ params, param.Written)
    (ahead : cursor.contents =
      (.openParen, "(") :: (commaTokens (params.map Param.tokens) ++ (.closeParen, ")") :: rest)) :
    Yields Parser.params cursor fun found behind =>
      found.map Param.bare = params.map Param.bare ∧ behind.contents = rest := by
  have inside : cursor.advance.contents =
      commaTokens (params.map Param.tokens) ++ (.closeParen, ")") :: rest := by
    simp [ahead]
  simp only [Parser.params, Parser.yields_bind, Parser.yields_expect, ahead, headKind_cons,
    true_and, Parser.listUpTo, Parser.yields_currentKind, inside]
  cases params with
  | nil => simp [ahead]
  | cons first others =>
      have opens : headKind (commaTokens ((first :: others).map Param.tokens) ++
          (.closeParen, ")") :: rest) ≠ .closeParen := by
        have begins : ∃ more, commaTokens ((first :: others).map Param.tokens) ++
            (.closeParen, ")") :: rest = first.ty.tokens ++ more := by
          cases others <;> simp [Param.tokens]
        rcases begins with ⟨more, begins⟩
        rw [begins]
        intro same
        exact absurd (same ▸ Ty.headKind_tokens_mem (written first List.mem_cons_self).ty more)
          (by decide)
      simp only [opens, if_false]
      have ends : headKind ((TokenKind.closeParen, ")") :: rest) ≠ .comma := by simp
      refine (Parser.yields_commaSeparated ends (by simp) (fun element member inner after _ _ front =>
        yields_param (written element member) front) inside).mono fun found behind facts => ?_
      simp [facts.1, facts.2]

theorem yields_functionHead {head : FunctionHead} (written : head.Written)
    (single : headKind rest ≠ .openBracket) (ahead : cursor.contents = head.tokens ++ rest) :
    Yields Parser.functionHead cursor fun found behind =>
      found.bare = head.bare ∧ behind.contents = rest := by
  simp only [FunctionHead.tokens, List.cons_append, List.append_assoc] at ahead
  have spelled : cursor.advance.current.value = head.name :=
    Cursor.current_value (by rw [Cursor.contents_advance, ahead]; rfl)
  have front : cursor.advance.advance.contents =
      (.openParen, "(") :: (commaTokens (head.params.map Param.tokens) ++ (.closeParen, ")") ::
        (.colon, ":") :: (head.returnTy.tokens ++ rest)) := by
    simp [ahead]
  simp only [Parser.functionHead, Parser.yields_bind, Parser.yields_expect, ahead, headKind_cons,
    Cursor.contents_advance, List.tail_cons, true_and]
  refine (yields_params written.params front).mono fun params behind facts => ?_
  rcases facts with ⟨paramsBare, same⟩
  have remains : behind.advance.contents = head.returnTy.tokens ++ rest := by simp [same]
  simp only [same, headKind_cons, true_and]
  refine (yields_typeName written.returnTy single remains).mono fun found further facts => ?_
  simp [facts.1, facts.2, FunctionHead.bare, paramsBare, spelled]

theorem readsStmtsBelow_stmt (limit : Nat) : ReadsStmtsBelow Parser.stmt limit :=
  fun inner post _ spec => yields_stmt_of_spec inner post spec

/-- Only a return begins like one. -/
theorem headKind_tokens_ne_ret {stmt : Stmt} (written : stmt.Written) (other : stmt.isRet = false)
    (rest : List TokenContent) : headKind (stmt.tokens ++ rest) ≠ .retWord := by
  have named : TokenKind.identifier ≠ .retWord := by decide
  cases stmt with
  | varDecl info decl =>
      intro same
      exact absurd (same ▸ VarDecl.headKind_lineTokens_mem written rest) (by decide)
  | fieldAssign info receiver used value =>
      simp only [Stmt.tokens, List.append_assoc, List.cons_append, kinds_of_isPath written.2.1]
      exact named
  | call info expr =>
      rw [Stmt.tokens, List.append_assoc, (kinds_of_isCall written.2.1 written.2.2 _).1]
      exact named
  | ret => cases other
  | _ => simp [Stmt.tokens, Assignment.tokens]

/-- Statements that do not end in a return do not do so behind the first. -/
theorem isRet_getLast?_of_cons {first : Stmt} {more : List Stmt}
    (closes : ∀ stmt ∈ (first :: more).getLast?, stmt.isRet = false) :
    ∀ stmt ∈ more.getLast?, stmt.isRet = false := by
  intro stmt member
  apply closes
  cases more with
  | nil => cases member
  | cons second others => simpa [List.getLast?_cons_cons] using member

/-- Behind a return that does not close the body, the body goes on. -/
theorem headKind_behind_ret_ne_close {info : StmtInfo} {returned : Return} {more : List Stmt}
    {closing : Option Return} (written : Stmt.WrittenList more)
    (closes : closing = none →
      ∀ stmt ∈ (.ret info returned :: more : List Stmt).getLast?, stmt.isRet = false) :
    headKind (Stmt.tokensOfList more ++
      ((closing.map Return.tokens).getD [] ++ (.closeCurly, "\x7d") :: rest)) ≠ .closeCurly := by
  cases more with
  | nil =>
      cases closing with
      | none => exact absurd (closes rfl (.ret info returned) rfl) (by simp [Stmt.isRet])
      | some last => simp [Stmt.tokensOfList, Return.tokens]
  | cons second others =>
      intro same
      rw [Stmt.tokensOfList, List.append_assoc] at same
      exact absurd (same ▸ Stmt.headKind_tokens_mem written.1 _) (by decide)

/-- The body of a function is read together with the return that closes it. -/
theorem yields_functionBody {decl : FunctionDecl} (written : decl.Written)
    (ahead : cursor.contents = Stmt.tokensOfList decl.body ++
      ((decl.closing.map Return.tokens).getD [] ++ (.closeCurly, "\x7d") :: rest)) :
    Yields Parser.functionBody cursor fun found behind =>
      Stmt.bareListWith Expr.bare found.1 = Stmt.bareListWith Expr.reread decl.body ∧
        found.2.map (Return.bareWith Expr.bare) = decl.closing.map (Return.bareWith Expr.reread) ∧
        behind.contents = (.closeCurly, "\x7d") :: rest := by
  have ends : headKind ((decl.closing.map Return.tokens).getD [] ++
      (.closeCurly, "\x7d") :: rest) ≠ .elseWord := by
    cases decl.closing <;> simp [Return.tokens]
  refine Parser.yields_rounds_of_invariant
    (fun collected inner => ∃ others, Stmt.WrittenList others ∧
      (decl.closing = none → ∀ stmt ∈ others.getLast?, stmt.isRet = false) ∧
      Stmt.bareListWith Expr.bare collected.reverse ++ Stmt.bareListWith Expr.reread others =
        Stmt.bareListWith Expr.reread decl.body ∧
      inner.contents = Stmt.tokensOfList others ++
        ((decl.closing.map Return.tokens).getD [] ++ (.closeCurly, "\x7d") :: rest))
    ?_ ⟨decl.body, Stmt.writtenList_iff.mpr written.body, written.closes, rfl, ahead⟩
  rintro collected inner ⟨others, othersWritten, closes, agreeing, same⟩
  simp only [Parser.yields_bind, Parser.yields_currentKind]
  cases others with
  | nil =>
      simp only [Stmt.bareListWith, List.append_nil] at agreeing
      cases held : decl.closing with
      | none =>
          simp only [Stmt.tokensOfList, held, Option.map_none, Option.getD_none,
            List.nil_append] at same
          simp [same, agreeing]
      | some returned =>
          simp only [Stmt.tokensOfList, held, Option.map_some, Option.getD_some,
            List.nil_append] at same
          have kind : headKind inner.contents = .retWord := by simp [same, Return.tokens]
          have front : Cursor.contents { inner with nextId := inner.nextId + 1 } =
              returned.tokens ++ (.closeCurly, "\x7d") :: rest := same
          simp only [kind, Parser.yields_bind, Parser.yields_freshId]
          refine (yields_returnClause (written.closing returned held) front).mono
            fun found behind facts => ?_
          simp [facts.1, facts.2, agreeing]
  | cons first more =>
      simp only [Stmt.tokensOfList, List.append_assoc] at same
      have some := tokens_length_pos othersWritten.1
      have closesMore : decl.closing = none → ∀ stmt ∈ more.getLast?, stmt.isRet = false :=
        fun without => isRet_getLast?_of_cons (closes without)
      cases isRet : first.isRet with
      | true =>
          cases first with
          | ret info returned =>
              have kind : headKind inner.contents = .retWord := by
                simp [same, Stmt.tokens, Return.tokens]
              have front : Cursor.contents { inner with nextId := inner.nextId + 1 } =
                  returned.tokens ++ (Stmt.tokensOfList more ++
                    ((decl.closing.map Return.tokens).getD [] ++ (.closeCurly, "\x7d") :: rest)) :=
                same
              simp only [kind, Parser.yields_bind, Parser.yields_freshId]
              refine (yields_returnClause othersWritten.1 front).mono fun found behind facts => ?_
              rcases facts with ⟨bare, follows⟩
              have goesOn : headKind behind.contents ≠ .closeCurly := by
                rw [follows]
                exact headKind_behind_ret_ne_close othersWritten.2 closes
              have fewer : behind.remaining < inner.remaining := by
                simp only [Cursor.remaining_eq, same, follows, List.length_append]
                omega
              simp only [Parser.yields_currentKind, goesOn, if_false, Parser.yields_pure]
              refine ⟨fewer, more, othersWritten.2, closesMore, ?_, follows⟩
              simpa [Stmt.bareListWith_append, Stmt.bareListWith, Stmt.bareWith, bare] using agreeing
          | _ => cases isRet
      | false =>
          have begins := Stmt.headKind_tokens_mem othersWritten.1 (Stmt.tokensOfList more ++
            ((decl.closing.map Return.tokens).getD [] ++ (.closeCurly, "\x7d") :: rest))
          have noReturn := headKind_tokens_ne_ret othersWritten.1 isRet (Stmt.tokensOfList more ++
            ((decl.closing.map Return.tokens).getD [] ++ (.closeCurly, "\x7d") :: rest))
          rw [← same] at begins noReturn
          split
          · next kind => exact absurd (kind ▸ begins) (by decide)
          · next kind => exact absurd (kind ▸ begins) (by decide)
          · next kind => exact absurd kind noReturn
          · simp only [Parser.yields_bind]
            refine (yields_bodyItem (readsStmtsBelow_stmt _) (Nat.lt_succ_self _) othersWritten.1
              (headKind_tokensOfList_ne_else othersWritten.2 ends) same).mono
              fun found behind facts => ?_
            rcases facts with ⟨bare, follows⟩
            have fewer : behind.remaining < inner.remaining := by
              simp only [Cursor.remaining_eq, same, follows, List.length_append]
              omega
            simp only [Parser.yields_pure]
            refine ⟨fewer, more, othersWritten.2, closesMore, ?_, follows⟩
            simpa [Stmt.bareListWith_append, Stmt.bareListWith, bare] using agreeing

/-- A printed function is read back. -/
theorem yields_function {decl : FunctionDecl} (written : decl.Written)
    (ahead : cursor.contents = decl.tokens ++ rest) :
    Yields Parser.function cursor fun found behind =>
      found.bareWith Expr.bare = decl.bareWith Expr.reread ∧ behind.contents = rest := by
  simp only [FunctionDecl.tokens, List.append_assoc, List.cons_append, List.nil_append] at ahead
  have front : Cursor.contents { cursor with nextId := cursor.nextId + 1 } = _ := ahead
  simp only [Parser.function, Parser.yields_bind, Parser.yields_freshId]
  refine (yields_functionHead written.head (by simp) front).mono fun head behind facts => ?_
  rcases facts with ⟨headBare, same⟩
  have remains : behind.advance.contents = Stmt.tokensOfList decl.body ++
      ((decl.closing.map Return.tokens).getD [] ++ (.closeCurly, "\x7d") :: rest) := by
    simp [same]
  simp only [Parser.yields_expect, same, headKind_cons, true_and]
  refine (yields_functionBody written remains).mono fun found further facts => ?_
  rcases facts with ⟨bodyBare, closingBare, follows⟩
  simp [follows, FunctionDecl.bareWith, headBare, bodyBare, closingBare]

/-! ## Inclusions, enumerations and interfaces -/

theorem yields_inclusion {decl : IncludeDecl}
    (ahead : cursor.contents = (Item.inclusion decl).tokens ++ rest) :
    Yields Parser.inclusion cursor fun found behind =>
      found.name = decl.name ∧ behind.contents = rest := by
  simp only [Item.tokens, List.cons_append, List.nil_append] at ahead
  have spelled : cursor.advance.advance.current.value = decl.name :=
    Cursor.current_value (by rw [Cursor.contents_advance, Cursor.contents_advance, ahead]; rfl)
  simp [Parser.inclusion, ahead, spelled]

theorem yields_enumMembers {members : List (String × Span)}
    (ahead : cursor.contents = members.flatMap memberTokens ++ (.closeCurly, "\x7d") :: rest) :
    Yields Parser.enumMembers cursor fun found behind =>
      found.map Prod.fst = members.map Prod.fst ∧
        behind.contents = (.closeCurly, "\x7d") :: rest := by
  refine Parser.yields_rounds_of_invariant
    (fun collected inner => ∃ others, collected.reverse.map Prod.fst ++ others.map Prod.fst =
        members.map Prod.fst ∧
      inner.contents = others.flatMap memberTokens ++ (.closeCurly, "\x7d") :: rest)
    ?_ ⟨members, rfl, ahead⟩
  rintro collected inner ⟨others, agreeing, same⟩
  cases others with
  | nil =>
      simp only [List.flatMap_nil, List.nil_append] at same
      simpa [same] using agreeing
  | cons first more =>
      simp only [List.flatMap_cons, memberTokens, List.cons_append, List.nil_append] at same
      have spelled := Cursor.current_value same
      simp only [Parser.yields_bind, Parser.yields_currentKind, same, headKind_cons, if_true,
        Parser.yields_take, Cursor.contents_advance, List.tail_cons, Parser.yields_pure]
      refine ⟨?_, more, by simpa [spelled] using agreeing, rfl⟩
      simp only [Cursor.remaining_eq, Cursor.contents_advance, same, List.tail_cons,
        List.length_cons]
      omega

theorem yields_enumeration {decl : EnumDecl}
    (ahead : cursor.contents = (Item.enumeration decl).tokens ++ rest) :
    Yields Parser.enumeration cursor fun found behind =>
      found.name = decl.name ∧ found.members.map Prod.fst = decl.members.map Prod.fst ∧
        behind.contents = rest := by
  simp only [Item.tokens, List.cons_append, List.append_assoc, List.nil_append] at ahead
  have spelled : cursor.advance.current.value = decl.name :=
    Cursor.current_value (by rw [Cursor.contents_advance, ahead]; rfl)
  have inside : cursor.advance.advance.advance.contents =
      decl.members.flatMap memberTokens ++ (.closeCurly, "\x7d") :: rest := by
    simp [ahead]
  simp only [Parser.enumeration, Parser.yields_bind, Parser.yields_expect, ahead, headKind_cons,
    Cursor.contents_advance, List.tail_cons, true_and]
  refine (yields_enumMembers inside).mono fun found behind facts => ?_
  simp [facts.1, facts.2, spelled]

theorem yields_nameUse {used : NameUse}
    (ahead : cursor.contents = (.identifier, used.text) :: rest) :
    Yields Parser.nameUse cursor fun found behind =>
      found.bare = used.bare ∧ behind.contents = rest := by
  simp [Parser.nameUse, ahead, NameUse.bare, Cursor.current_value ahead]

/-- A clause of names is read when no such clause and no comma follows. -/
theorem yields_nameClause {keyword : TokenContent} {names : List NameUse}
    (other : headKind rest ≠ keyword.1) (ends : headKind rest ≠ .comma)
    (ahead : cursor.contents = nameClauseTokens keyword names ++ rest) :
    Yields (Parser.nameClause keyword.1) cursor fun found behind =>
      found.map NameUse.bare = names.map NameUse.bare ∧ behind.contents = rest := by
  cases names with
  | nil =>
      simp only [nameClauseTokens, List.isEmpty_nil, if_true, List.nil_append] at ahead
      simp [Parser.nameClause, ahead, other]
  | cons first others =>
      simp only [nameClauseTokens, List.isEmpty_cons, Bool.false_eq_true, if_false,
        List.cons_append] at ahead
      have inside : cursor.advance.contents = commaTokens
          ((first :: others).map fun used => [(.identifier, used.text)]) ++ rest := by
        simp [ahead]
      simp only [Parser.nameClause, Parser.yields_bind, Parser.yields_currentKind, ahead,
        headKind_cons, if_true, Parser.yields_take]
      exact Parser.yields_commaSeparated ends (by simp)
        (fun element _ inner after _ _ front => yields_nameUse front) inside

theorem yields_interfaceMethods {methods : List FunctionHead}
    (written : ∀ head ∈ methods, head.Written)
    (ahead : cursor.contents =
      methods.flatMap FunctionHead.lineTokens ++ (.closeCurly, "\x7d") :: rest) :
    Yields Parser.interfaceMethods cursor fun found behind =>
      found.map FunctionHead.bare = methods.map FunctionHead.bare ∧
        behind.contents = (.closeCurly, "\x7d") :: rest := by
  refine Parser.yields_rounds_of_invariant
    (fun collected inner => ∃ others, (∀ head ∈ others, head.Written) ∧
      collected.reverse.map FunctionHead.bare ++ others.map FunctionHead.bare =
        methods.map FunctionHead.bare ∧
      inner.contents = others.flatMap FunctionHead.lineTokens ++ (.closeCurly, "\x7d") :: rest)
    ?_ ⟨methods, written, rfl, ahead⟩
  rintro collected inner ⟨others, othersWritten, agreeing, same⟩
  cases others with
  | nil =>
      simp only [List.flatMap_nil, List.nil_append] at same
      simpa [same] using agreeing
  | cons first more =>
      simp only [List.flatMap_cons, FunctionHead.lineTokens, List.append_assoc, List.cons_append,
        List.nil_append] at same
      have kind : headKind inner.contents = .fnWord := by simp [same, FunctionHead.tokens]
      simp only [Parser.yields_bind, Parser.yields_currentKind, kind, if_true]
      refine (yields_functionHead (othersWritten first List.mem_cons_self) (by simp) same).mono
        fun found behind facts => ?_
      rcases facts with ⟨bare, follows⟩
      simp only [Parser.yields_expect, follows, headKind_cons, Parser.yields_pure, true_and]
      refine ⟨?_, more, fun head member => othersWritten head (List.mem_cons_of_mem first member),
        by simpa [bare] using agreeing, by simp [follows]⟩
      simp only [Cursor.remaining_eq, Cursor.contents_advance, same, follows, List.tail_cons,
        List.length_append, List.length_cons]
      omega

theorem yields_interface {decl : InterfaceDecl} (written : decl.Written)
    (ahead : cursor.contents = decl.tokens ++ rest) :
    Yields Parser.interface cursor fun found behind =>
      (Item.interface found).bareWith Expr.bare = (Item.interface decl).bareWith Expr.reread ∧
        behind.contents = rest := by
  simp only [InterfaceDecl.tokens, List.cons_append, List.append_assoc, List.nil_append] at ahead
  have spelled : cursor.advance.current.value = decl.name :=
    Cursor.current_value (by rw [Cursor.contents_advance, ahead]; rfl)
  have front : cursor.advance.advance.contents =
      nameClauseTokens (.extWord, "ext") decl.bases ++ (.openCurly, "\x7b") ::
        (decl.methods.flatMap FunctionHead.lineTokens ++ (.closeCurly, "\x7d") :: rest) := by
    simp [ahead]
  simp only [Parser.interface, Parser.yields_bind, Parser.yields_expect, ahead, headKind_cons,
    Cursor.contents_advance, List.tail_cons, true_and]
  refine (yields_nameClause (by simp) (by simp) front).mono fun bases behind facts => ?_
  rcases facts with ⟨basesBare, same⟩
  have inside : behind.advance.contents =
      decl.methods.flatMap FunctionHead.lineTokens ++ (.closeCurly, "\x7d") :: rest := by
    simp [same]
  simp only [same, headKind_cons, true_and]
  refine (yields_interfaceMethods written.methods inside).mono fun methods further facts => ?_
  simp [facts.1, facts.2, Item.bareWith, basesBare, spelled]

/-! ## Classes -/

theorem yields_parentClause {parent : Option NameUse} (other : headKind rest ≠ .extWord)
    (ahead : cursor.contents = nameClauseTokens (.extWord, "ext") parent.toList ++ rest) :
    Yields Parser.parentClause cursor fun found behind =>
      found.map NameUse.bare = parent.map NameUse.bare ∧ behind.contents = rest := by
  cases parent with
  | none =>
      simp only [nameClauseTokens, Option.toList_none, List.isEmpty_nil, if_true,
        List.nil_append] at ahead
      simp [Parser.parentClause, ahead, other]
  | some used =>
      simp only [nameClauseTokens, Option.toList_some, List.isEmpty_cons, Bool.false_eq_true,
        if_false, List.map_cons, List.map_nil, commaTokens_singleton, List.cons_append,
        List.nil_append] at ahead
      have inside : cursor.advance.contents = (.identifier, used.text) :: rest := by simp [ahead]
      simp only [Parser.parentClause, Parser.yields_bind, Parser.yields_currentKind, ahead,
        headKind_cons, if_true, Parser.yields_take]
      refine (yields_nameUse inside).mono fun found behind facts => ?_
      simp [facts.1, facts.2]

/-- Fields and then methods are read as the fields and methods of a class. -/
theorem yields_classMembers {fields : List VarDecl} {methods : List FunctionDecl}
    (fieldsWritten : ∀ field ∈ fields, field.Written)
    (methodsWritten : ∀ method ∈ methods, method.Written)
    (ahead : cursor.contents = fields.flatMap VarDecl.lineTokens ++
      (methods.flatMap FunctionDecl.tokens ++ (.closeCurly, "\x7d") :: rest)) :
    Yields Parser.classMembers cursor fun found behind =>
      found.1.map (VarDecl.bareWith Expr.bare) = fields.map (VarDecl.bareWith Expr.reread) ∧
        found.2.map (FunctionDecl.bareWith Expr.bare) =
          methods.map (FunctionDecl.bareWith Expr.reread) ∧
        behind.contents = (.closeCurly, "\x7d") :: rest := by
  refine Parser.yields_rounds_of_invariant
    (fun collected inner => ∃ otherFields otherMethods,
      (∀ field ∈ otherFields, VarDecl.Written field) ∧
      (∀ method ∈ otherMethods, FunctionDecl.Written method) ∧
      collected.1.reverse.map (VarDecl.bareWith Expr.bare) ++
        otherFields.map (VarDecl.bareWith Expr.reread) = fields.map (VarDecl.bareWith Expr.reread) ∧
      collected.2.reverse.map (FunctionDecl.bareWith Expr.bare) ++
        otherMethods.map (FunctionDecl.bareWith Expr.reread) =
          methods.map (FunctionDecl.bareWith Expr.reread) ∧
      inner.contents = otherFields.flatMap VarDecl.lineTokens ++
        (otherMethods.flatMap FunctionDecl.tokens ++ (.closeCurly, "\x7d") :: rest))
    ?_ ⟨fields, methods, fieldsWritten, methodsWritten, rfl, rfl, ahead⟩
  rintro ⟨foundFields, foundMethods⟩ inner
    ⟨otherFields, otherMethods, writtenFields, writtenMethods, agreeing, agreeingToo, same⟩
  simp only [Parser.yields_bind, Parser.yields_currentKind]
  cases otherFields with
  | nil =>
      simp only [List.flatMap_nil, List.nil_append] at same
      cases otherMethods with
      | nil =>
          simp only [List.flatMap_nil, List.nil_append] at same
          simp only [List.map_nil, List.append_nil] at agreeing agreeingToo
          simp [same, agreeing, agreeingToo]
      | cons first more =>
          simp only [List.flatMap_cons, List.append_assoc] at same
          have kind : headKind inner.contents = .fnWord := by
            simp [same, FunctionDecl.tokens, FunctionHead.tokens]
          simp only [kind, Parser.yields_bind]
          refine (yields_function (writtenMethods first List.mem_cons_self) same).mono
            fun found behind facts => ?_
          rcases facts with ⟨bare, follows⟩
          simp only [Parser.yields_pure]
          refine ⟨?_, [], more, by simp,
            fun method member => writtenMethods method (List.mem_cons_of_mem first member), agreeing,
            by simpa [bare] using agreeingToo, by simpa using follows⟩
          simp only [Cursor.remaining_eq, same, follows, FunctionDecl.tokens, List.length_append,
            List.length_cons]
          omega
  | cons first more =>
      simp only [List.flatMap_cons, List.append_assoc] at same
      have firstWritten := writtenFields first List.mem_cons_self
      have begins := VarDecl.headKind_lineTokens_mem firstWritten
        (more.flatMap VarDecl.lineTokens ++
          (otherMethods.flatMap FunctionDecl.tokens ++ (.closeCurly, "\x7d") :: rest))
      rw [← same] at begins
      split
      · next kind => exact absurd (kind ▸ begins) (by decide)
      · next kind => exact absurd (kind ▸ begins) (by decide)
      · simp only [Parser.yields_bind]
        refine yields_startsDeclaration firstWritten same ?_
        simp only [if_true, Parser.yields_bind]
        refine (yields_varDecl firstWritten same).mono fun found behind facts => ?_
        rcases facts with ⟨bare, follows⟩
        simp only [Parser.yields_pure]
        refine ⟨?_, more, otherMethods,
          fun field member => writtenFields field (List.mem_cons_of_mem first member),
          writtenMethods, by simpa [bare] using agreeing, agreeingToo, follows⟩
        simp only [Cursor.remaining_eq, same, follows, VarDecl.lineTokens, List.length_append,
          List.length_cons]
        omega

theorem yields_classDecl {decl : ClassDecl} (written : decl.Written)
    (ahead : cursor.contents = decl.tokens ++ rest) :
    Yields Parser.classDecl cursor fun found behind =>
      found.bareWith Expr.bare = decl.bareWith Expr.reread ∧ behind.contents = rest := by
  simp only [ClassDecl.tokens, List.cons_append, List.append_assoc, List.nil_append] at ahead
  have spelled : cursor.advance.current.value = decl.name :=
    Cursor.current_value (by rw [Cursor.contents_advance, ahead]; rfl)
  have front : cursor.advance.advance.contents =
      nameClauseTokens (.extWord, "ext") decl.parent.toList ++
        (nameClauseTokens (.useWord, "use") decl.uses ++ (.openCurly, "\x7b") ::
          (decl.fields.flatMap VarDecl.lineTokens ++
            (decl.methods.flatMap FunctionDecl.tokens ++ (.closeCurly, "\x7d") :: rest))) := by
    simp [ahead]
  have apart : ∀ others, headKind (nameClauseTokens (.useWord, "use") decl.uses ++
      (TokenKind.openCurly, "\x7b") :: others) ≠ .extWord := by
    intro others
    cases decl.uses <;> simp [nameClauseTokens]
  simp only [Parser.classDecl, Parser.yields_bind, Parser.yields_expect, ahead, headKind_cons,
    Cursor.contents_advance, List.tail_cons, true_and]
  refine (yields_parentClause (apart _) front).mono fun parent behind facts => ?_
  rcases facts with ⟨parentBare, same⟩
  refine (yields_nameClause (by simp) (by simp) same).mono fun uses further facts => ?_
  rcases facts with ⟨usesBare, follows⟩
  have inside : further.advance.contents = decl.fields.flatMap VarDecl.lineTokens ++
      (decl.methods.flatMap FunctionDecl.tokens ++ (.closeCurly, "\x7d") :: rest) := by
    simp [follows]
  simp only [follows, headKind_cons, true_and]
  refine (yields_classMembers written.fields written.methods inside).mono
    fun members last facts => ?_
  rcases facts with ⟨fieldsBare, methodsBare, ends⟩
  simp [ends, ClassDecl.bareWith, parentBare, usesBare, fieldsBare, methodsBare, spelled]

theorem yields_item {item : Item} (written : item.Written)
    (ahead : cursor.contents = item.tokens ++ rest) :
    Yields Parser.item cursor fun found behind =>
      found.bareWith Expr.bare = item.bareWith Expr.reread ∧ behind.contents = rest := by
  simp only [Parser.item, Parser.yields_bind, Parser.yields_currentKind]
  cases item with
  | inclusion decl =>
      have kind : headKind cursor.contents = .includeWord := by simp [ahead, Item.tokens]
      simp only [kind, Parser.yields_bind, Parser.yields_pure]
      refine (yields_inclusion ahead).mono fun found behind facts => ?_
      simp [facts.2, Item.bareWith, facts.1]
  | enumeration decl =>
      have kind : headKind cursor.contents = .enumWord := by simp [ahead, Item.tokens]
      simp only [kind, Parser.yields_bind, Parser.yields_pure]
      refine (yields_enumeration ahead).mono fun found behind facts => ?_
      rcases facts with ⟨name, members, same⟩
      have listed : found.members.map (fun member => (member.1, Span.nowhere)) =
          decl.members.map fun member => (member.1, Span.nowhere) := by
        simpa [Function.comp_def] using
          congrArg (List.map fun name => (name, Span.nowhere)) members
      simp [same, Item.bareWith, name, listed]
  | interface decl =>
      have kind : headKind cursor.contents = .interfaceWord := by
        simp [ahead, Item.tokens, InterfaceDecl.tokens]
      simp only [kind, Parser.yields_bind, Parser.yields_pure]
      exact yields_interface written ahead
  | classDecl decl =>
      have kind : headKind cursor.contents = .classWord := by
        simp [ahead, Item.tokens, ClassDecl.tokens]
      simp only [kind, Parser.yields_bind, Parser.yields_pure]
      refine (yields_classDecl written ahead).mono fun found behind facts => ?_
      simp [facts.2, Item.bareWith, facts.1]
  | function decl =>
      have kind : headKind cursor.contents = .fnWord := by
        simp [ahead, Item.tokens, FunctionDecl.tokens, FunctionHead.tokens]
      simp only [kind, Parser.yields_bind, Parser.yields_pure]
      refine (yields_function written ahead).mono fun found behind facts => ?_
      simp [facts.2, Item.bareWith, facts.1]
  | globalVariable decl =>
      have begins := VarDecl.headKind_lineTokens_mem written rest
      rw [show cursor.contents = decl.lineTokens ++ rest from ahead]
      split
      · next kind => exact absurd (kind ▸ begins) (by decide)
      · next kind => exact absurd (kind ▸ begins) (by decide)
      · next kind => exact absurd (kind ▸ begins) (by decide)
      · next kind => exact absurd (kind ▸ begins) (by decide)
      · next kind => exact absurd (kind ▸ begins) (by decide)
      · simp only [Parser.yields_bind]
        refine yields_startsDeclaration written ahead ?_
        simp only [if_true, Parser.yields_bind, Parser.yields_pure]
        refine (yields_varDecl written ahead).mono fun found behind facts => ?_
        simp [facts.2, Item.bareWith, facts.1]

/-- A printed declaration has a token, and not the end of input first. -/
theorem headKind_itemTokens_ne_eof {item : Item} (written : item.Written)
    (rest : List TokenContent) : headKind (item.tokens ++ rest) ≠ .eof := by
  cases item with
  | globalVariable decl =>
      intro same
      exact absurd (same ▸ VarDecl.headKind_lineTokens_mem written rest) (by decide)
  | _ =>
      simp [Item.tokens, InterfaceDecl.tokens, ClassDecl.tokens, FunctionDecl.tokens,
        FunctionHead.tokens]

/-- The declarations of a printed file are read back in their order. -/
theorem yields_items {items : List Item} (written : ∀ item ∈ items, item.Written)
    (ahead : cursor.contents = items.flatMap Item.tokens) :
    Yields Parser.items cursor fun found _ =>
      found.map Item.bare = items.map (Item.bareWith Expr.reread) := by
  refine Parser.yields_rounds_of_invariant
    (fun collected inner => ∃ others, (∀ item ∈ others, Item.Written item) ∧
      collected.reverse.map Item.bare ++ others.map (Item.bareWith Expr.reread) =
        items.map (Item.bareWith Expr.reread) ∧
      inner.contents = others.flatMap Item.tokens)
    ?_ ⟨items, written, rfl, ahead⟩
  rintro collected inner ⟨others, othersWritten, agreeing, same⟩
  cases others with
  | nil =>
      simp only [List.flatMap_nil] at same
      simpa [same] using agreeing
  | cons first more =>
      simp only [List.flatMap_cons] at same
      have firstWritten := othersWritten first List.mem_cons_self
      have goesOn := headKind_itemTokens_ne_eof firstWritten (more.flatMap Item.tokens)
      have some : 0 < first.tokens.length := by
        refine List.length_pos_iff.mpr fun empty => ?_
        exact headKind_itemTokens_ne_eof firstWritten [] (by simp [empty])
      simp only [Parser.yields_bind, Parser.yields_currentKind, same, goesOn, if_false]
      refine (yields_item firstWritten same).mono fun found behind facts => ?_
      rcases facts with ⟨bare, follows⟩
      simp only [Parser.yields_pure]
      refine ⟨?_, more, fun item member => othersWritten item (List.mem_cons_of_mem first member),
        by simpa [Item.bare, bare] using agreeing, follows⟩
      simp only [Cursor.remaining_eq, same, follows, List.length_append]
      omega

namespace Program

/-- A printed file is accepted, and read as a file with the same declarations
up to what becomes of the expressions in them. -/
theorem ofSource_print {program : Program} (written : program.Written) (file : String) :
    ∃ other, ofSource file program.print = .ok other ∧
      other.items.map Item.bare = program.items.map (Item.bareWith Expr.reread) := by
  rcases exists_tokenize_of_contents? (contents?_print written) file with
    ⟨tokens, tokenized, contents⟩
  rcases yields_items written (Cursor.contents_ofTokens contents) with ⟨items, behind, parsed, same⟩
  exact ⟨{ file, items }, by simp [ofSource, tokenized, ofTokens, parsed], same⟩

end Program

end KnightFront
