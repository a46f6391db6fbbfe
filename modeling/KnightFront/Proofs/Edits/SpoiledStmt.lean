import KnightFront.Proofs.Edits.JudgedStmt
import KnightFront.Proofs.Edits.SpoiledExpr

namespace KnightFront

/-!
# One mistake in a statement

A statement requires nothing of its parts that the error type does not fulfil,
so a mistake in one part is reported once.  The change leaves the locals as
they are: the statements behind are resolved as before.
-/

open Analysis Resolution Typing

variable {edit : Edit} {allowed : String → Prop} {place : NamePlace} {scopes : List Scope}

/-- A mistake in an initial value is reported once. -/
theorem VarDecl.Edited.spoiled (spoils : edit.Spoils allowed) (site : Site allowed place scopes)
    {decl decl' : VarDecl} (edited : decl.Edited edit place scopes decl') (written : decl.Written)
    (clean : declTally Finding.isError place scopes decl = 0) :
    declTally Finding.isError place scopes decl' = 1 := by
  cases edited with
  | @init init init' isInit edited =>
      rw [declErrors_of_init isInit] at clean
      have part := Expr.Edited.spoiled spoils site edited
        (written.exprs init (Option.mem_toList.mpr isInit)) (by omega)
      have once := part.once
      have fits : place.model.isAssignable decl.ty (judge place scopes init').value = true :=
        isAssignable_of_fades (.refl _) part.ty (by grind)
      rw [declErrors_of_init rfl, if_pos fits]
      dsimp only
      omega

/-- A mistake in a condition is reported once. -/
theorem conditionErrors_of_edited (spoils : edit.Spoils allowed) (site : Site allowed place scopes)
    {condition condition' : Expr} (edited : edit.Value place scopes condition condition')
    (written : condition.Written)
    (clean : conditionTally Finding.isError place scopes condition = 0) :
    conditionTally Finding.isError place scopes condition' = 1 := by
  rw [conditionErrors_eq] at clean ⊢
  have part := Expr.Edited.spoiled spoils site edited written (by omega)
  have fits : differs .bool (judge place scopes condition').value = false :=
    differs_of_fades part.ty (by grind)
  rw [fits, part.once]
  rfl

/-- A mistake in an assignment is reported once. -/
theorem Assignment.Edited.spoiled (spoils : edit.Spoils allowed) (site : Site allowed place scopes)
    {assignment assignment' : Assignment}
    (edited : assignment.Edited edit place scopes assignment') (written : assignment.Written)
    (clean : assignmentTally Finding.isError place scopes assignment = 0) :
    assignmentTally Finding.isError place scopes assignment' = 1 := by
  have writtenValue : assignment.value.Written :=
    written.exprs _ (List.mem_append_right _ (List.mem_singleton_self _))
  cases edited with
  | @target target' changed =>
      have lost := spoils.target site written.target changed
      have untyped := targetTy_of_unbound lost.2
      cases hasIndex : assignment.index with
      | none =>
          rw [assignmentErrors_of_no_index hasIndex] at clean
          rw [assignmentErrors_of_no_index rfl]
          dsimp only at clean ⊢
          rw [untyped, lost.1, Reported.value_pure, isAssignable_error_left]
          simp only [Reported.tally_pure, if_true]
          omega
      | some index =>
          rw [assignmentErrors_of_index hasIndex] at clean
          rw [assignmentErrors_of_index rfl]
          dsimp only at clean ⊢
          have noElement : elementTy .error (bindValue place scopes target').value.span.start =
            pure .error := rfl
          rw [untyped, lost.1]
          simp only [Reported.value_pure, noElement, isAssignable_error_left]
          simp only [Reported.tally_pure, if_true]
          omega
  | @index index index' isIndex edited =>
      rw [assignmentErrors_of_index isIndex] at clean
      rw [assignmentErrors_of_index rfl]
      dsimp only at clean ⊢
      have part := Expr.Edited.spoiled spoils site edited
        (written.exprs index (List.mem_append_left _ (Option.mem_toList.mpr isIndex))) (by omega)
      have once := part.once
      have fits : differs .int (judge place scopes index').value = false :=
        differs_of_fades part.ty (by grind)
      rw [fits]
      simp only [Bool.false_eq_true, if_false]
      omega
  | @value value' edited =>
      cases hasIndex : assignment.index with
      | none =>
          rw [assignmentErrors_of_no_index hasIndex] at clean
          rw [assignmentErrors_of_no_index rfl]
          dsimp only at clean ⊢
          have part := Expr.Edited.spoiled spoils site edited writtenValue (by omega)
          have once := part.once
          have fits := isAssignable_of_fades (.refl _) part.ty
            (show place.model.isAssignable (targetTy
              (bindValue place scopes assignment.target).value).value _ = true by grind)
          rw [if_pos fits]
          omega
      | some index =>
          rw [assignmentErrors_of_index hasIndex] at clean
          rw [assignmentErrors_of_index rfl]
          dsimp only at clean ⊢
          have part := Expr.Edited.spoiled spoils site edited writtenValue (by omega)
          have once := part.once
          have fits := isAssignable_of_fades (.refl _) part.ty
            (show place.model.isAssignable (elementTy (targetTy
              (bindValue place scopes assignment.target).value).value
                (bindValue place scopes assignment.target).value.span.start).value _ = true by grind)
          rw [if_pos fits]
          omega

/-- A mistake in a return is reported once. -/
theorem Return.Edited.spoiled (spoils : edit.Spoils allowed) (site : Site allowed place scopes)
    {head : FunctionHead} {returned returned' : Return}
    (edited : returned.Edited edit place scopes returned') (written : returned.Written)
    (clean : returnTally Finding.isError place scopes head returned = 0) :
    returnTally Finding.isError place scopes head returned' = 1 := by
  cases edited with
  | @value value value' isValue edited =>
      rw [returnErrors_of_value isValue] at clean
      have part := Expr.Edited.spoiled spoils site edited
        (written value (Option.mem_toList.mpr isValue)) (by omega)
      have notVoid : head.returnTy ≠ .void := by
        intro isVoid
        rw [if_pos isVoid] at clean
        omega
      rw [if_neg notVoid] at clean
      have fits : place.model.isAssignable head.returnTy (judge place scopes value').value = true :=
        isAssignable_of_fades (.refl _) part.ty (by grind)
      rw [returnErrors_of_value rfl, if_neg notVoid, if_pos fits]
      exact part.once

/-- A declaration declares the same local with another initial value. -/
theorem VarDecl.Edited.state_eq {decl decl' : VarDecl}
    (edited : decl.Edited edit place scopes decl') (state : ScopeState) :
    (resolveLocal place state decl').value.2 = (resolveLocal place state decl).value.2 := by
  cases edited with
  | init => rfl

/-- Behind a declaration without errors declared types are in reach. -/
theorem Site.of_declErrors {state : ScopeState} {decl : VarDecl}
    (site : Site allowed place state.scopes) (written : decl.Written)
    (declared : allowed decl.name) (clean : declTally Finding.isError place state.scopes decl = 0) :
    Site allowed place (Resolution.resolveLocal place state decl).value.2.scopes := by
  refine site.resolveLocal written declared ?_
  have resolves := (Nat.eq_zero_of_add_eq_zero clean).1
  simpa [Resolution.resolveLocal] using resolves

namespace Stmt

theorem WrittenList.of_append {front back : List Stmt} (written : WrittenList (front ++ back)) :
    WrittenList front ∧ WrittenList back := by
  simpa [writtenList_iff, or_imp, forall_and] using written

theorem declaredNamesOfList_append {front back : List Stmt} :
    declaredNamesOfList (front ++ back) =
      declaredNamesOfList front ++ declaredNamesOfList back := by
  induction front with
  | nil => rfl
  | cons first rest inductionHypothesis =>
      calc
        declaredNamesOfList (first :: rest ++ back) =
            first.declaredNames ++ declaredNamesOfList (rest ++ back) := rfl
        _ = first.declaredNames ++ (declaredNamesOfList rest ++ declaredNamesOfList back) := by
          rw [inductionHypothesis]
        _ = declaredNamesOfList (first :: rest) ++ declaredNamesOfList back :=
          (List.append_assoc _ _ _).symm

namespace Edited

/-- A change in one place leaves the scopes behind a statement as they are. -/
theorem state_eq {state : ScopeState} {stmt stmt' : Stmt}
    (edited : Stmt.Edited edit place state stmt stmt') :
    (resolveStmt place state stmt').value.2 = (resolveStmt place state stmt).value.2 := by
  induction edited with
  | varDecl edited => exact edited.state_eq _
  | assign | fieldReceiver | fieldName | fieldValue | call | ret => rfl
  | ifCondition | elseCondition | whileCondition | forCondition | forUpdate => rfl
  | ifBody _ same | whileBody _ same | alternative _ same | forBody _ same => exact same
  | @elseBody place state info condition body body' alternative _ same =>
      exact congrArg (fun state => (resolveStmt place state alternative).value.2) same
  | @forInit place state info init init' condition update body scope edited =>
      exact congrArg (fun behind => (resolveStmt (innerPlace place state) behind body).value.2)
        (edited.state_eq _)
  | block _ same => exact state_resolveStmts_append_cons_congr same

/-- A mistake in one place of a statement is reported once. -/
theorem spoiled (spoils : edit.Spoils allowed) (head : FunctionHead) {state : ScopeState}
    {stmt stmt' : Stmt} (edited : Stmt.Edited edit place state stmt stmt')
    (site : Site allowed place state.scopes) (written : stmt.Written)
    (declared : ∀ name ∈ stmt.declaredNames, allowed name)
    (clean : stmtTally Finding.isError place head state stmt = 0) :
    stmtTally Finding.isError place head state stmt' = 1 := by
  induction edited with
  | varDecl edited =>
      rw [stmtTally_varDecl] at clean ⊢
      exact edited.spoiled spoils site written clean
  | assign edited =>
      rw [stmtTally_assign] at clean ⊢
      exact edited.spoiled spoils site written clean
  | @fieldReceiver place state info receiver receiver' used value edited =>
      rw [stmtErrors_fieldAssign] at clean ⊢
      dsimp only at clean ⊢
      have part := Expr.Edited.spoiled spoils site edited written.1 (by omega)
      have once := part.once
      rcases site.exists_memberTy? written.1 (by omega) with ⟨ty, isTy, known⟩
      rw [isTy] at clean
      rcases @exists_named_of_bindField _ used _ known (by omega) with ⟨owner, rfl, -⟩
      rcases part.member rfl owner isTy with lost | kept
      · -- The field stays unbound, and anything can be assigned to it.
        have unbound : bindField place none used = pure used := rfl
        have untyped := targetTy_of_unbound written.2.2.1.unbound
        simp only [lost, unbound, Reported.value_pure, untyped, isAssignable_error_left]
        simp only [Reported.tally_pure, if_true]
        omega
      · rw [kept, isTy]
        omega
  | @fieldName place state info receiver used used' value changed =>
      rw [stmtErrors_fieldAssign] at clean ⊢
      dsimp only at clean ⊢
      rcases site.exists_memberTy? written.1 (by omega) with ⟨ty, isTy, known⟩
      rw [isTy] at clean ⊢
      rcases @exists_named_of_bindField _ used _ known (by omega) with ⟨owner, rfl, isTypeName⟩
      have lost := spoils.member site written.2.2.1 isTypeName changed
      rw [lost.1, targetTy_of_unbound lost.2, Reported.value_pure, isAssignable_error_left]
      simp only [Reported.tally_pure, if_true]
      omega
  | @fieldValue place state info receiver used value value' edited =>
      rw [stmtErrors_fieldAssign] at clean ⊢
      dsimp only at clean ⊢
      have part := Expr.Edited.spoiled spoils site edited written.2.2.2 (by omega)
      have once := part.once
      have fits := isAssignable_of_fades (.refl _) part.ty
        (show place.model.isAssignable (targetTy (bindField place
          (memberTy? place state.scopes receiver) used).value).value _ = true by grind)
      rw [if_pos fits]
      omega
  | call edited =>
      rw [stmtTally_call] at clean ⊢
      exact (Expr.Edited.spoiled spoils site edited written.1 clean).once
  | ifCondition edited =>
      rw [stmtTally_ifThen] at clean ⊢
      have once := conditionErrors_of_edited spoils site edited written.1 (by omega)
      omega
  | ifBody _ inductionHypothesis =>
      rw [stmtTally_ifThen] at clean ⊢
      have once := inductionHypothesis site written.2.1 declared (by omega)
      omega
  | elseCondition edited =>
      rw [stmtTally_ifElse] at clean ⊢
      have once := conditionErrors_of_edited spoils site edited written.1 (by omega)
      omega
  | elseBody edited inductionHypothesis =>
      rw [Stmt.declaredNames, List.forall_mem_append] at declared
      rw [stmtTally_ifElse] at clean ⊢
      have once := inductionHypothesis site written.2.1 declared.1 (by omega)
      rw [edited.state_eq]
      omega
  | @alternative place state info condition body alternative alternative' _ inductionHypothesis =>
      rw [Stmt.declaredNames, List.forall_mem_append] at declared
      rw [stmtTally_ifElse] at clean ⊢
      have bodyClean : stmtTally Finding.isError place head state body = 0 := by omega
      have behind := site.resolveStmt written.2.1 declared.1 (Nat.eq_zero_of_add_eq_zero bodyClean).1
      have once := inductionHypothesis behind written.2.2.1 declared.2 (by omega)
      omega
  | whileCondition edited =>
      rw [stmtTally_whileLoop] at clean ⊢
      have once := conditionErrors_of_edited spoils site edited written.1 (by omega)
      omega
  | whileBody _ inductionHypothesis =>
      rw [stmtTally_whileLoop] at clean ⊢
      have once := inductionHypothesis site written.2.1 declared (by omega)
      omega
  | forInit edited =>
      rw [stmtTally_forLoop] at clean ⊢
      dsimp only at clean ⊢
      have once := edited.spoiled spoils site.inner written.1 (by omega)
      rw [edited.state_eq]
      omega
  | forCondition edited =>
      rw [Stmt.declaredNames, List.forall_mem_cons] at declared
      rw [stmtTally_forLoop] at clean ⊢
      dsimp only at clean ⊢
      have behind := site.inner.of_declErrors written.1 declared.1 (by omega)
      have once := conditionErrors_of_edited spoils behind edited written.2.1 (by omega)
      omega
  | forUpdate edited =>
      rw [Stmt.declaredNames, List.forall_mem_cons] at declared
      rw [stmtTally_forLoop] at clean ⊢
      dsimp only at clean ⊢
      have behind := site.inner.of_declErrors written.1 declared.1 (by omega)
      have once := edited.spoiled spoils behind written.2.2.1 (by omega)
      omega
  | forBody _ inductionHypothesis =>
      rw [Stmt.declaredNames, List.forall_mem_cons] at declared
      rw [stmtTally_forLoop] at clean ⊢
      dsimp only at clean ⊢
      have behind := site.inner.of_declErrors written.1 declared.1 (by omega)
      have once := inductionHypothesis behind written.2.2.2.1 declared.2 (by omega)
      omega
  | ret edited =>
      rw [stmtTally_ret] at clean ⊢
      exact edited.spoiled spoils site written clean
  | @block place state info front back stmt stmt' scope edited inductionHypothesis =>
      rw [stmtTally_block, stmtsTally_append_cons] at clean ⊢
      dsimp only at clean ⊢
      have writtenParts := WrittenList.of_append written
      rw [Stmt.declaredNames, declaredNamesOfList_append, declaredNamesOfList,
        List.forall_mem_append, List.forall_mem_append] at declared
      have frontClean : stmtsTally Finding.isError (innerPlace place state) head
          (innerState place state) front = 0 := by
        omega
      have behind := site.inner.resolveStmts writtenParts.1 declared.1
        (Nat.eq_zero_of_add_eq_zero frontClean).1
      have once := inductionHypothesis behind writtenParts.2.1 declared.2.1 (by omega)
      rw [edited.state_eq]
      omega

end Edited

end Stmt

end KnightFront
