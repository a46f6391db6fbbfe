import KnightFront.Proofs.Edits.SpoiledStmt
import KnightFront.Proofs.Retyping.Expressions

namespace KnightFront

/-!
# Statements with an unknown type in reach

In statements that stood without error the same counts as in the declarations
of the unknown type among them, each once.  Behind a statement the same is in
reach but for the types of variables.
-/

open Analysis Resolution Typing

variable {unknown : String} {kind : Finding → Bool} {place other : NamePlace}
  {scopes others : List Scope}

namespace Resolution

section States

variable {state state' : ScopeState}

theorem scope_innerPlace (states : List.Forall₂ (Scope.Retyped unknown) state.scopes state'.scopes) :
    (innerPlace other state').scope = (innerPlace place state).scope :=
  congrArg some states.length_eq.symm

theorem retyped_innerState (scope : other.scope = place.scope)
    (states : List.Forall₂ (Scope.Retyped unknown) state.scopes state'.scopes) :
    List.Forall₂ (Scope.Retyped unknown) (innerState place state).scopes
      (innerState other state').scopes := by
  rw [innerState, innerState, scope]
  exact Scopes.retyped_opened states place.scope .block

/-- A retyped local is taken up where the local is. -/
theorem retyped_declareLocal (scope : other.scope = place.scope)
    (functionScopes : other.functionScopes = place.functionScopes)
    (states : List.Forall₂ (Scope.Retyped unknown) state.scopes state'.scopes)
    {decl decl' : VarDecl} (name : decl'.name = decl.name)
    (ty : decl.ty.Retyped unknown decl'.ty) :
    List.Forall₂ (Scope.Retyped unknown) (declareLocal place state decl).scopes
      (declareLocal other state' decl').scopes := by
  have declares := Scopes.declares_of_retyped states
  have repeats (current : ScopeId) :
      repeatsParam other state'.scopes current decl.name =
        repeatsParam place state.scopes current decl.name := by
    unfold repeatsParam
    rw [functionScopes]
    split
    · rfl
    · rw [declares]
  unfold declareLocal
  rw [scope, name]
  split
  · exact states
  next current _ =>
    rw [repeats, declares]
    split
    · exact states
    · have entities : Variable.Retyped unknown
          ⟨decl.name, decl.ty, some state.nextSlot, decl.nameSpan.start⟩
          ⟨decl.name, decl'.ty, some state'.nextSlot, decl'.nameSpan.start⟩ := ⟨rfl, ty⟩
      exact Scopes.retyped_declare states entities current

end States

mutual

/-- Behind a retyped statement the scopes are the same but for the types of
variables. -/
theorem retyped_resolveStmt {place other : NamePlace} {state state' : ScopeState}
    (scope : other.scope = place.scope)
    (functionScopes : other.functionScopes = place.functionScopes)
    (states : List.Forall₂ (Scope.Retyped unknown) state.scopes state'.scopes) :
    ∀ {stmt stmt' : Stmt}, stmt.Retyped unknown stmt' →
      List.Forall₂ (Scope.Retyped unknown) (resolveStmt place state stmt).value.2.scopes
        (resolveStmt other state' stmt').value.2.scopes
  | _, _, .varDecl declaration =>
      retyped_declareLocal scope functionScopes states declaration.name_eq declaration.ty
  | _, _, .assign | _, _, .fieldAssign | _, _, .call | _, _, .ret => states
  | _, _, .ifThen inside | _, _, .whileLoop inside =>
      have behind := retyped_resolveStmt scope functionScopes states inside
      behind
  | _, _, .ifElse inside alternative =>
      have behind := retyped_resolveStmt scope functionScopes states inside
      have last := retyped_resolveStmt scope functionScopes behind alternative
      last
  | _, _, .forLoop declaration inside =>
      have inner : (innerPlace other state').scope = (innerPlace place state).scope :=
        scope_innerPlace states
      have declared := @retyped_declareLocal _ _ _ _ _ inner functionScopes
        (retyped_innerState scope states) _ _ declaration.name_eq declaration.ty
      have behind := @retyped_resolveStmt _ _ _ _ inner functionScopes declared _ _ inside
      behind
  | _, _, .block inside =>
      have inner : (innerPlace other state').scope = (innerPlace place state).scope :=
        scope_innerPlace states
      have behind := @retyped_resolveStmts _ _ _ _ inner functionScopes
        (retyped_innerState scope states) _ _ inside
      behind

theorem retyped_resolveStmts {place other : NamePlace} {state state' : ScopeState}
    (scope : other.scope = place.scope)
    (functionScopes : other.functionScopes = place.functionScopes)
    (states : List.Forall₂ (Scope.Retyped unknown) state.scopes state'.scopes) :
    ∀ {stmts stmts' : List Stmt}, Stmt.RetypedList unknown stmts stmts' →
      List.Forall₂ (Scope.Retyped unknown) (resolveStmts place state stmts).value.2.scopes
        (resolveStmts other state' stmts').value.2.scopes
  | _, _, .nil => states
  | _, _, .cons head tail =>
      retyped_resolveStmts scope functionScopes
        (retyped_resolveStmt scope functionScopes states head) tail

end

end Resolution

namespace RetypedSite

variable {state state' : ScopeState}
  (site : RetypedSite unknown place other state.scopes state'.scopes)

include site

/-- Opening a scope for a block or loop keeps what is in reach. -/
theorem inner :
    RetypedSite unknown (innerPlace place state) (innerPlace other state')
      (innerState place state).scopes (innerState other state').scopes where
  site := site.site.inner
  strange := site.strange
  model := site.model
  className := site.className
  scope := scope_innerPlace site.scopes
  functionScopes := site.functionScopes
  scopes := retyped_innerState site.scope site.scopes

/-- So does a declaration in which no error was found. -/
theorem resolveLocal {decl decl' : VarDecl} (retyped : decl.Retyped unknown decl')
    (written : decl.Written) (clean : declTally Finding.isError place state.scopes decl = 0) :
    RetypedSite unknown place other (resolveLocal place state decl).value.2.scopes
      (resolveLocal other state' decl').value.2.scopes :=
  { site with
    site := site.site.of_declErrors written trivial clean
    scopes := retyped_declareLocal site.scope site.functionScopes site.scopes retyped.name_eq
      retyped.ty }

/-- So does a statement. -/
theorem resolveStmt {stmt stmt' : Stmt} (retyped : stmt.Retyped unknown stmt')
    (written : stmt.Written) (clean : (resolveStmt place state stmt).tally Finding.isError = 0) :
    RetypedSite unknown place other (Resolution.resolveStmt place state stmt).value.2.scopes
      (Resolution.resolveStmt other state' stmt').value.2.scopes :=
  { site with
    site := site.site.resolveStmt written (fun _ _ => trivial) clean
    scopes := retyped_resolveStmt site.scope site.functionScopes site.scopes retyped }

/-- So do several. -/
theorem resolveStmts {stmts stmts' : List Stmt} (retyped : Stmt.RetypedList unknown stmts stmts')
    (written : Stmt.WrittenList stmts)
    (clean : (resolveStmts place state stmts).tally Finding.isError = 0) :
    RetypedSite unknown place other (Resolution.resolveStmts place state stmts).value.2.scopes
      (Resolution.resolveStmts other state' stmts').value.2.scopes :=
  { site with
    site := site.site.resolveStmts written (fun _ _ => trivial) clean
    scopes := retyped_resolveStmts site.scope site.functionScopes site.scopes retyped }

end RetypedSite

/-! ## Parts of statements -/

section Parts

variable (spares : Spares unknown kind) (site : RetypedSite unknown place other scopes others)

/-- What a declaration without error keeps to. -/
theorem clean_of_declErrors {decl : VarDecl}
    (clean : declTally Finding.isError place scopes decl = 0) :
    (checkTy place decl.ty decl.tySpan.start).tally Finding.isError = 0 ∧ decl.ty ≠ .void ∧
      ∀ init, decl.init = some init → (judge place scopes init).tally Finding.isError = 0 ∧
        place.model.isAssignable decl.ty (judge place scopes init).value = true := by
  cases hasInit : decl.init with
  | none =>
      have parts := (declTally_of_no_init Finding.isError hasInit).symm.trans clean
      rw [Nat.add_eq_zero_iff] at parts
      refine ⟨parts.1, fun isVoid => ?_, nofun⟩
      rw [isVoid] at parts
      exact absurd parts.2 Nat.one_ne_zero
  | some init =>
      rw [declErrors_of_init hasInit] at clean
      refine ⟨by omega, by grind, fun init' same => ?_⟩
      cases same
      exact ⟨by omega, by grind⟩

include site

theorem ne_unknown_of_checkTy {ty : Ty} {position : Position}
    (clean : (checkTy place ty position).tally Finding.isError = 0) : ty ≠ .named unknown := by
  rintro rfl
  rw [checkTy, site.strange] at clean
  exact Nat.one_ne_zero clean

include spares

/-- Of the type of a declaration it is reported that it is unknown, if it is. -/
theorem tally_checkTy {decl decl' : VarDecl} (retyped : decl.Retyped unknown decl')
    (clean : (checkTy place decl.ty decl.tySpan.start).tally Finding.isError = 0) :
    (checkTy other decl'.ty decl'.tySpan.start).tally kind =
      (decl'.unknownTys unknown).countP kind := by
  cases retyped with
  | same =>
      rw [site.checkTy_eq, spares.tally_eq_zero clean,
        VarDecl.unknownTys_of_ne (ne_unknown_of_checkTy site clean)]
      rfl
  | changed named tySpan =>
      rw [VarDecl.unknownTys_of_eq rfl]
      dsimp only
      rw [site.checkTy_eq, checkTy, site.strange]
      rfl

/-- What could be assigned still can, as far as the findings that count go. -/
theorem tally_requireAssignable {expected expected' actual actual' : Ty} {name : String}
    {position : Position} (expects : expected.Strays unknown expected')
    (gives : actual.Strays unknown actual')
    (fits : place.model.isAssignable expected actual = true) :
    (requireAssignable other.model name expected' actual' position).tally kind = 0 := by
  rw [requireAssignable_congr site.model.isAssignable_eq]
  exact tally_requireAssignable_of_strays spares expects gives fits

/-- In a declaration nothing else counts. -/
theorem tally_retyped_decl {decl decl' : VarDecl} (retyped : decl.Retyped unknown decl')
    (written : decl.Written) (clean : declTally Finding.isError place scopes decl = 0) :
    declTally kind other others decl' = (decl'.unknownTys unknown).countP kind := by
  rcases clean_of_declErrors clean with ⟨tyClean, notVoid, initClean⟩
  have tallyTy := tally_checkTy spares site retyped tyClean
  have strays := retyped.ty.strays
  have notVoid' : decide (decl'.ty = .void) = false := by
    rw [decide_eq_false_iff_not]
    intro isVoid
    rw [isVoid] at strays
    exact notVoid (((strays.fades_of_ne Ty.noConfusion).resolve_right Ty.noConfusion).symm)
  have silentVoid (problem : Problem) : (Reported.reportIf (decide (decl'.ty = .void))
      decl'.tySpan.start problem).tally kind = 0 := by
    rw [notVoid']
    rfl
  cases hasInit : decl'.init with
  | none => rw [declTally_of_no_init kind hasInit, silentVoid, tallyTy]; rfl
  | some init =>
      have isInit := retyped.init_eq.symm.trans hasInit
      rcases initClean init isInit with ⟨judged, fits⟩
      have part := strayed_judge spares site init
        (written.exprs init (Option.mem_toList.mpr isInit)) judged
      rw [declTally_of_init kind hasInit, silentVoid, tallyTy, part.silent,
        tally_requireAssignable spares site strays part.ty fits]
      rfl

theorem tally_retyped_condition {condition : Expr} (written : condition.Written)
    (clean : conditionTally Finding.isError place scopes condition = 0) :
    conditionTally kind other others condition = 0 := by
  rw [conditionErrors_eq, Nat.add_eq_zero_iff] at clean
  have part := strayed_judge spares site condition written clean.1
  rw [conditionTally_eq, part.silent,
    tally_differs_of_strays part.ty (fun _ => Ty.noConfusion) clean.2]

omit spares site in
theorem span_bindValue {used : NameUse} : (bindValue place scopes used).value.span = used.span := by
  unfold bindValue bindName
  split <;> rfl

theorem tally_retyped_assignment {assignment : Assignment} (written : assignment.Written)
    (clean : assignmentTally Finding.isError place scopes assignment = 0) :
    assignmentTally kind other others assignment = 0 := by
  have writtenValue : assignment.value.Written :=
    written.exprs _ (List.mem_append_right _ (List.mem_singleton_self _))
  cases hasIndex : assignment.index with
  | none =>
      rw [assignmentErrors_of_no_index hasIndex] at clean
      rw [assignmentTally_of_no_index kind hasIndex]
      dsimp only at clean ⊢
      rcases @RetypedSite.strays_bindValue _ _ _ _ _ site kind assignment.target (by omega)
        with ⟨silent, strays⟩
      have target := @NameUse.Strays.targetTy _ _ _ strays kind (by omega)
      have value := strayed_judge spares site assignment.value writtenValue (by omega)
      rw [silent, target.1, value.silent,
        tally_requireAssignable spares site target.2 value.ty (by grind)]
  | some index =>
      rw [assignmentErrors_of_index hasIndex] at clean
      rw [assignmentTally_of_index kind hasIndex]
      dsimp only at clean ⊢
      rcases @RetypedSite.strays_bindValue _ _ _ _ _ site kind assignment.target (by omega)
        with ⟨silent, strays⟩
      have target := @NameUse.Strays.targetTy _ _ _ strays kind (by omega)
      have writtenIndex : index.Written :=
        written.exprs index (List.mem_append_left _ (Option.mem_toList.mpr hasIndex))
      have position := strayed_judge spares site index writtenIndex (by omega)
      have value := strayed_judge spares site assignment.value writtenValue (by omega)
      have spans : (bindValue other others assignment.target).value.span =
          (bindValue place scopes assignment.target).value.span := by
        rw [span_bindValue, span_bindValue]
      have element := @strays_elementTy _ _
        (bindValue place scopes assignment.target).value.span.start _ _ spares target.2 (by omega)
      have integral (place : Position) (problem : Problem) :
          (Reported.reportIf (differs .int (judge other others index).value) place problem).tally
            kind = 0 :=
        tally_differs_of_strays position.ty (fun _ => Ty.noConfusion) (by omega)
      rw [silent, target.1, position.silent, value.silent]
      rw [integral, spans, element.1,
        tally_requireAssignable spares site element.2 value.ty (by grind)]

theorem tally_retyped_return {head : FunctionHead} {returned : Return}
    (known : head.returnTy ≠ .named unknown) (written : returned.Written)
    (clean : returnTally Finding.isError place scopes head returned = 0) :
    returnTally kind other others head returned = 0 := by
  cases hasValue : returned.value with
  | none =>
      have parts := (returnTally_of_no_value Finding.isError hasValue).symm.trans clean
      rw [returnTally_of_no_value kind hasValue]
      exact spares.tally_eq_zero parts
  | some value =>
      rw [returnErrors_of_value hasValue, Nat.add_eq_zero_iff] at clean
      have part := strayed_judge spares site value
        (written value (Option.mem_toList.mpr hasValue)) clean.1
      have notVoid : head.returnTy ≠ .void := by
        intro isVoid
        rw [if_pos isVoid] at clean
        exact Nat.one_ne_zero clean.2
      rw [if_neg notVoid] at clean
      have fits : place.model.isAssignable head.returnTy (judge place scopes value).value = true := by
        grind
      rw [returnTally_of_value kind hasValue, part.silent, if_neg notVoid]
      rw [site.model.isAssignable_eq, tally_mismatchedReturn_of_strays spares known part.ty fits]

end Parts

/-- What is to be reported of the locals of a statement that have the unknown
type. -/
def Stmt.unknownTys (unknown : String) (stmt : Stmt) : List Finding :=
  (stmt.nodes.flatMap Stmt.decls).flatMap (VarDecl.unknownTys unknown)

/-- What is to be reported of the locals of several statements. -/
def Stmt.unknownTysOfList (unknown : String) (stmts : List Stmt) : List Finding :=
  ((nodesOfList stmts).flatMap Stmt.decls).flatMap (VarDecl.unknownTys unknown)

section Stmts

variable {head : FunctionHead}

theorem tally_retyped_fieldAssign (spares : Spares unknown kind) {state state' : ScopeState}
    (site : RetypedSite unknown place other state.scopes state'.scopes) {info : StmtInfo}
    {receiver value : Expr} {used : NameUse} (writtenReceiver : receiver.Written)
    (writtenUsed : used.Written) (writtenValue : value.Written)
    (clean : stmtTally Finding.isError place head state
      (.fieldAssign info receiver used value) = 0) :
    stmtTally kind other head state' (.fieldAssign info receiver used value) = 0 := by
  rw [stmtErrors_fieldAssign] at clean
  rw [stmtTally_fieldAssign]
  dsimp only at clean ⊢
  have part := strayed_judge spares site receiver writtenReceiver (by omega)
  have assigned := strayed_judge spares site value writtenValue (by omega)
  rcases site.site.exists_memberTy? writtenReceiver (by omega) with ⟨ty, isTy, known⟩
  have member := part.member
  rw [isTy] at clean member
  rcases @exists_named_of_bindField _ used _ known (by omega) with ⟨owner, rfl, isTypeName⟩
  rcases @RetypedSite.strays_bindField_of_member _ kind _ _ _ _ _ _ site member used
    writtenUsed.unbound isTypeName (by omega) with ⟨silent, strays⟩
  have target := @NameUse.Strays.targetTy _ _ _ strays kind (by omega)
  rw [part.silent, silent, target.1, assigned.silent,
    tally_requireAssignable spares site target.2 assigned.ty (by grind)]

attribute [local simp] Stmt.unknownTys Stmt.unknownTysOfList Stmt.nodes Stmt.nodesOfList Stmt.decls

mutual

/-- In a statement that stood without error the unknown types of its locals count,
and nothing else. -/
theorem tally_retyped_stmt (spares : Spares unknown kind)
    (known : head.returnTy ≠ .named unknown) {place other : NamePlace}
    {state state' : ScopeState} (site : RetypedSite unknown place other state.scopes state'.scopes) :
    ∀ {stmt stmt' : Stmt}, stmt.Retyped unknown stmt' → stmt.Written →
      stmtTally Finding.isError place head state stmt = 0 →
        stmtTally kind other head state' stmt' = (stmt'.unknownTys unknown).countP kind
  | _, _, .varDecl declaration, written, clean => by
      rw [stmtTally_varDecl] at clean
      rw [stmtTally_varDecl, tally_retyped_decl spares site declaration written clean]
      simp
  | _, _, .assign, written, clean => by
      rw [stmtTally_assign] at clean
      rw [stmtTally_assign, tally_retyped_assignment spares site written clean]
      simp
  | _, _, .fieldAssign, written, clean => by
      rw [tally_retyped_fieldAssign spares site written.1 written.2.2.1 written.2.2.2 clean]
      simp
  | _, _, .call, written, clean => by
      rw [stmtTally_call] at clean
      rw [stmtTally_call, (strayed_judge spares site _ written.1 clean).silent]
      simp
  | _, _, .ifThen inside, written, clean => by
      rw [stmtTally_ifThen, Nat.add_eq_zero_iff] at clean
      rw [stmtTally_ifThen, tally_retyped_condition spares site written.1 clean.1,
        tally_retyped_stmt spares known site inside written.2.1 clean.2]
      simp
  | _, _, .ifElse inside alternative, written, clean => by
      rw [stmtTally_ifElse, Nat.add_eq_zero_iff, Nat.add_eq_zero_iff] at clean
      have behind := site.resolveStmt inside written.2.1 (Nat.eq_zero_of_add_eq_zero clean.1.2).1
      rw [stmtTally_ifElse, tally_retyped_condition spares site written.1 clean.1.1,
        tally_retyped_stmt spares known site inside written.2.1 clean.1.2,
        tally_retyped_stmt spares known behind alternative written.2.2.1 clean.2]
      simp
  | _, _, .whileLoop inside, written, clean => by
      rw [stmtTally_whileLoop, Nat.add_eq_zero_iff] at clean
      rw [stmtTally_whileLoop, tally_retyped_condition spares site written.1 clean.1,
        tally_retyped_stmt spares known site inside written.2.1 clean.2]
      simp
  | _, _, .forLoop declaration inside, written, clean => by
      rw [stmtTally_forLoop] at clean
      dsimp only at clean
      rw [Nat.add_eq_zero_iff, Nat.add_eq_zero_iff, Nat.add_eq_zero_iff] at clean
      have behind := site.inner.resolveLocal declaration written.1 clean.1.1.1
      rw [stmtTally_forLoop]
      dsimp only
      rw [tally_retyped_decl spares site.inner declaration written.1 clean.1.1.1,
        tally_retyped_condition spares behind written.2.1 clean.1.1.2,
        tally_retyped_assignment spares behind written.2.2.1 clean.1.2,
        tally_retyped_stmt spares known behind inside written.2.2.2.1 clean.2]
      simp
  | _, _, .ret, written, clean => by
      rw [stmtTally_ret] at clean
      rw [stmtTally_ret, tally_retyped_return spares site known written clean]
      simp
  | _, _, .block inside, written, clean => by
      rw [stmtTally_block] at clean
      rw [stmtTally_block, tally_retyped_stmts spares known site.inner inside written clean]
      simp

theorem tally_retyped_stmts (spares : Spares unknown kind)
    (known : head.returnTy ≠ .named unknown) {place other : NamePlace}
    {state state' : ScopeState} (site : RetypedSite unknown place other state.scopes state'.scopes) :
    ∀ {stmts stmts' : List Stmt}, Stmt.RetypedList unknown stmts stmts' →
      Stmt.WrittenList stmts → stmtsTally Finding.isError place head state stmts = 0 →
        stmtsTally kind other head state' stmts' = (Stmt.unknownTysOfList unknown stmts').countP kind
  | _, _, .nil, _, _ => rfl
  | _, _, .cons first rest, written, clean => by
      rw [stmtsTally_cons, Nat.add_eq_zero_iff] at clean
      have behind := site.resolveStmt first written.1 (Nat.eq_zero_of_add_eq_zero clean.1).1
      rw [stmtsTally_cons, tally_retyped_stmt spares known site first written.1 clean.1,
        tally_retyped_stmts spares known behind rest written.2 clean.2]
      simp

end

end Stmts

end KnightFront
