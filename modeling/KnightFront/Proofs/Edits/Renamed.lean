import KnightFront.Proofs.Analysis.Reading
import KnightFront.Proofs.Edits.SpoiledProgram

namespace KnightFront

/-!
# Undeclared names

Where one used name of an accepted program is exchanged for a name that is
declared nowhere, exactly one error is reported.  Name resolution reports the
name and leaves it unbound; what is unbound has the error type, and a member
behind it is not sought.
-/

open Analysis Resolution Typing

/-- The use of a name for which nothing has been found yet. -/
structure NameUse.UseOf (name : String) (used : NameUse) : Prop where
  text : used.text = name
  unbound : used.binding = none

/-- A name is another one. -/
def OtherThan (name other : String) : Prop := other ≠ name

theorem not_otherThan (name : String) : ¬ OtherThan name name := not_not_intro rfl

/-- Expressions that differ in the name in the outermost node. -/
inductive Expr.Renamed (name : String) : Expr → Expr → Prop where
  | value {info : ExprInfo} {used used' : NameUse} (renamed : used'.UseOf name) :
      Renamed name (.name info used) (.name info used')
  | callee {info : ExprInfo} {callee callee' : NameUse} {args : List Expr}
      (renamed : callee'.UseOf name) :
      Renamed name (.call info callee args) (.call info callee' args)
  | method {info : ExprInfo} {receiver : Expr} {callee callee' : NameUse} {args : List Expr}
      (renamed : callee'.UseOf name) :
      Renamed name (.methodCall info receiver callee args)
        (.methodCall info receiver callee' args)
  | field {info : ExprInfo} {receiver : Expr} {used used' : NameUse}
      (renamed : used'.UseOf name) :
      Renamed name (.field info receiver used) (.field info receiver used')
  | className {info : ExprInfo} {className className' : NameUse}
      (renamed : className'.UseOf name) :
      Renamed name (.newInstance info className) (.newInstance info className')

/-- Another name in one place where a name is used, in an expression or as the
target of an assignment. -/
def Edit.renaming (name : String) : Edit where
  expr _ _ _ := Expr.Renamed name
  target _ target' := target'.UseOf name
  member _ used' := used'.UseOf name

namespace Resolution

variable {place : NamePlace} {scopes : List Scope} {name : String} {used : NameUse}

/-- The name of something that has not been found stays as it is, and is
reported. -/
theorem bindName_none {problem : Problem} (grave : problem.isError = true)
    (unbound : used.binding = none) :
    (bindName used none problem).tally Finding.isError = 1 ∧
      (bindName used none problem).value.binding = none := by
  refine ⟨?_, unbound⟩
  have reported : (Reported.report used.span.start problem).tally Finding.isError = 1 := by
    rw [Reported.tally_report, Finding.isError_mk, grave]
    rfl
  rw [bindName, Reported.tally_bind, reported]
  rfl

section Nowhere

variable (site : Site (OtherThan name) place scopes)

include site

theorem findOwnMethod?_eq_none : findOwnMethod? place name = none := by
  simp [findOwnMethod?, site.names.findMethod? (not_otherThan name)]

theorem findFunction?_eq_none : findFunction? place name = none := by
  have absent := Table.find?_eq_none_of_names site.names.functions (not_otherThan name)
  rw [findFunction?, SymbolModel.function?, absent]
  rfl

theorem findCallee?_eq_none : findCallee? place name = none := by
  rw [findCallee?, findOwnMethod?_eq_none site, findFunction?_eq_none site]
  rfl

theorem findValue?_eq_none : findValue? place scopes name = none := by
  have unknown := not_otherThan name
  have inScope : findScoped? place scopes name = none := by
    simp [findScoped?, site.scopeNames.lookup unknown]
  have ownField : findOwnField? place name = none := by
    simp [findOwnField?, site.names.findField? unknown]
  have global : findGlobal? place name = none := by
    have absent := Table.find?_eq_none_of_names site.names.globals unknown
    rw [findGlobal?, SymbolModel.global?, absent]
    rfl
  have callee : (findOwnMethod? place name).or (findFunction? place name) = none :=
    findCallee?_eq_none site
  rw [findValue?, inScope, ownField, global]
  exact callee

end Nowhere

section Unknown

variable (site : Site (OtherThan name) place scopes) (renamed : used.UseOf name)

include site renamed

theorem lost_bindValue :
    (bindValue place scopes used).tally Finding.isError = 1 ∧
      (bindValue place scopes used).value.binding = none := by
  rw [bindValue, renamed.text, findValue?_eq_none site]
  exact bindName_none rfl renamed.unbound

theorem lost_bindCallee :
    (bindCallee place used).tally Finding.isError = 1 ∧
      (bindCallee place used).value.binding = none := by
  rw [bindCallee, renamed.text, findCallee?_eq_none site]
  exact bindName_none rfl renamed.unbound

theorem lost_bindMethod {owner : String} (isTypeName : place.model.isTypeName owner = true) :
    (bindMethod place (some (.named owner)) used).tally Finding.isError = 1 ∧
      (bindMethod place (some (.named owner)) used).value.binding = none := by
  have unknown := not_otherThan name
  rw [SymbolModel.isTypeName, Bool.or_eq_true] at isTypeName
  simp only [bindMethod, renamed.text]
  split
  next =>
    rw [site.names.findMethod? unknown]
    exact bindName_none rfl renamed.unbound
  next noClass =>
    rw [if_pos (isTypeName.resolve_left noClass), site.names.findInterfaceMethod? unknown]
    exact bindName_none rfl renamed.unbound

theorem lost_bindField {owner : String} (isTypeName : place.model.isTypeName owner = true) :
    (bindField place (some (.named owner)) used).tally Finding.isError = 1 ∧
      (bindField place (some (.named owner)) used).value.binding = none := by
  have unknown := not_otherThan name
  rw [SymbolModel.isTypeName, Bool.or_eq_true] at isTypeName
  simp only [bindField, renamed.text]
  split
  next =>
    rw [site.names.findField? unknown]
    exact bindName_none rfl renamed.unbound
  next noClass =>
    rw [if_pos (isTypeName.resolve_left noClass)]
    exact bindName_none rfl renamed.unbound

theorem lost_bindInstance :
    (bindInstance place used).tally Finding.isError = 1 ∧
      (bindInstance place used).value.binding = none := by
  have unknown := not_otherThan name
  rw [bindInstance, renamed.text, Table.contains_eq_false_of_names site.names.classes unknown,
    Table.contains_eq_false_of_names site.names.interfaces unknown]
  exact bindName_none rfl renamed.unbound

end Unknown

end Resolution

/-- A name that is declared nowhere makes one error. -/
theorem Edit.spoils_renaming (name : String) : (Edit.renaming name).Spoils (OtherThan name) where
  target site _ renamed := lost_bindValue site renamed
  member site _ isTypeName renamed := lost_bindField site renamed isTypeName
  expr := by
    intro place scopes role expr expr' site written clean renamed
    cases renamed with
    | @value info used used' renamed =>
        have lost := lost_bindValue site renamed
        have untyped := boundTy_of_unbound lost.2
        refine ⟨(tally_judge_name _).trans lost.1, .inr untyped, fun _ _ _ => .inl ?_⟩
        simp [memberTy?, resolveExpr, Expr.staticTy?, lost.2]
    | @callee info callee callee' args renamed =>
        have lost := lost_bindCallee site renamed
        rw [tally_judge_call] at clean
        refine ⟨?_, .inr ?_, fun _ _ _ => .inl ?_⟩
        · rw [tally_judge_call, callTy_of_unbound lost.2, Reported.tally_pure]
          omega
        · rw [value_judge_call, callTy_of_unbound lost.2]
          rfl
        · simp [memberTy?, resolveExpr, Expr.staticTy?, lost.2]
    | @method info receiver callee callee' args renamed =>
        rw [Expr.written_methodCall] at written
        rw [tally_judge_methodCall] at clean
        rcases site.exists_memberTy? written.2.1 (by omega) with ⟨ty, isTy, known⟩
        rw [isTy] at clean
        rcases @exists_named_of_bindMethod _ callee _ known (by omega) with ⟨owner, rfl, isTypeName⟩
        have lost := lost_bindMethod site renamed isTypeName
        refine ⟨?_, .inr ?_, fun _ _ _ => .inl ?_⟩
        · rw [tally_judge_methodCall, isTy, callTy_of_unbound lost.2, Reported.tally_pure]
          omega
        · rw [value_judge_methodCall, isTy, callTy_of_unbound lost.2]
          rfl
        · rw [memberTy?_methodCall, isTy, lost.2]
          rfl
    | @field info receiver used used' renamed =>
        rw [Expr.written_field] at written
        rw [tally_judge_field] at clean
        rcases site.exists_memberTy? written.2 (by omega) with ⟨ty, isTy, known⟩
        rw [isTy] at clean
        rcases @exists_named_of_bindField _ used _ known (by omega) with ⟨owner, rfl, isTypeName⟩
        have lost := lost_bindField site renamed isTypeName
        refine ⟨?_, .inr ?_, fun _ _ _ => .inl ?_⟩
        · rw [tally_judge_field, isTy]
          omega
        · rw [value_judge_field, isTy]
          exact boundTy_of_unbound lost.2
        · rw [memberTy?_field, isTy, lost.2]
          rfl
    | @className info className className' renamed =>
        have lost := lost_bindInstance site renamed
        have untyped := boundTy_of_unbound lost.2
        refine ⟨(tally_judge_newInstance _).trans lost.1, .inr untyped, fun _ _ _ => .inl ?_⟩
        simp [memberTy?, resolveExpr, Expr.staticTy?, lost.2]

/-- In files without error, where a used name is exchanged for one that no file
and no builtin function declares, exactly one error is reported. -/
theorem errorCount_analyse_of_renamed {programs programs' : List Program} {name : String}
    (written : ∀ program ∈ programs, program.Written)
    (fresh : ∀ program ∈ programs, program.scopes = [])
    (clean : (analyse {} programs).readyForCode = true)
    (undeclared : ∀ program ∈ programs, name ∉ program.declaredNames)
    (notBuiltin : ∀ builtin ∈ Builtin.all, builtin.name ≠ name)
    (renamed : ProgramsEdited (.renaming name) (SymbolModel.ofPrograms programs).value programs
      programs') :
    (analyse {} programs').log.errorCount = 1 := by
  refine errorCount_analyse_of_edited (Edit.spoils_renaming name) notBuiltin written fresh ?_ clean
    renamed
  intro program member other declared isName
  exact undeclared program member (isName ▸ declared)

/-- Of two numbers the second is declared with a name that nothing declares in
the place of the first. -/
theorem errorCount_analyse_renamed_chainedNumbers :
    let programs := [chainedNumbers (.name .unplaced (.unplaced "first"))]
    let programs' := [chainedNumbers (.name .unplaced (.unplaced "third"))]
    (∀ program ∈ programs, program.Written) ∧ (∀ program ∈ programs, program.scopes = []) ∧
      (analyse {} programs).readyForCode = true ∧
        (∀ program ∈ programs, "third" ∉ program.declaredNames) ∧
          (∀ builtin ∈ Builtin.all, builtin.name ≠ "third") ∧
            ProgramsEdited (.renaming "third") (SymbolModel.ofPrograms programs).value programs
              programs' ∧
              (analyse {} programs').log.errorCount = 1 := by
  intro programs programs'
  have written : ∀ program ∈ programs, program.Written :=
    List.forall_mem_singleton.mpr
      (written_chainedNumbers (Expr.written_name.mpr ⟨isIdentifier_first, rfl⟩))
  have fresh : ∀ program ∈ programs, program.scopes = [] := List.forall_mem_singleton.mpr rfl
  have clean : (analyse {} programs).readyForCode = true := by decide +kernel
  have undeclared : ∀ program ∈ programs, "third" ∉ program.declaredNames := by decide
  have notBuiltin : ∀ builtin ∈ Builtin.all, builtin.name ≠ "third" := by decide
  have renamed : ProgramsEdited (.renaming "third") (SymbolModel.ofPrograms programs).value programs
      programs' := edited_chainedNumbers (.value ⟨rfl, rfl⟩)
  exact ⟨written, fresh, clean, undeclared, notBuiltin, renamed,
    errorCount_analyse_of_renamed written fresh clean undeclared notBuiltin renamed⟩

end KnightFront
