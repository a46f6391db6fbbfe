import KnightFront.Proofs.Analysis.Reading
import KnightFront.Proofs.Analysis.Verdict
import KnightFront.Proofs.Retyping.Programs

namespace KnightFront

/-!
# Unknown variable types

Where variables of an accepted program are declared with an unknown type
instead, every such declaration is reported once.  Nothing else is reported but
mismatches in which the unknown type itself takes part: it goes with the variable
and is compared by name with the types that it meets.  Behind a `.` this does not
happen, as name resolution seeks no member in a type that is not declared.
-/

open Analysis Resolution Typing

variable {unknown : String} {kind : Finding → Bool} {programs programs' : List Program}

/-- The findings of a kind are those of the first pass and those about each
file. -/
theorem countP_findingsOf (kind : Finding → Bool) (programs : List Program) :
    (findingsOf true programs).countP kind =
      (SymbolModel.ofPrograms programs).tally kind +
        (programs.map (programTally kind (SymbolModel.ofPrograms programs).value)).sum := by
  have files := Reported.tally_mapM_add_mapM kind
    (Program.resolve (SymbolModel.ofPrograms programs).value)
    (Program.check (SymbolModel.ofPrograms programs).value) programs
  have passes : (findingsOf true programs).countP kind =
      (SymbolModel.ofPrograms programs).tally kind + (resolveAll programs).tally kind +
        (checkAll programs).tally kind := by
    simp [findingsOf, Reported.tally, Nat.add_assoc]
  rw [passes, Nat.add_assoc]
  exact congrArg _ files

theorem errorCount_analyse_eq_countP (programs : List Program) :
    (analyse {} programs).log.errorCount = (findingsOf true programs).countP Finding.isError := by
  rw [errorCount_analyse rfl]
  simp [findingsOf, Reported.tally, Nat.add_assoc]

/-- In an accepted program with retyped variables the unknown types count, and
nothing else. -/
theorem countP_findingsOf_of_retyped (spares : Spares unknown kind)
    (written : ∀ program ∈ programs, program.Written)
    (fresh : ∀ program ∈ programs, program.scopes = [])
    (clean : (analyse {} programs).readyForCode = true)
    (strange : (SymbolModel.ofPrograms programs).value.isTypeName unknown = false)
    (retyped : List.Forall₂ (Program.Retyped unknown) programs programs') :
    (findingsOf true programs').countP kind =
      (unknownTysOf unknown (programs'.flatMap Program.varDecls)).countP kind := by
  rcases passes_of_readyForCode clean with ⟨declares, resolves, checks, -⟩
  rcases SymbolModel.same_ofPrograms retyped with ⟨models, verdict⟩
  have silent : (SymbolModel.ofPrograms programs').tally kind = 0 := by
    apply spares.tally_eq_zero
    rw [Reported.tally, List.countP_eq_zero]
    rw [← Reported.errors_eq_zero_iff, Reported.tally, List.countP_eq_zero] at declares
    have none : (SymbolModel.ofPrograms programs').findings.any Finding.isError = false := by
      rw [verdict, List.any_eq_false]
      exact declares
    exact List.any_eq_false.mp none
  have filesClean :
      (programs.map (programTally Finding.isError (SymbolModel.ofPrograms programs).value)).sum =
        0 := by
    have errors := countP_findingsOf Finding.isError programs
    have zero : (findingsOf true programs).countP Finding.isError = 0 := by
      rw [List.countP_eq_zero, ← List.any_eq_false, ← hasErrors_analyse {}]
      simpa [Compilation.readyForCode] using clean
    rw [zero] at errors
    exact (Nat.add_eq_zero_iff.mp errors.symm).2
  rw [countP_findingsOf, silent, Nat.zero_add]
  exact tally_programs spares (SymbolModel.closed_of_lacks_resolve written resolves)
    (SymbolModel.names_ofPrograms (fun _ _ => trivial) fun _ _ _ _ => trivial) strange models
    retyped written fresh filesClean

/-- A declaration of the unknown type is reported as an error, and not as a
mismatch. -/
theorem isError_of_mem_unknownTysOf {decls : List VarDecl} {finding : Finding}
    (member : finding ∈ unknownTysOf unknown decls) :
    (finding.isError && !finding.problem.isMismatchOf (.named unknown)) = true := by
  rcases List.mem_flatMap.mp member with ⟨decl, -, reported⟩
  unfold VarDecl.unknownTys at reported
  split at reported
  · rw [List.mem_singleton.mp reported]
    rfl
  · cases reported

theorem unknownTysOf_eq_map (decls : List VarDecl) :
    unknownTysOf unknown decls =
      (decls.filter fun decl => decide (decl.ty = .named unknown)).map fun decl =>
        ⟨decl.tySpan.start, .unknownType unknown⟩ := by
  induction decls with
  | nil => rfl
  | cons first rest inductionHypothesis =>
      rw [unknownTysOf] at inductionHypothesis ⊢
      rw [List.flatMap_cons, inductionHypothesis, VarDecl.unknownTys]
      by_cases isUnknown : first.ty = .named unknown <;> simp [isUnknown]

/-- A mismatch is an error. -/
theorem Problem.isError_of_isMismatchOf {problem : Problem} {ty : Ty}
    (mismatch : problem.isMismatchOf ty = true) : problem.isError = true := by
  cases problem <;> first | rfl | cases mismatch

/-- Among the errors in an accepted program with retyped variables, the reports
of unknown types are those that are no mismatches of the unknown type. -/
theorem perm_unknownTysOf_of_retyped (written : ∀ program ∈ programs, program.Written)
    (fresh : ∀ program ∈ programs, program.scopes = [])
    (clean : (analyse {} programs).readyForCode = true)
    (strange : (SymbolModel.ofPrograms programs).value.isTypeName unknown = false)
    (retyped : List.Forall₂ (Program.Retyped unknown) programs programs') :
    ((findingsOf true programs').filter fun finding =>
        finding.isError && !finding.problem.isMismatchOf (.named unknown)).Perm
      (unknownTysOf unknown (programs'.flatMap Program.varDecls)) := by
  rw [List.perm_iff_count]
  intro wanted
  have spares : Spares unknown fun finding => finding == wanted &&
      (finding.isError && !finding.problem.isMismatchOf (.named unknown)) := {
    isError := fun finding counts => by
      rw [Bool.and_eq_true, Bool.and_eq_true] at counts
      exact counts.2.1
    mismatch := fun finding mismatch => by simp [mismatch] }
  rw [List.count, List.countP_filter, countP_findingsOf_of_retyped spares written fresh clean
    strange retyped]
  exact List.countP_congr fun finding member => by
    simp [isError_of_mem_unknownTysOf member]

/-- An unknown variable type is reported once.  Where one variable of an accepted
program is declared with an unknown type instead, one error says that the type is
unknown, and every other error is a mismatch in which the unknown type takes
part. -/
theorem errorCount_analyse_of_unknownType {decl : VarDecl}
    (written : ∀ program ∈ programs, program.Written)
    (fresh : ∀ program ∈ programs, program.scopes = [])
    (clean : (analyse {} programs).readyForCode = true)
    (strange : (SymbolModel.ofPrograms programs).value.isTypeName unknown = false)
    (retyped : List.Forall₂ (Program.Retyped unknown) programs programs')
    (once : (programs'.flatMap Program.varDecls).filter
      (fun decl => decide (decl.ty = .named unknown)) = [decl]) :
    ((findingsOf true programs').filter fun finding =>
        finding.isError && !finding.problem.isMismatchOf (.named unknown)) =
      [⟨decl.tySpan.start, .unknownType unknown⟩] ∧
    (analyse {} programs').log.errorCount =
      1 + (findingsOf true programs').countP fun finding =>
        finding.problem.isMismatchOf (.named unknown) := by
  have others := perm_unknownTysOf_of_retyped written fresh clean strange retyped
  rw [unknownTysOf_eq_map, once, List.map_singleton, List.perm_singleton] at others
  refine ⟨others, ?_⟩
  have parts := List.countP_eq_countP_filter_add (findingsOf true programs') Finding.isError
    fun finding => !finding.problem.isMismatchOf (.named unknown)
  have rest := congrArg List.length others
  rw [← List.countP_eq_length_filter] at rest
  rw [List.countP_filter, List.countP_filter, rest] at parts
  rw [errorCount_analyse_eq_countP, parts]
  refine congrArg (1 + ·) (List.countP_congr fun finding _ => ?_)
  simp only [Bool.not_not, Bool.and_eq_true]
  exact ⟨fun both => both.2, fun mismatch => ⟨Problem.isError_of_isMismatchOf mismatch, mismatch⟩⟩

/-- The declarations `class A { }` and `A a = new A();`, with a type in the place
where the second one names the class. -/
def heldInstance (ty : Ty) : Program where
  file := "main.kn"
  items := [.classDecl ⟨"A", none, [], [], [], ⟨.nowhere, .nowhere⟩⟩,
    .globalVariable ⟨ty, ⟨.nowhere, .nowhere⟩, "a", ⟨.nowhere, .nowhere⟩,
      some (.newInstance .unplaced (.unplaced "A"))⟩]

/-- In the place of a class the unknown type `U` is reported, and once more it is
reported that it does not fit the instance. -/
theorem errorCount_analyse_unknownType_heldInstance :
    let programs := [heldInstance (.named "A")]
    let programs' := [heldInstance (.named "U")]
    let decl : VarDecl := ⟨.named "U", ⟨.nowhere, .nowhere⟩, "a", ⟨.nowhere, .nowhere⟩,
      some (.newInstance .unplaced (.unplaced "A"))⟩
    (∀ program ∈ programs, program.Written) ∧ (∀ program ∈ programs, program.scopes = []) ∧
      (analyse {} programs).readyForCode = true ∧
      (SymbolModel.ofPrograms programs).value.isTypeName "U" = false ∧
      List.Forall₂ (Program.Retyped "U") programs programs' ∧
      (programs'.flatMap Program.varDecls).filter
        (fun decl => decide (decl.ty = .named "U")) = [decl] ∧
      ((findingsOf true programs').filter fun finding =>
          finding.isError && !finding.problem.isMismatchOf (.named "U")) =
        [⟨decl.tySpan.start, .unknownType "U"⟩] ∧
      (analyse {} programs').log.errorCount =
        1 + (findingsOf true programs').countP fun finding =>
          finding.problem.isMismatchOf (.named "U") := by
  intro programs programs' decl
  have isIdentifierClass : IsIdentifier "A" :=
    ⟨⟨'A', [], rfl, by decide, List.all_eq_true.mp (by decide)⟩, by decide⟩
  have isIdentifierName : IsIdentifier "a" :=
    ⟨⟨'a', [], rfl, by decide, List.all_eq_true.mp (by decide)⟩, by decide⟩
  have written : ∀ program ∈ programs, program.Written := by
    refine List.forall_mem_singleton.mpr (List.forall_mem_cons.mpr ⟨?_,
      List.forall_mem_singleton.mpr ⟨isIdentifierClass, isIdentifierName, ?_⟩⟩)
    · exact ⟨isIdentifierClass, by simp, List.forall_mem_nil _, List.forall_mem_nil _,
        List.forall_mem_nil _⟩
    · exact List.forall_mem_singleton.mpr (Expr.written_newInstance.mpr ⟨isIdentifierClass, rfl⟩)
  have fresh : ∀ program ∈ programs, program.scopes = [] := List.forall_mem_singleton.mpr rfl
  have clean : (analyse {} programs).readyForCode = true := by decide +kernel
  have strange : (SymbolModel.ofPrograms programs).value.isTypeName "U" = false := by
    decide +kernel
  have retyped : List.Forall₂ (Program.Retyped "U") programs programs' :=
    .cons (.items (.cons (.classDecl (.members .nil .nil))
      (.cons (.globalVariable (.changed rfl _)) .nil))) .nil
  have once : (programs'.flatMap Program.varDecls).filter
      (fun decl => decide (decl.ty = .named "U")) = [decl] := rfl
  have reported := errorCount_analyse_of_unknownType written fresh clean strange retyped once
  exact ⟨written, fresh, clean, strange, retyped, once, reported.1, reported.2⟩

/-- A file in which a variable of some type holds an instance of a class. -/
def instanceIn (ty : String) : SourceFile :=
  ⟨"main.knight", "class A \x7b \x7d " ++ ty ++ " a = new A();"⟩

/-- An unknown type is reported, and so is the instance that it does not take. -/
theorem errorCount_analyse_unknownInstance :
    (∃ programs, readFiles [instanceIn "A"] = .ok programs ∧
      (analyse {} programs).readyForCode = true) ∧
    ∃ programs, readFiles [instanceIn "U"] = .ok programs ∧
      (analyse {} programs).log.errorCount = 2 := by
  constructor
  · exact exists_of_readWith (readWith_of_letters
      (.cons (.append (.append .literal .literal) .literal) .nil) (by decide +kernel))
  · have counted : readWith (fun programs => decide (
        (SymbolModel.ofPrograms programs).tally Finding.isError +
        (resolveAll programs).tally Finding.isError +
        (checkAll programs).tally Finding.isError = 2)) [instanceIn "U"] = true :=
      readWith_of_letters (.cons (.append (.append .literal .literal) .literal) .nil)
        (by decide +kernel)
    rcases exists_of_readWith counted with ⟨programs, read, isTwo⟩
    exact ⟨programs, read, (errorCount_analyse rfl programs).trans (of_decide_eq_true isTwo)⟩

end KnightFront
