import KnightFront.Proofs.Analysis.Reading
import KnightFront.Proofs.Diagnostics.Rearranged
import KnightFront.Proofs.Resolution.Rearranged
import KnightFront.Proofs.Symbols.Collected
import KnightFront.Proofs.Typing.Rearranged

namespace KnightFront

/-!
# The order of files

Where no name is declared again at the top level, files can be given in any
order.  The declarations of all files make models that differ in order only, so
every file is resolved and checked alike, and the findings are the same.  Only
the order in which they are found is another, and a report does not show that:
it lists them by place.
-/

section Declarations

variable {programs programs' : List Program}

/-- Rearranged models have the same cycles, which are listed by name. -/
theorem SymbolModel.Rearranged.cycleFindings_eq {first second : SymbolModel}
    (models : first.Rearranged second) :
    Declarations.cycleFindings first = Declarations.cycleFindings second := by
  simp only [Declarations.cycleFindings, models.classes.sorted_eq, models.interfaces.sorted_eq,
    models.hasCyclicInheritance_eq, models.hasCyclicExtension_eq]

/-- Files in another order make a model that declares the same, with the same
findings. -/
theorem SymbolModel.rearranged_ofPrograms
    (lacks : (ofPrograms programs).Lacks Problem.isRedeclaration)
    (perm : programs.Perm programs') :
    (ofPrograms programs).value.Rearranged (ofPrograms programs').value ∧
      (ofPrograms programs).findings.Perm (ofPrograms programs').findings := by
  have items : (programs.flatMap Program.items).Perm (programs'.flatMap Program.items) :=
    perm.flatMap_right _
  rw [lacks_ofPrograms_iff] at lacks
  rcases Declarations.exists_extendedBy_of_addItems lacks with ⟨model, extended⟩
  rcases extended.rearranged items with ⟨model', extended', models⟩
  rw [ofPrograms_eq, ofPrograms_eq, Declarations.addItems_of_extendedBy extended,
    Declarations.addItems_of_extendedBy extended']
  refine ⟨models, ?_⟩
  rw [Reported.findings_bind, Reported.findings_bind]
  exact (items.flatMap_right _).append (.of_eq models.cycleFindings_eq)

end Declarations

/-- The log of analysis is sorted, whichever pass comes last. -/
theorem pairwise_leads_analyse (options : Options) (programs : List Program) :
    (analyse options programs).log.entries.Pairwise Diagnostic.Leads := by
  unfold analyse
  dsimp only
  split
  · exact DiagnosticLog.pairwise_leads_sorted _
  · split <;> exact DiagnosticLog.pairwise_leads_sorted _

/-- Analysis of programs in another order finds the same, and annotates each
program in the same way. -/
theorem analyse_of_perm {programs programs' : List Program} (options : Options)
    (lacks : (SymbolModel.ofPrograms programs).Lacks Problem.isRedeclaration)
    (perm : programs.Perm programs') :
    (analyse options programs).log.Rearranged (analyse options programs').log ∧
      ∃ annotate : Program → Program,
        (analyse options programs).programs = programs.map annotate ∧
          (analyse options programs').programs = programs'.map annotate := by
  rcases SymbolModel.rearranged_ofPrograms lacks perm with ⟨models, declared⟩
  have passed (pass : Program → Reported Program) {files files' : List Program}
      (perm : files.Perm files') : (files.mapM pass).findings.Perm (files'.mapM pass).findings := by
    rw [Reported.findings_mapM, Reported.findings_mapM]
    exact perm.flatMap_right _
  let model := (SymbolModel.ofPrograms programs).value
  have resolved : (programs.mapM (Program.resolve model)).value.Perm
      (programs'.mapM (Program.resolve model)).value := by
    rw [Reported.value_mapM, Reported.value_mapM]
    exact perm.map _
  let start := DiagnosticLog.empty.withWarnings options.warnings
  have afterFirst := (DiagnosticLog.Rearranged.refl start).record declared
  have afterSecond := afterFirst.record (passed (Program.resolve model) perm)
  have afterThird := afterSecond.record (passed (Program.check model) resolved)
  unfold analyse
  dsimp only
  rw [← models.resolve_eq, ← models.check_eq, ← afterFirst.stopsAfter_eq,
    ← afterSecond.stopsAfter_eq]
  split
  · exact ⟨afterFirst.sorted, id, (List.map_id _).symm, (List.map_id _).symm⟩
  · split
    · exact ⟨afterSecond.sorted, fun program => (program.resolve model).value,
        Reported.value_mapM _ _, Reported.value_mapM _ _⟩
    · refine ⟨afterThird.sorted, fun program => ((program.resolve model).value.check model).value,
        ?_, ?_⟩ <;> rw [Reported.value_mapM, Reported.value_mapM, List.map_map] <;> rfl

/-- Where no name is declared again at the top level, files in another order
give the same diagnostics, as a list that is sorted like the first one, and the
same tree for each file. -/
theorem compile_of_perm {files files' : List SourceFile} {programs : List Program}
    (options : Options) (read : readFiles files = .ok programs)
    (lacks : (SymbolModel.ofPrograms programs).Lacks Problem.isRedeclaration)
    (perm : files.Perm files') :
    ∃ first second, compile options files = .ok first ∧ compile options files' = .ok second ∧
      first.log.entries.Perm second.log.entries ∧ first.hasErrors = second.hasErrors ∧
      (∃ tree : SourceFile → Program,
        first.programs = files.map tree ∧ second.programs = files'.map tree) ∧
      first.log.entries.Pairwise Diagnostic.Leads ∧
      second.log.entries.Pairwise Diagnostic.Leads := by
  rcases exists_tree_of_readFiles read with ⟨tree, each, rfl⟩
  have read' : readFiles files' = .ok (files'.map tree) :=
    readFiles_of_tree fun file member => each file (perm.mem_iff.mpr member)
  rcases analyse_of_perm options lacks (perm.map tree) with ⟨logs, annotate, same, same'⟩
  refine ⟨analyse options (files.map tree), analyse options (files'.map tree), ?_, ?_,
    logs.entries, logs.hasErrors_eq, ⟨annotate ∘ tree, ?_, ?_⟩,
    pairwise_leads_analyse options _, pairwise_leads_analyse options _⟩
  · rw [compile, read]
    rfl
  · rw [compile, read']
    rfl
  · rw [same, List.map_map]
  · rw [same', List.map_map]

/-- Two files whose classes extend each other.  One of the classes uses an
interface of the other file. -/
def crossingFiles : List SourceFile :=
  [⟨"square.kn", "class Square ext Shape use Sized \x7b " ++
      "fn size(): string \x7b ret \"one\"; \x7d \x7d"⟩,
    ⟨"shape.kn", "interface Sized \x7b fn size(): int; \x7d " ++
      "class Shape ext Square \x7b int width = side; \x7d"⟩]

/-- The other order of two files that need each other makes no difference. -/
theorem compile_crossingFiles_reverse :
    ∃ programs, readFiles crossingFiles = .ok programs ∧
      (SymbolModel.ofPrograms programs).Lacks Problem.isRedeclaration ∧
      crossingFiles.Perm crossingFiles.reverse ∧
      ∃ first second, compile {} crossingFiles = .ok first ∧
        compile {} crossingFiles.reverse = .ok second ∧
        first.log.entries.Perm second.log.entries ∧ first.hasErrors = second.hasErrors ∧
        (∃ tree : SourceFile → Program, first.programs = crossingFiles.map tree ∧
          second.programs = crossingFiles.reverse.map tree) ∧
        first.log.entries.Pairwise Diagnostic.Leads ∧
        second.log.entries.Pairwise Diagnostic.Leads := by
  have single : readWith (fun programs =>
      decide (((programs.flatMap Program.items).foldlM Declarations.addItem .withBuiltins).Lacks
        Problem.isRedeclaration)) crossingFiles = true :=
    readWith_of_letters (.cons (.append .literal .literal) (.cons (.append .literal .literal) .nil))
      (by decide +kernel)
  rcases exists_of_readWith single with ⟨programs, read, isSingle⟩
  have lacks := (SymbolModel.lacks_ofPrograms_iff programs).mpr (of_decide_eq_true isSingle)
  have perm : crossingFiles.Perm crossingFiles.reverse := crossingFiles.reverse_perm.symm
  exact ⟨programs, read, lacks, perm, compile_of_perm {} read lacks perm⟩

end KnightFront
