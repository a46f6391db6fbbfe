import KnightFront.Proofs.Analysis.Reading
import KnightFront.Proofs.Diagnostics.Counts
import KnightFront.Proofs.Diagnostics.Rearranged
import Mathlib.Data.List.Perm.Subperm

namespace KnightFront

/-!
# Options and the verdict

Options decide how much is reported, not what is accepted.  Without warnings
the report is the same but for them, and when analysis ends after the first
pass with an error, what it has found so far is a part of what it would have
found.  An error that ends analysis early is itself in the report, so the
verdict is the same either way.
-/

section Sorting

variable {α : Type} {le : α → α → Bool}

/-- Sorting puts the first member of a list behind those it must follow and in
front of the others, which keep their order. -/
theorem mergeSort_cons_eq_filter (trans : ∀ first second third, le first second = true →
      le second third = true → le first third = true)
    (total : ∀ first second, (le first second || le second first) = true)
    (first : α) (rest : List α) :
    (first :: rest).mergeSort le =
      (rest.mergeSort le).filter (fun other => !le first other) ++
        first :: (rest.mergeSort le).filter (le first) := by
  obtain ⟨front, back, placed, others, before⟩ := List.mergeSort_cons trans total first rest
  have ordered : (front ++ first :: back).Pairwise fun one other => le one other = true :=
    placed ▸ List.pairwise_mergeSort trans total (first :: rest)
  have behind : ∀ other ∈ back, le first other = true :=
    (List.pairwise_cons.mp (List.pairwise_append.mp ordered).2.1).1
  have ahead : ∀ other ∈ front, le first other = false :=
    fun other member => by simpa using before other member
  have kept : (front ++ back).filter (fun other => !le first other) = front := by
    rw [List.filter_append, List.filter_eq_self.mpr before,
      List.filter_eq_nil_iff.mpr (by simpa using behind), List.append_nil]
  have moved : (front ++ back).filter (le first) = back := by
    rw [List.filter_append, List.filter_eq_nil_iff.mpr (by simpa using ahead),
      List.filter_eq_self.mpr behind, List.nil_append]
  rw [placed, others, kept, moved]

/-- Members can be dropped before or after sorting. -/
theorem mergeSort_filter (trans : ∀ first second third, le first second = true →
      le second third = true → le first third = true)
    (total : ∀ first second, (le first second || le second first) = true)
    (keep : α → Bool) (list : List α) :
    (list.filter keep).mergeSort le = (list.mergeSort le).filter keep := by
  induction list with
  | nil => rw [List.filter_nil, List.mergeSort_nil, List.filter_nil]
  | cons first rest inductionHypothesis =>
      cases kept : keep first with
      | true =>
          have swap (test : α → Bool) (members : List α) :
              (members.filter keep).filter test = (members.filter test).filter keep := by
            simp only [List.filter_filter, Bool.and_comm]
          let sorted := rest.mergeSort le
          calc
            ((first :: rest).filter keep).mergeSort le =
                ((rest.filter keep).mergeSort le).filter (fun other => !le first other) ++
                  first :: ((rest.filter keep).mergeSort le).filter (le first) := by
              rw [List.filter_cons_of_pos kept, mergeSort_cons_eq_filter trans total]
            _ = (sorted.filter fun other => !le first other).filter keep ++
                  first :: (sorted.filter (le first)).filter keep := by
              rw [inductionHypothesis, swap, swap]
            _ = ((first :: rest).mergeSort le).filter keep := by
              rw [mergeSort_cons_eq_filter trans total, List.filter_append,
                List.filter_cons_of_pos kept]
      | false =>
          obtain ⟨front, back, placed, others, -⟩ := List.mergeSort_cons trans total first rest
          have dropped : ¬ keep first = true := by simp [kept]
          calc
            ((first :: rest).filter keep).mergeSort le = (rest.mergeSort le).filter keep := by
              rw [List.filter_cons_of_neg dropped, inductionHypothesis]
            _ = front.filter keep ++ back.filter keep := by
              rw [others, List.filter_append]
            _ = ((first :: rest).mergeSort le).filter keep := by
              rw [placed, List.filter_append, List.filter_cons_of_neg dropped]

end Sorting

/-- The findings of analysis in the order in which they are made, with or
without those of later passes behind an error. -/
def findingsOf (continueAfterErrors : Bool) (programs : List Program) : List Finding :=
  let declared := (SymbolModel.ofPrograms programs).findings
  if declared.any Finding.isError && !continueAfterErrors then declared
  else
    let resolved := declared ++ (resolveAll programs).findings
    if resolved.any Finding.isError && !continueAfterErrors then resolved
    else resolved ++ (checkAll programs).findings

namespace DiagnosticLog

theorem record_append (log : DiagnosticLog) (first second : List Finding) :
    log.record (first ++ second) = (log.record first).record second := by
  rw [record, List.map_append, extend_append]
  rfl

/-- A log that had no entries has an error if one has been found, whether or
not it takes warnings. -/
theorem hasErrors_record_empty (taken : Bool) (findings : List Finding) :
    ((empty.withWarnings taken).record findings).hasErrors = findings.any Finding.isError := by
  calc
    ((empty.withWarnings taken).record findings).hasErrors =
        (false || (findings.map Finding.diagnostic).any Diagnostic.isError) := by
      rw [record, hasErrors_extend, hasErrors_empty]
    _ = (findings.map Finding.diagnostic).any Diagnostic.isError := Bool.false_or _
    _ = findings.any Finding.isError := List.any_map

end DiagnosticLog

/-- The log of analysis holds what is found, less the warnings if they are not
wanted, in the order of a report. -/
theorem log_analyse (options : Options) (programs : List Program) :
    (analyse options programs).log =
      ((DiagnosticLog.empty.withWarnings options.warnings).record
        (findingsOf options.continueAfterErrors programs)).sorted := by
  unfold analyse findingsOf checkAll resolveAll Options.stopsAfter
  dsimp only
  simp only [← DiagnosticLog.record_append, DiagnosticLog.hasErrors_record_empty]
  split
  · rfl
  · split <;> rfl

/-- What is found before analysis ends is what is found first. -/
theorem isPrefix_findingsOf (continueAfterErrors : Bool) (programs : List Program) :
    findingsOf continueAfterErrors programs <+: findingsOf true programs := by
  unfold findingsOf
  simp only [Bool.not_true, Bool.and_false, Bool.false_eq_true, if_false]
  split
  · exact ⟨_, (List.append_assoc _ _ _).symm⟩
  · split
    · exact List.prefix_append _ _
    · exact List.prefix_refl _

/-- Analysis ends early only behind an error. -/
theorem findingsOf_eq_or_any_isError (continueAfterErrors : Bool) (programs : List Program) :
    findingsOf continueAfterErrors programs = findingsOf true programs ∨
      (findingsOf continueAfterErrors programs).any Finding.isError = true := by
  unfold findingsOf
  simp only [Bool.not_true, Bool.and_false, Bool.false_eq_true, if_false]
  split
  next stops => exact Or.inr (Bool.and_eq_true_iff.mp stops).1
  next =>
    split
    next stops => exact Or.inr (Bool.and_eq_true_iff.mp stops).1
    next => exact Or.inl rfl

/-- Whether an error is found does not depend on what is done behind it. -/
theorem any_isError_findingsOf (continueAfterErrors : Bool) (programs : List Program) :
    (findingsOf continueAfterErrors programs).any Finding.isError =
      (findingsOf true programs).any Finding.isError := by
  rcases findingsOf_eq_or_any_isError continueAfterErrors programs with same | found
  · rw [same]
  · rw [found]
    obtain ⟨finding, member, isError⟩ := List.any_eq_true.mp found
    exact (List.any_eq_true.mpr
      ⟨finding, (isPrefix_findingsOf continueAfterErrors programs).subset member, isError⟩).symm

theorem findingsOf_eq_of_clean {programs : List Program}
    (clean : (findingsOf true programs).any Finding.isError = false) (continueAfterErrors : Bool) :
    findingsOf continueAfterErrors programs = findingsOf true programs := by
  refine (findingsOf_eq_or_any_isError continueAfterErrors programs).resolve_right ?_
  rw [any_isError_findingsOf, clean]
  exact Bool.false_ne_true

/-- Every choice of options gives the same verdict. -/
theorem hasErrors_analyse (options : Options) (programs : List Program) :
    (analyse options programs).hasErrors = (findingsOf true programs).any Finding.isError := by
  let taken := DiagnosticLog.empty.withWarnings options.warnings
  calc
    (analyse options programs).hasErrors =
        (taken.record (findingsOf options.continueAfterErrors programs)).hasErrors := by
      rw [Compilation.hasErrors, log_analyse, DiagnosticLog.hasErrors_sorted]
    _ = (findingsOf options.continueAfterErrors programs).any Finding.isError :=
      DiagnosticLog.hasErrors_record_empty _ _
    _ = (findingsOf true programs).any Finding.isError := any_isError_findingsOf _ _

/-- Dropping warnings drops nothing else, and keeps the order. -/
theorem entries_analyse_withoutWarnings (continueAfterErrors : Bool) (programs : List Program) :
    (analyse ⟨false, continueAfterErrors⟩ programs).log.entries =
      (analyse ⟨true, continueAfterErrors⟩ programs).log.entries.filter
        fun diagnostic => decide (diagnostic.severity ≠ .warning) := by
  rw [log_analyse, log_analyse]
  have all : (DiagnosticLog.empty.withWarnings true).accepts = fun _ => true := rfl
  have graver : (DiagnosticLog.empty.withWarnings false).accepts =
      fun diagnostic => decide (diagnostic.severity ≠ .warning) := rfl
  simp only [DiagnosticLog.sorted, DiagnosticLog.record, DiagnosticLog.extend, all, graver,
    List.filter_true]
  exact mergeSort_filter Diagnostic.isLE_order_trans Diagnostic.isLE_order_total _ _

/-- Ending behind an error reports a part of what going on does. -/
theorem entries_analyse_subperm (warnings continueAfterErrors : Bool) (programs : List Program) :
    (analyse ⟨warnings, continueAfterErrors⟩ programs).log.entries.Subperm
      (analyse ⟨warnings, true⟩ programs).log.entries := by
  rw [log_analyse, log_analyse]
  have part := ((isPrefix_findingsOf continueAfterErrors programs).sublist.map
    Finding.diagnostic).filter (DiagnosticLog.empty.withWarnings warnings).accepts
  exact ((List.mergeSort_perm _ _).subperm.trans part.subperm).trans
    (List.mergeSort_perm _ _).symm.subperm

/-- Options change what is reported and never the verdict.  Where files can be
read, every choice of options finds errors or every one finds none; leaving out
warnings takes the warnings from the report and changes nothing else; and
stopping after errors reports a part of what going on does, and the same if
there is no error. -/
theorem compile_of_options {files : List SourceFile} {programs : List Program}
    (read : readFiles files = .ok programs) :
    ∃ outcome : Options → Compilation,
      (∀ options, compile options files = .ok (outcome options)) ∧
      (∀ first second, (outcome first).hasErrors = (outcome second).hasErrors ∧
        (outcome first).readyForCode = (outcome second).readyForCode) ∧
      (∀ continueAfterErrors, (outcome ⟨false, continueAfterErrors⟩).log.entries =
        (outcome ⟨true, continueAfterErrors⟩).log.entries.filter
          fun diagnostic => decide (diagnostic.severity ≠ .warning)) ∧
      ∀ warnings,
        (outcome ⟨warnings, false⟩).log.entries.Subperm (outcome ⟨warnings, true⟩).log.entries ∧
        ((outcome ⟨warnings, true⟩).hasErrors = false →
          (outcome ⟨warnings, false⟩).log.entries = (outcome ⟨warnings, true⟩).log.entries) := by
  have verdict (first second : Options) :
      (analyse first programs).hasErrors = (analyse second programs).hasErrors := by
    rw [hasErrors_analyse, hasErrors_analyse]
  refine ⟨fun options => analyse options programs, fun options => ?_, fun first second => ?_,
    fun continueAfterErrors => entries_analyse_withoutWarnings continueAfterErrors programs,
    fun warnings => ⟨entries_analyse_subperm warnings false programs, fun clean => ?_⟩⟩
  · rw [compile, read]
    rfl
  · exact ⟨verdict first second, congrArg (!·) (verdict first second)⟩
  · rw [hasErrors_analyse] at clean
    rw [log_analyse, log_analyse, findingsOf_eq_of_clean clean]

/-- A file with a redeclaration, an undefined name and a conversion: each pass
finds something. -/
def faultyFile : List SourceFile :=
  [⟨"main.knight", "int a; int a; string b = c; string d = 1 + \"x\";"⟩]

/-- Options decide what is reported of the faulty file, and it is refused with
all of them. -/
theorem compile_faultyFile_of_options :
    ∃ programs, readFiles faultyFile = .ok programs ∧
      ∃ outcome : Options → Compilation,
        (∀ options, compile options faultyFile = .ok (outcome options)) ∧
        (∀ first second, (outcome first).hasErrors = (outcome second).hasErrors ∧
          (outcome first).readyForCode = (outcome second).readyForCode) ∧
        (∀ continueAfterErrors, (outcome ⟨false, continueAfterErrors⟩).log.entries =
          (outcome ⟨true, continueAfterErrors⟩).log.entries.filter
            fun diagnostic => decide (diagnostic.severity ≠ .warning)) ∧
        ∀ warnings,
          (outcome ⟨warnings, false⟩).log.entries.Subperm
            (outcome ⟨warnings, true⟩).log.entries ∧
          ((outcome ⟨warnings, true⟩).hasErrors = false →
            (outcome ⟨warnings, false⟩).log.entries =
              (outcome ⟨warnings, true⟩).log.entries) := by
  have readable : readWith (fun _ => true) faultyFile = true :=
    readWith_of_letters (.cons .literal .nil) (by decide +kernel)
  obtain ⟨programs, read, -⟩ := exists_of_readWith readable
  exact ⟨programs, read, compile_of_options read⟩

end KnightFront
