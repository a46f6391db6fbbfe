import KnightFront.Analysis.Compilation

namespace KnightFront

/-!
# Passes that make no finding of a kind

Most of what analysis promises, it promises for programs in which it finds no
error.  Whether a pass lacks findings of a kind is decided by its steps: each
of them must lack such findings, with the values that the earlier steps have
computed.  The rules below take a pass apart in this way.

At the end stands what a clean log says of the three passes behind it.
-/

namespace Problem

/-- Whether a problem is an error. -/
def isError (problem : Problem) : Bool := decide (problem.severity = .error)

/-- Whether a problem is that a class does not keep an interface. -/
def isConformance : Problem → Bool
  | missingMethod .. => true
  | mismatchedMethod .. => true
  | _ => false

/-- Whether a problem is an error other than about conformance. -/
def isTypingError (problem : Problem) : Bool := problem.isError && !problem.isConformance

/-- A typing error is an error. -/
theorem isTypingError_of_isError {problem : Problem} (clean : problem.isError = false) :
    problem.isTypingError = false := by
  simp [isTypingError, clean]

end Problem

namespace Reported

variable {α β : Type} {kind : Problem → Bool}

/-- A pass makes no finding of a kind. -/
def Lacks (kind : Problem → Bool) (pass : Reported α) : Prop :=
  ∀ finding ∈ pass.findings, kind finding.problem = false

instance (kind : Problem → Bool) (pass : Reported α) : Decidable (pass.Lacks kind) :=
  inferInstanceAs (Decidable (∀ finding ∈ pass.findings, kind finding.problem = false))

/-- Lacking a kind of finding, a pass lacks every narrower kind. -/
theorem Lacks.mono {narrow : Problem → Bool} {pass : Reported α} (lacks : pass.Lacks kind)
    (narrower : ∀ problem, kind problem = false → narrow problem = false) : pass.Lacks narrow :=
  fun finding member => narrower _ (lacks finding member)

@[simp]
theorem lacks_pure (value : α) : (pure value : Reported α).Lacks kind := by
  simp [Lacks]

@[simp]
theorem lacks_bind (first : Reported α) (next : α → Reported β) :
    (first >>= next).Lacks kind ↔ first.Lacks kind ∧ (next first.value).Lacks kind := by
  simp [Lacks, or_imp, forall_and]

@[simp]
theorem value_map (change : α → β) (pass : Reported α) :
    (change <$> pass).value = change pass.value := rfl

@[simp]
theorem findings_map (change : α → β) (pass : Reported α) :
    (change <$> pass).findings = pass.findings := by
  rw [← bind_pure_comp, findings_bind]
  exact List.append_nil _

@[simp]
theorem lacks_map (change : α → β) (pass : Reported α) :
    (change <$> pass).Lacks kind ↔ pass.Lacks kind := by
  rw [← bind_pure_comp, lacks_bind]
  exact and_iff_left (lacks_pure _)

@[simp]
theorem lacks_mk (value : α) (findings : List Finding) :
    (mk value findings).Lacks kind ↔ ∀ finding ∈ findings, kind finding.problem = false :=
  Iff.rfl

@[simp]
theorem lacks_report (position : Position) (problem : Problem) :
    (report position problem).Lacks kind ↔ kind problem = false := by
  simp [Lacks, report]

@[simp]
theorem lacks_reportIf (condition : Bool) (position : Position) (problem : Problem) :
    (reportIf condition position problem).Lacks kind ↔
      (condition = true → kind problem = false) := by
  cases condition <;> simp [reportIf]

/-- A pass over a list has the values of its members. -/
@[simp]
theorem value_mapM (pass : α → Reported β) (list : List α) :
    (list.mapM pass).value = list.map fun member => (pass member).value := by
  induction list with
  | nil => rfl
  | cons first rest inductionHypothesis => simp [List.mapM_cons, inductionHypothesis]

/-- A pass over a list makes the findings of its members. -/
theorem findings_mapM (pass : α → Reported β) (list : List α) :
    (list.mapM pass).findings = list.flatMap fun member => (pass member).findings := by
  induction list with
  | nil => rfl
  | cons first rest inductionHypothesis => simp [List.mapM_cons, inductionHypothesis]

@[simp]
theorem lacks_mapM (pass : α → Reported β) (list : List α) :
    (list.mapM pass).Lacks kind ↔ ∀ member ∈ list, (pass member).Lacks kind := by
  induction list with
  | nil => simp
  | cons first rest inductionHypothesis => simp [List.mapM_cons, inductionHypothesis]

/-- A pass over an optional value has the value of its member, if any. -/
@[simp]
theorem value_option_mapM (pass : α → Reported β) (option : Option α) :
    (option.mapM pass).value = option.map fun member => (pass member).value := by
  cases option <;> rfl

@[simp]
theorem lacks_option_mapM (pass : α → Reported β) (option : Option α) :
    (option.mapM pass).Lacks kind ↔ ∀ member ∈ option, (pass member).Lacks kind := by
  cases option with
  | none => simp
  | some member => simp

@[simp]
theorem lacks_forM (pass : α → Reported PUnit) (list : List α) :
    (forM list pass).Lacks kind ↔ ∀ member ∈ list, (pass member).Lacks kind := by
  induction list with
  | nil => simp
  | cons first rest inductionHypothesis => simp [List.forM_cons, inductionHypothesis]

/-- A fold whose steps make no finding of a kind makes none. -/
theorem lacks_foldlM {step : β → α → Reported β}
    (steps : ∀ state member, (step state member).Lacks kind) (list : List α) (start : β) :
    (list.foldlM step start).Lacks kind := by
  induction list generalizing start with
  | nil => exact lacks_pure start
  | cons first rest inductionHypothesis =>
      rw [List.foldlM_cons, lacks_bind]
      exact ⟨steps start first, inductionHypothesis _⟩

/-- What every step of a fold preserves holds of its value. -/
theorem value_foldlM_of_invariant (invariant : β → Prop) {pass : β → α → Reported β}
    {list : List α} {start : β} (holds : invariant start)
    (preserved : ∀ state, invariant state → ∀ member ∈ list, invariant (pass state member).value) :
    invariant (list.foldlM pass start).value := by
  induction list generalizing start with
  | nil => exact holds
  | cons first rest inductionHypothesis =>
      rw [List.foldlM_cons, value_bind]
      apply inductionHypothesis (preserved start holds first List.mem_cons_self)
      exact fun state holds member later =>
        preserved state holds member (List.mem_cons_of_mem _ later)

end Reported

namespace DiagnosticLog

@[simp]
theorem hasErrors_empty (taken : Bool) : (empty.withWarnings taken).hasErrors = false := rfl

/-- A log takes every error, whether or not it takes warnings. -/
theorem hasErrors_extend (log : DiagnosticLog) (diagnostics : List Diagnostic) :
    (log.extend diagnostics).hasErrors = (log.hasErrors || diagnostics.any Diagnostic.isError) := by
  have taken : ∀ diagnostic : Diagnostic,
      (log.accepts diagnostic && diagnostic.isError) = diagnostic.isError := by
    intro diagnostic
    cases grave : diagnostic.severity <;> simp [accepts, Diagnostic.isError, grave]
  simp [hasErrors, extend, List.any_filter, taken]

/-- Sorting a log neither adds nor drops an error. -/
@[simp]
theorem hasErrors_sorted (log : DiagnosticLog) : log.sorted.hasErrors = log.hasErrors :=
  (List.mergeSort_perm log.entries _).any_eq

/-- After a pass, a log is free of errors exactly when it was before and the
pass has found none. -/
theorem hasErrors_record_eq_false_iff {α : Type} (log : DiagnosticLog) (pass : Reported α) :
    (log.record pass.findings).hasErrors = false ↔
      log.hasErrors = false ∧ pass.Lacks Problem.isError := by
  rw [record, hasErrors_extend, Bool.or_eq_false_iff, List.any_map, List.any_eq_false]
  refine and_congr_right fun _ => forall₂_congr fun finding _ => ?_
  exact Bool.not_eq_true (Problem.isError finding.problem) ▸ Iff.rfl

end DiagnosticLog

/-- The second pass over files, with the model that they make. -/
def resolveAll (programs : List Program) : Reported (List Program) :=
  programs.mapM (Program.resolve (SymbolModel.ofPrograms programs).value)

section Analyse

variable {options : Options} {programs : List Program}

/-- Trees that can be handed on have gone through all three passes, and none
of the passes has found an error. -/
theorem passes_of_readyForCode (ready : (analyse options programs).readyForCode = true) :
    let declared := SymbolModel.ofPrograms programs
    let checked := (resolveAll programs).value.mapM (Program.check declared.value)
    declared.Lacks Problem.isError ∧ (resolveAll programs).Lacks Problem.isError ∧
      checked.Lacks Problem.isError ∧ (analyse options programs).programs = checked.value := by
  intro declared checked
  have clean : (analyse options programs).log.hasErrors = false := by
    simpa [Compilation.readyForCode, Compilation.hasErrors] using ready
  -- A pass that ends analysis early leaves an error in the log.
  have goesOn : ∀ log : DiagnosticLog, log.sorted.hasErrors = false →
      options.stopsAfter log = false := by
    intro log free
    rw [DiagnosticLog.hasErrors_sorted] at free
    simp [Options.stopsAfter, free]
  unfold analyse at clean ⊢
  simp only at clean ⊢
  split at clean
  next stops => rw [goesOn _ clean] at stops; cases stops
  next declares =>
    split at clean
    next stops => rw [goesOn _ clean] at stops; cases stops
    next resolves =>
      rw [if_neg declares, if_neg resolves]
      rw [DiagnosticLog.hasErrors_sorted, DiagnosticLog.hasErrors_record_eq_false_iff,
        DiagnosticLog.hasErrors_record_eq_false_iff,
        DiagnosticLog.hasErrors_record_eq_false_iff] at clean
      exact ⟨clean.1.1.2, clean.1.2, clean.2, rfl⟩

end Analyse

end KnightFront
