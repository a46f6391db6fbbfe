import KnightFront.Proofs.Diagnostics.Absence
import Mathlib.Algebra.GroupWithZero.Nat

namespace KnightFront

/-!
# How many errors a pass reports

Warnings do not count.  The errors of a pass are those of its steps taken
together, so a pass over a tree can be counted part by part.
-/

@[simp]
theorem Finding.isError_mk (position : Position) (problem : Problem) :
    isError ⟨position, problem⟩ = problem.isError := rfl

namespace Reported

variable {α β γ : Type}

/-- The number of findings of a kind that a pass makes. -/
def tally (kind : Finding → Bool) (pass : Reported α) : Nat := pass.findings.countP kind

section Tally

variable (kind : Finding → Bool)

@[simp]
theorem tally_pure (value : α) : (pure value : Reported α).tally kind = 0 := rfl

@[simp]
theorem tally_bind (first : Reported α) (next : α → Reported β) :
    (first >>= next).tally kind = first.tally kind + (next first.value).tally kind := by
  simp [tally]

@[simp]
theorem tally_map (change : α → β) (pass : Reported α) :
    (change <$> pass).tally kind = pass.tally kind := by
  simp [tally]

@[simp]
theorem tally_report (position : Position) (problem : Problem) :
    (report position problem).tally kind = if kind ⟨position, problem⟩ then 1 else 0 := by
  rw [tally, report, List.countP_singleton]

@[simp]
theorem tally_mapM (pass : α → Reported β) (list : List α) :
    (list.mapM pass).tally kind = (list.map fun member => (pass member).tally kind).sum := by
  induction list with
  | nil => rfl
  | cons first rest inductionHypothesis => simp [List.mapM_cons, inductionHypothesis]

@[simp]
theorem tally_forM (pass : α → Reported PUnit) (list : List α) :
    (forM list pass).tally kind = (list.map fun member => (pass member).tally kind).sum := by
  induction list with
  | nil => rfl
  | cons first rest inductionHypothesis => simp [List.forM_cons, inductionHypothesis]

/-- Two passes over a list, one after the other, find what they find for each
member. -/
theorem tally_mapM_add_mapM (first : α → Reported β) (second : β → Reported γ) (list : List α) :
    (list.mapM first).tally kind + ((list.mapM first).value.mapM second).tally kind =
      (list.map fun member =>
        (first member).tally kind + (second (first member).value).tally kind).sum := by
  rw [value_mapM, tally_mapM, tally_mapM, List.map_map]
  induction list with
  | nil => rfl
  | cons member rest inductionHypothesis =>
      simp only [List.map_cons, List.sum_cons, Function.comp_apply] at inductionHypothesis ⊢
      omega

theorem tally_reportIf (condition : Bool) (position : Position) (problem : Problem) :
    (reportIf condition position problem).tally kind =
      if condition && kind ⟨position, problem⟩ then 1 else 0 := by
  cases condition with
  | false => rfl
  | true => rw [Bool.true_and, reportIf, if_pos rfl, tally_report]

end Tally

/-- Where an error is reported first there is one, whatever comes next. -/
theorem errors_report_bind_ne_zero {position : Position} {problem : Problem}
    (grave : problem.isError = true) {next : Unit → Reported α} :
    (report position problem >>= next).tally Finding.isError ≠ 0 := by
  have reported : (report position problem).tally Finding.isError = 1 := by
    rw [tally_report, Finding.isError_mk, if_pos grave]
  rw [tally_bind, reported, Nat.add_comm]
  exact Nat.succ_ne_zero _

/-- A pass reports no error if and only if it makes no finding that is one. -/
theorem errors_eq_zero_iff (pass : Reported α) :
    pass.tally Finding.isError = 0 ↔ pass.Lacks Problem.isError := by
  rw [tally, List.countP_eq_zero]
  exact forall₂_congr fun finding _ => Bool.not_eq_true (Problem.isError finding.problem) ▸ Iff.rfl

end Reported

namespace Reported

variable {α β σ : Type} {kind : Finding → Bool} {step : σ → α → Reported (α × σ)}
  {check : α → Reported β}

/-- A pass over a list that hands a state from one member to the next. -/
def handOn (step : σ → α → Reported (α × σ)) (state : σ) : List α → Reported (List α × σ)
  | [] => return ([], state)
  | first :: rest => do
      let (first, state) ← step state first
      let (rest, state) ← handOn step state rest
      return (first :: rest, state)

/-- The findings of a kind in such a pass and in a second one over what it
leaves. -/
def handOnTally (kind : Finding → Bool) (step : σ → α → Reported (α × σ)) (check : α → Reported β)
    (state : σ) (list : List α) : Nat :=
  (handOn step state list).tally kind + ((handOn step state list).value.1.mapM check).tally kind

theorem state_handOn_cons {state : σ} {first : α} {rest : List α} :
    (handOn step state (first :: rest)).value.2 =
      (handOn step (step state first).value.2 rest).value.2 := rfl

theorem handOnTally_cons {state : σ} {first : α} {rest : List α} :
    handOnTally kind step check state (first :: rest) =
      (step state first).tally kind + (check (step state first).value.1).tally kind +
        handOnTally kind step check (step state first).value.2 rest := by
  simp only [handOnTally, handOn, tally_bind, value_bind, value_pure, tally_pure,
    List.mapM_cons]
  omega

/-- A member is passed in the state that those in front of it leave. -/
theorem handOnTally_append_cons {state : σ} {front back : List α} {member : α} :
    handOnTally kind step check state (front ++ member :: back) =
      let before := (handOn step state front).value.2
      let behind := (step before member).value.2
      handOnTally kind step check state front +
        ((step before member).tally kind + (check (step before member).value.1).tally kind) +
          handOnTally kind step check behind back := by
  induction front generalizing state with
  | nil =>
      rw [List.nil_append, handOnTally_cons]
      exact congrArg (· + _) (Nat.zero_add _).symm
  | cons first rest inductionHypothesis =>
      rw [List.cons_append, handOnTally_cons, inductionHypothesis, handOnTally_cons]
      dsimp only
      rw [state_handOn_cons]
      omega

/-- A pass that hands a state on, and a second one over what it leaves, find at
most what both can find for each member in any state. -/
theorem handOnTally_le {list : List α} {bound : α → Nat}
    (each : ∀ state, ∀ member ∈ list,
      (step state member).tally kind + (check (step state member).value.1).tally kind ≤
        bound member) (state : σ) :
    handOnTally kind step check state list ≤ (list.map bound).sum := by
  induction list generalizing state with
  | nil => exact Nat.le_refl _
  | cons first rest inductionHypothesis =>
      have here := each state first List.mem_cons_self
      have later := inductionHypothesis
        (fun state member later => each state member (List.mem_cons_of_mem _ later))
        (step state first).value.2
      rw [handOnTally_cons, List.map_cons, List.sum_cons]
      omega

/-- What every member without a finding of a kind preserves of the state holds
behind a list without such findings. -/
theorem state_handOn_of_invariant (invariant : σ → Prop) {list : List α} {state : σ}
    (holds : invariant state)
    (preserved : ∀ state, invariant state → ∀ member ∈ list,
      (step state member).tally kind + (check (step state member).value.1).tally kind = 0 →
        invariant (step state member).value.2)
    (clean : handOnTally kind step check state list = 0) :
    invariant (handOn step state list).value.2 := by
  induction list generalizing state with
  | nil => exact holds
  | cons first rest inductionHypothesis =>
      rw [handOnTally_cons] at clean
      have restClean : handOnTally kind step check (step state first).value.2 rest = 0 := by omega
      exact inductionHypothesis (preserved state holds first List.mem_cons_self (by omega))
        (fun state holds member later => preserved state holds member
          (List.mem_cons_of_mem _ later)) restClean

/-- A member that leaves the same state can stand for another one. -/
theorem state_handOn_append_cons_congr {state : σ} {front back : List α} {member member' : α}
    (same : (step (handOn step state front).value.2 member').value.2 =
      (step (handOn step state front).value.2 member).value.2) :
    (handOn step state (front ++ member' :: back)).value.2 =
      (handOn step state (front ++ member :: back)).value.2 := by
  induction front generalizing state with
  | nil => exact congrArg (fun state => (handOn step state back).value.2) same
  | cons first rest inductionHypothesis => exact inductionHypothesis same

end Reported

namespace DiagnosticLog

/-- A pass adds its errors to those of a log. -/
theorem errorCount_record {α : Type} (log : DiagnosticLog) (pass : Reported α) :
    (log.record pass.findings).errorCount = log.errorCount + pass.tally Finding.isError := by
  have taken : ∀ diagnostic : Diagnostic,
      (diagnostic.isError && log.accepts diagnostic) = diagnostic.isError := by
    intro diagnostic
    cases grave : diagnostic.severity <;> simp [accepts, Diagnostic.isError, grave]
  simp only [record, errorCount, extend, List.countP_append, List.countP_filter, taken,
    List.countP_map]
  rfl

@[simp]
theorem errorCount_sorted (log : DiagnosticLog) : log.sorted.errorCount = log.errorCount :=
  (List.mergeSort_perm log.entries _).countP_eq _

end DiagnosticLog

/-- The third pass over files that have been resolved against the model that
they make. -/
def checkAll (programs : List Program) : Reported (List Program) :=
  (resolveAll programs).value.mapM (Program.check (SymbolModel.ofPrograms programs).value)

/-- If later passes run after errors, the log counts the errors of all
passes. -/
theorem errorCount_analyse {options : Options} (goesOn : options.continueAfterErrors = true)
    (programs : List Program) :
    (analyse options programs).log.errorCount =
      (SymbolModel.ofPrograms programs).tally Finding.isError +
      (resolveAll programs).tally Finding.isError +
        (checkAll programs).tally Finding.isError := by
  have never (log : DiagnosticLog) : options.stopsAfter log = false := by
    simp [Options.stopsAfter, goesOn]
  have start : (DiagnosticLog.empty.withWarnings options.warnings).errorCount = 0 := rfl
  simp [analyse, never, DiagnosticLog.errorCount_record, start, resolveAll, checkAll]

end KnightFront
