import KnightFront.Proofs.Diagnostics.Absence
import Mathlib.Data.String.Basic
import Mathlib.Order.Compare

namespace KnightFront

/-!
# The order of a report

A sorted log lists its diagnostics by place and then by how grave they are.
Logs that hold the same diagnostics in another order have errors alike, and
taking the same findings in another order keeps them so.
-/

namespace Diagnostic

/-- One diagnostic may stand in front of another: its file comes first, or in
the same file its line does, or in the same line its column does, or at the
same place it is at least as grave. -/
def Leads (first second : Diagnostic) : Prop :=
  first.position.file < second.position.file ∨
    first.position.file = second.position.file ∧
      (first.position.line < second.position.line ∨
        first.position.line = second.position.line ∧
          (first.position.column < second.position.column ∨
            first.position.column = second.position.column ∧
              first.severity.rank ≤ second.severity.rank))

theorem isLE_order_iff {first second : Diagnostic} :
    (first.order second).isLE = true ↔ first.Leads second := by
  simp only [order, Leads, Ordering.isLE_then_iff_or, compare_lt_iff_lt, compare_eq_iff_eq,
    Nat.isLE_compare]

/-- The order compares one after another what positions and severities hold. -/
instance : Std.TransCmp order :=
  inferInstanceAs <| Std.TransCmp <|
    compareLex (compareOn fun diagnostic : Diagnostic => diagnostic.position.file) <|
      compareLex (compareOn fun diagnostic : Diagnostic => diagnostic.position.line) <|
        compareLex (compareOn fun diagnostic : Diagnostic => diagnostic.position.column) <|
          compareOn fun diagnostic : Diagnostic => diagnostic.severity.rank

theorem isLE_order_trans (first second third : Diagnostic)
    (before : (first.order second).isLE = true) (behind : (second.order third).isLE = true) :
    (first.order third).isLE = true :=
  Std.TransCmp.isLE_trans before behind

theorem isLE_order_total (first second : Diagnostic) :
    ((first.order second).isLE || (second.order first).isLE) = true := by
  rw [(Std.OrientedCmp.eq_swap : second.order first = (first.order second).swap)]
  cases first.order second <;> rfl

end Diagnostic

namespace DiagnosticLog

/-- In a sorted log, no diagnostic stands behind one that it should lead. -/
theorem pairwise_leads_sorted (log : DiagnosticLog) :
    log.sorted.entries.Pairwise Diagnostic.Leads := by
  have ordered : log.sorted.entries.Pairwise fun first second =>
      (first.order second).isLE = true :=
    List.pairwise_mergeSort Diagnostic.isLE_order_trans Diagnostic.isLE_order_total log.entries
  exact ordered.imp Diagnostic.isLE_order_iff.mp

/-- Two logs hold the same diagnostics in any order, and take or drop warnings
alike. -/
structure Rearranged (first second : DiagnosticLog) : Prop where
  entries : first.entries.Perm second.entries
  warnings : first.warnings = second.warnings

namespace Rearranged

variable {first second : DiagnosticLog}

theorem refl (log : DiagnosticLog) : log.Rearranged log := ⟨.refl _, rfl⟩

theorem hasErrors_eq (rearranged : first.Rearranged second) :
    first.hasErrors = second.hasErrors :=
  rearranged.entries.any_eq

theorem stopsAfter_eq (rearranged : first.Rearranged second) (options : Options) :
    options.stopsAfter first = options.stopsAfter second := by
  rw [Options.stopsAfter, Options.stopsAfter, rearranged.hasErrors_eq]

theorem sorted (rearranged : first.Rearranged second) : first.sorted.Rearranged second.sorted :=
  ⟨((List.mergeSort_perm _ _).trans rearranged.entries).trans (List.mergeSort_perm _ _).symm,
    rearranged.warnings⟩

/-- Findings may be recorded in any order. -/
theorem record {findings findings' : List Finding} (rearranged : first.Rearranged second)
    (perm : findings.Perm findings') :
    (first.record findings).Rearranged (second.record findings') := by
  have taken : first.accepts = second.accepts := by
    funext diagnostic
    rw [accepts, accepts, rearranged.warnings]
  have reported := (perm.map Finding.diagnostic).filter second.accepts
  refine ⟨?_, rearranged.warnings⟩
  unfold DiagnosticLog.record extend
  rw [taken]
  exact rearranged.entries.append reported

end Rearranged

end DiagnosticLog

end KnightFront
