import KnightFront.Proofs.Diagnostics.Counts
import KnightFront.Proofs.Diagnostics.Wording

namespace KnightFront

/-!
# How often a diagnostic is reported

That a diagnostic is not reported twice is a matter of counting.  Every place in
the tree of a file makes room for one report there, and each step of a pass must
find its reports among the room of the places that it visits.

Where a call begins, its mismatch may be reported besides another problem, which
another message tells; so the room of a place goes to the one or to the other,
depending on the message that is counted.  Cycles are found at the end and counted
by themselves.  So are the conversions of numbers, which take no room: a place is
that of every concatenation that begins there, and each of them converts by itself.
-/

namespace Diagnostic

variable (diagnostic : Diagnostic)

/-- Whether a message is that arguments do not match. -/
def isMismatchedCall : Bool := diagnostic.message.toList.take 2 == ['N', 'o']

/-- Whether a message is about a cycle. -/
def isCycle : Bool := diagnostic.message.toList.take 2 == ['C', 'y']

/-- Whether a message is about the conversion of a number. -/
def isConversion : Bool := decide (diagnostic.message = Problem.implicitConversion.message)

/-- Whether a finding is told by the diagnostic. -/
def tells (finding : Finding) : Bool := decide (finding.diagnostic = diagnostic)

/-- The room for a diagnostic at a place. -/
def room (place : Position) : Nat :=
  if place = diagnostic.position ∧ diagnostic.isCycle = false ∧ diagnostic.isConversion = false then 1
  else 0

/-- The room at a place for the mismatch of a call. -/
def callRoom (place : Position) : Nat :=
  if diagnostic.isMismatchedCall then diagnostic.room place else 0

/-- The room at a place for anything else. -/
def plainRoom (place : Position) : Nat :=
  if diagnostic.isMismatchedCall then 0 else diagnostic.room place

theorem plainRoom_add_callRoom (place : Position) :
    diagnostic.plainRoom place + diagnostic.callRoom place = diagnostic.room place := by
  unfold plainRoom callRoom
  split
  · exact Nat.zero_add _
  · rfl

/-- The room at several places. -/
def rooms (places : List Position) : Nat := (places.map diagnostic.room).sum

@[simp]
theorem rooms_nil : diagnostic.rooms [] = 0 := rfl

@[simp]
theorem rooms_cons (place : Position) (places : List Position) :
    diagnostic.rooms (place :: places) = diagnostic.room place + diagnostic.rooms places := by
  simp [rooms]

@[simp]
theorem rooms_append (first second : List Position) :
    diagnostic.rooms (first ++ second) = diagnostic.rooms first + diagnostic.rooms second := by
  simp [rooms]

theorem rooms_flatMap {α : Type} (places : α → List Position) (list : List α) :
    diagnostic.rooms (list.flatMap places) =
      (list.map fun member => diagnostic.rooms (places member)).sum := by
  induction list with
  | nil => rfl
  | cons first rest inductionHypothesis => simp [inductionHypothesis]

theorem rooms_map {α : Type} (place : α → Position) (list : List α) :
    diagnostic.rooms (list.map place) =
      (list.map fun member => diagnostic.room (place member)).sum := by
  rw [rooms, List.map_map]
  rfl

/-- There is room only at the place of the diagnostic, and none for cycles and
conversions. -/
theorem rooms_le (places : List Position) :
    diagnostic.rooms places ≤
      if diagnostic.isCycle || diagnostic.isConversion then 0
      else places.count diagnostic.position := by
  induction places with
  | nil => simp
  | cons first rest inductionHypothesis =>
      rw [rooms_cons, List.count_cons, room]
      cases cyclic : diagnostic.isCycle <;> cases converts : diagnostic.isConversion <;>
        simp [cyclic, converts] at inductionHypothesis ⊢ <;> omega

end Diagnostic

/-- A problem that is neither the mismatch of a call nor a cycle nor a conversion. -/
def Problem.isPlain (problem : Problem) : Bool :=
  !problem.isMismatchedCall && !problem.isCycle && !problem.isConversion

namespace Finding

variable {finding : Finding} {diagnostic : Diagnostic}

theorem isMismatchedCall_of_diagnostic (same : finding.diagnostic = diagnostic) :
    diagnostic.isMismatchedCall = finding.problem.isMismatchedCall := by
  rw [← same, finding.problem.isMismatchedCall_eq]
  rfl

theorem isCycle_of_diagnostic (same : finding.diagnostic = diagnostic) :
    diagnostic.isCycle = finding.problem.isCycle := by
  rw [← same, finding.problem.isCycle_eq]
  rfl

theorem isConversion_of_diagnostic (same : finding.diagnostic = diagnostic) :
    diagnostic.isConversion = finding.problem.isConversion := by
  rw [← same, finding.problem.isConversion_eq]
  rfl

end Finding

namespace Reported

variable {α β γ : Type} (diagnostic : Diagnostic)

/-- A fold takes and spares at most what each of its steps does in any state. -/
theorem times_foldlM_add_le {step : β → α → Reported β} {list : List α} {spare bound : α → Nat}
    (each : ∀ state, ∀ member ∈ list,
      (step state member).tally diagnostic.tells + spare member ≤ bound member) (start : β) :
    (list.foldlM step start).tally diagnostic.tells + (list.map spare).sum ≤
      (list.map bound).sum := by
  induction list generalizing start with
  | nil => simp
  | cons first rest inductionHypothesis =>
      have here := each start first List.mem_cons_self
      have later := inductionHypothesis
        (fun state member later => each state member (List.mem_cons_of_mem _ later))
        (step start first).value
      rw [List.foldlM_cons, tally_bind]
      simp only [List.map_cons, List.sum_cons]
      omega

theorem times_foldlM_le {step : β → α → Reported β} {list : List α} {bound : α → Nat}
    (each : ∀ state, ∀ member ∈ list, (step state member).tally diagnostic.tells ≤ bound member)
    (start : β) :
    (list.foldlM step start).tally diagnostic.tells ≤ (list.map bound).sum :=
  have spared (state : β) (member : α) (inside : member ∈ list) :
      (step state member).tally diagnostic.tells + 0 ≤ bound member := each state member inside
  Nat.le_trans (Nat.le_add_right _ _) (times_foldlM_add_le diagnostic spared start)

variable {diagnostic} {position : Position} {problem : Problem}

theorem times_report (position : Position) (problem : Problem) :
    (report position problem).tally diagnostic.tells =
      if (Finding.mk position problem).diagnostic = diagnostic then 1 else 0 := by
  rw [tally_report, Diagnostic.tells]
  simp only [decide_eq_true_eq]

/-- What is found at a place takes the room there. -/
theorem times_report_le_plainRoom (plain : problem.isPlain = true) :
    (report position problem).tally diagnostic.tells ≤ diagnostic.plainRoom position := by
  rw [times_report]
  split
  · next same =>
      rw [Problem.isPlain, Bool.and_eq_true, Bool.and_eq_true, Bool.not_eq_true',
        Bool.not_eq_true', Bool.not_eq_true'] at plain
      have call := (Finding.isMismatchedCall_of_diagnostic same).trans plain.1.1
      have cycle := (Finding.isCycle_of_diagnostic same).trans plain.1.2
      have conversion := (Finding.isConversion_of_diagnostic same).trans plain.2
      have here : position = diagnostic.position := congrArg Diagnostic.position same
      simp [Diagnostic.plainRoom, Diagnostic.room, call, cycle, conversion, here]
  · exact Nat.zero_le _

theorem times_reportIf_le_plainRoom (plain : problem.isPlain = true) (condition : Bool) :
    (reportIf condition position problem).tally diagnostic.tells ≤
      if condition then diagnostic.plainRoom position else 0 := by
  cases condition
  · exact Nat.le_refl _
  · exact times_report_le_plainRoom plain

/-- The mismatch of a call takes the room for it. -/
theorem times_report_le_callRoom (call : problem.isMismatchedCall = true) :
    (report position problem).tally diagnostic.tells ≤ diagnostic.callRoom position := by
  rw [times_report]
  split
  · next same =>
      have isCall := (Finding.isMismatchedCall_of_diagnostic same).trans call
      have here : position = diagnostic.position := congrArg Diagnostic.position same
      have cycle : diagnostic.isCycle = false := by
        rw [Finding.isCycle_of_diagnostic same]
        cases problem <;> first | rfl | cases call
      have conversion : diagnostic.isConversion = false := by
        rw [Finding.isConversion_of_diagnostic same]
        cases problem <;> first | rfl | cases call
      simp [Diagnostic.callRoom, Diagnostic.room, isCall, cycle, conversion, here]
  · exact Nat.zero_le _

/-- What is told by another message is not counted. -/
theorem times_reportIf_of_ne (other : diagnostic.message ≠ problem.message) (condition : Bool) :
    (reportIf condition position problem).tally diagnostic.tells = 0 := by
  cases condition
  · rfl
  · exact (times_report position problem).trans
      (if_neg fun same => other (congrArg Diagnostic.message same).symm)

end Reported

/-- If findings tell the key of the member that they are about, and no key recurs,
then findings that are all alike are about one member. -/
theorem countP_flatMap_le_of_key {α κ : Type} {kind : Finding → Bool} {find : α → List Finding}
    {key : α → κ} {list : List α} {bound : Nat} (distinct : (list.map key).Nodup)
    (each : ∀ member ∈ list, (find member).countP kind ≤ bound)
    (told : ∀ first ∈ list, ∀ second ∈ list, 0 < (find first).countP kind →
      0 < (find second).countP kind → key first = key second) :
    (list.flatMap find).countP kind ≤ bound := by
  induction list with
  | nil => exact Nat.zero_le _
  | cons first rest inductionHypothesis =>
      rw [List.map_cons, List.nodup_cons] at distinct
      rw [List.flatMap_cons, List.countP_append]
      by_cases silent : (find first).countP kind = 0
      · rw [silent, Nat.zero_add]
        exact inductionHypothesis distinct.2
          (fun member later => each member (List.mem_cons_of_mem _ later))
          fun member later other last => told member (List.mem_cons_of_mem _ later) other
            (List.mem_cons_of_mem _ last)
      · have others : (rest.flatMap find).countP kind = 0 := by
          rw [List.countP_eq_zero]
          intro finding found isKind
          rcases List.mem_flatMap.mp found with ⟨member, later, about⟩
          have same := told first List.mem_cons_self member (List.mem_cons_of_mem _ later)
            (Nat.pos_of_ne_zero silent) (List.countP_pos_iff.mpr ⟨finding, about, isKind⟩)
          exact distinct.1 (same ▸ List.mem_map_of_mem later)
        rw [others, Nat.add_zero]
        exact each first List.mem_cons_self

end KnightFront
