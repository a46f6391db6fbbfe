import KnightFront.Proofs.Diagnostics.Absence
import KnightFront.Proofs.Relabelling.Trees
import Mathlib.Data.List.Forall2

namespace KnightFront

/-!
# Findings in relabelled programs

A finding in a relabelled program speaks of relabelled names and types, at the
place where the old one has been moved.  How grave it is does not change.  As
messages speak of a method by a display name, which is no name of the program, a
relabelling treats that as hidden.

A judgement compares two passes: their values are related, and the second makes
the relabelled findings of the first.
-/

/-- A problem with its names and types relabelled. -/
def Problem.relabel (change : Relabelling) : Problem → Problem
  | duplicateFunction name => .duplicateFunction (change.name name)
  | duplicateVariable name => .duplicateVariable (change.name name)
  | duplicateEnumMember member enumeration =>
      .duplicateEnumMember (change.name member) (change.name enumeration)
  | duplicateInterface name => .duplicateInterface (change.name name)
  | duplicateInterfaceMethod method interface =>
      .duplicateInterfaceMethod (change.name method) (change.name interface)
  | duplicateClass name => .duplicateClass (change.name name)
  | duplicateField field owner => .duplicateField (change.name field) (change.name owner)
  | duplicateMethod method owner => .duplicateMethod (change.name method) (change.name owner)
  | duplicateParameter name function =>
      .duplicateParameter (change.name name) (change.hidden function)
  | duplicateLocal name function => .duplicateLocal (change.name name) (change.hidden function)
  | cyclicInheritance name => .cyclicInheritance (change.name name)
  | cyclicExtension name => .cyclicExtension (change.name name)
  | undefinedClass name => .undefinedClass (change.name name)
  | undefinedInterface name => .undefinedInterface (change.name name)
  | unknownType name => .unknownType (change.name name)
  | undefinedVariable name => .undefinedVariable (change.name name)
  | undefinedFunction name => .undefinedFunction (change.name name)
  | undefinedMethod method kind owner =>
      .undefinedMethod (change.name method) kind (change.name owner)
  | undefinedField field kind owner => .undefinedField (change.name field) kind (change.name owner)
  | methodOfValue method ty => .methodOfValue (change.name method) (ty.relabel change)
  | fieldOfValue field ty => .fieldOfValue (change.name field) (ty.relabel change)
  | interfaceInstance name => .interfaceInstance (change.name name)
  | unknownInstance name => .unknownInstance (change.name name)
  | missingMethod className method interface =>
      .missingMethod (change.name className) (change.name method) (change.name interface)
  | mismatchedMethod className method interface =>
      .mismatchedMethod (change.name className) (change.name method) (change.name interface)
  | voidVariable name => .voidVariable (change.name name)
  | unassignable name expected actual =>
      .unassignable (change.name name) (expected.relabel change) (actual.relabel change)
  | notAssignable name => .notAssignable (change.name name)
  | notIndexable ty => .notIndexable (ty.relabel change)
  | missingReturn function expected =>
      .missingReturn (change.name function) (expected.relabel change)
  | missingReturnValue function expected =>
      .missingReturnValue (change.name function) (expected.relabel change)
  | returnFromVoid function => .returnFromVoid (change.name function)
  | mismatchedReturn function expected actual =>
      .mismatchedReturn (change.name function) (expected.relabel change) (actual.relabel change)
  | conditionNotBool actual => .conditionNotBool (actual.relabel change)
  | indexNotInt actual => .indexNotInt (actual.relabel change)
  | lengthNotInt actual => .lengthNotInt (actual.relabel change)
  | mixedArray => .mixedArray
  | operandMismatch op left right =>
      .operandMismatch op (left.relabel change) (right.relabel change)
  | argumentMismatch callee actual expected =>
      .argumentMismatch (change.name callee) (actual.map (Ty.relabel change))
        (expected.map (Ty.relabel change))
  | implicitConversion => .implicitConversion

/-- A finding with its problem relabelled and its place moved. -/
def Finding.relabel (change : Relabelling) (finding : Finding) : Finding :=
  ⟨change.start finding.position, finding.problem.relabel change⟩

section

variable {change : Relabelling}

/-- A problem in which no name is changed is the same. -/
theorem Problem.relabel_of_name (unchanged : change.name = id) (shown : change.hidden = id)
    (problem : Problem) : problem.relabel change = problem := by
  have tys : Ty.relabel change = id := funext (Ty.relabel_of_name unchanged)
  cases problem <;> simp [relabel, unchanged, shown, tys]

@[simp]
theorem Problem.severity_relabel (problem : Problem) :
    (problem.relabel change).severity = problem.severity := by
  cases problem <;> rfl

@[simp]
theorem Finding.isError_relabel (finding : Finding) :
    (finding.relabel change).isError = finding.isError := by
  have severity : (finding.relabel change).diagnostic.severity = finding.diagnostic.severity :=
    finding.problem.severity_relabel
  exact decide_eq_decide.mpr (by rw [severity])

theorem Finding.any_isError_map_relabel (findings : List Finding) :
    (findings.map (relabel change)).any isError = findings.any isError := by
  rw [List.any_map]
  exact congrArg findings.any (funext isError_relabel)

end

/-- A way to compare what two passes find that can be put together from what
their parts find. -/
class Tally (tally : List Finding → List Finding → Prop) : Prop where
  nil : tally [] []
  append {first second firstOther secondOther : List Finding} :
    tally first firstOther → tally second secondOther →
      tally (first ++ second) (firstOther ++ secondOther)

/-- The second findings are the first ones relabelled. -/
def Relabelled (change : Relabelling) (findings others : List Finding) : Prop :=
  others = findings.map (Finding.relabel change)

/-- The findings are the same when the first are relabelled and hidden names are
hidden in both. -/
def RelabelledBehind (change : Relabelling) (findings others : List Finding) : Prop :=
  others.map (Finding.relabel change.mask) = findings.map (Finding.relabel change)

/-- Either both or none of the findings hold an error. -/
def SameVerdict (findings others : List Finding) : Prop :=
  others.any Finding.isError = findings.any Finding.isError

section

variable {change : Relabelling} {findings others : List Finding}

instance : Tally (Relabelled change) where
  nil := rfl
  append first second := by
    rw [Relabelled] at first second ⊢
    rw [first, second, List.map_append]

instance : Tally (RelabelledBehind change) where
  nil := rfl
  append first second := by
    rw [RelabelledBehind] at first second ⊢
    rw [List.map_append, first, second, List.map_append]

instance : Tally SameVerdict where
  nil := rfl
  append first second := by
    rw [SameVerdict] at first second ⊢
    rw [List.any_append, first, second, List.any_append]

theorem Relabelled.sameVerdict (same : Relabelled change findings others) :
    SameVerdict findings others := by
  rw [SameVerdict, same, Finding.any_isError_map_relabel]

theorem RelabelledBehind.sameVerdict (same : RelabelledBehind change findings others) :
    SameVerdict findings others := by
  rw [SameVerdict, ← Finding.any_isError_map_relabel others, same, Finding.any_isError_map_relabel]

/-- Where nothing is hidden, findings that are the same are the relabelled
ones. -/
theorem RelabelledBehind.relabelled (same : RelabelledBehind change findings others)
    (shown : change.hidden = id) : Relabelled change findings others := by
  have unmasked : Finding.relabel change.mask = id :=
    funext fun finding => by
      rw [Finding.relabel, Problem.relabel_of_name (rfl : change.mask.name = id) shown]
      rfl
  rw [RelabelledBehind, unmasked, List.map_id] at same
  exact same

end

namespace Reported

variable {α β γ δ : Type} {tally : List Finding → List Finding → Prop}

/-- The values of two passes are related, and so are their findings. -/
structure Alike (tally : List Finding → List Finding → Prop) (related : α → β → Prop)
    (first : Reported α) (second : Reported β) : Prop where
  value : related first.value second.value
  findings : tally first.findings second.findings

/-- The values of two passes are related, and the second makes the relabelled
findings of the first. -/
abbrev Follows (change : Relabelling) (related : α → β → Prop) (first : Reported α)
    (second : Reported β) : Prop :=
  Alike (Relabelled change) related first second

variable {related : α → β → Prop} {result : γ → δ → Prop}

theorem Alike.mono {weaker : List Finding → List Finding → Prop} {first : Reported α}
    {second : Reported β} (alike : Alike tally related first second)
    (implies : ∀ findings others, tally findings others → weaker findings others) :
    Alike weaker related first second :=
  ⟨alike.value, implies _ _ alike.findings⟩

section Tally

variable [Tally tally]

theorem Alike.bind {first : Reported α} {second : Reported β} {next : α → Reported γ}
    {nextOther : β → Reported δ} (before : Alike tally related first second)
    (rest : ∀ value other, related value other →
      Alike tally result (next value) (nextOther other)) :
    Alike tally result (first >>= next) (second >>= nextOther) := by
  have behind := rest _ _ before.value
  exact ⟨behind.value, Tally.append before.findings behind.findings⟩

theorem alike_pure {value : α} {other : β} (holds : related value other) :
    Alike tally related (pure value) (pure other) :=
  ⟨holds, Tally.nil⟩

/-- Parts that do not look at what has been found before them. -/
theorem Alike.andThen {first : Reported α} {second : Reported β} {next : Reported γ}
    {nextOther : Reported δ} (before : Alike tally related first second)
    (rest : Alike tally result next nextOther) :
    Alike tally result (first >>= fun _ => next) (second >>= fun _ => nextOther) :=
  before.bind fun _ _ _ => rest

/-- Values that are returned whatever has been found before them. -/
theorem Alike.returns {first : Reported α} {second : Reported β} {value : γ} {other : δ}
    (before : Alike tally related first second) (holds : result value other) :
    Alike tally result (first >>= fun _ => pure value) (second >>= fun _ => pure other) :=
  before.andThen (alike_pure holds)

theorem alike_mapM {first : List α} {second : List β} {pass : α → Reported γ}
    {passOther : β → Reported δ} (lists : List.Forall₂ related first second)
    (each : ∀ value other, related value other →
      Alike tally result (pass value) (passOther other)) :
    Alike tally (List.Forall₂ result) (first.mapM pass) (second.mapM passOther) := by
  induction lists with
  | nil => exact alike_pure .nil
  | cons head _ inductionHypothesis =>
      rw [List.mapM_cons, List.mapM_cons]
      refine (each _ _ head).bind fun value other holds => ?_
      exact inductionHypothesis.bind fun values others rest => alike_pure (.cons holds rest)

/-- A pass over a list whose values are functions of relabelled ones. -/
theorem alike_mapM_map {image : γ → δ} {pass : α → Reported γ} {passOther : β → Reported δ}
    (relabel : α → β) (list : List α)
    (each : ∀ value ∈ list, Alike tally (fun found other => other = image found) (pass value)
      (passOther (relabel value))) :
    Alike tally (fun found other => other = found.map image) (list.mapM pass)
      ((list.map relabel).mapM passOther) := by
  induction list with
  | nil => exact alike_pure rfl
  | cons first rest inductionHypothesis =>
      rw [List.map_cons, List.mapM_cons, List.mapM_cons]
      rw [List.forall_mem_cons] at each
      refine each.1.bind ?_
      rintro value _ rfl
      refine (inductionHypothesis each.2).bind ?_
      rintro values _ rfl
      exact alike_pure rfl

/-- Passes that fold one list go on with related states. -/
theorem alike_foldlM {σ τ : Type} {states : σ → τ → Prop} {pass : σ → α → Reported σ}
    {passOther : τ → α → Reported τ} {parts : List α}
    (each : ∀ state other, states state other → ∀ part ∈ parts,
      Alike tally states (pass state part) (passOther other part)) {state : σ} {other : τ}
    (start : states state other) :
    Alike tally states (parts.foldlM pass state) (parts.foldlM passOther other) := by
  induction parts generalizing state other with
  | nil => exact alike_pure start
  | cons first rest inductionHypothesis =>
      rw [List.foldlM_cons, List.foldlM_cons]
      refine (each _ _ start first List.mem_cons_self).bind fun _ _ after => ?_
      exact inductionHypothesis
        (fun _ _ related part later => each _ _ related part (List.mem_cons_of_mem _ later)) after

theorem alike_forM_map {pass : α → Reported PUnit} {passOther : β → Reported PUnit}
    {relabel : α → β}
    (each : ∀ value, Alike tally (fun _ _ => True) (pass value) (passOther (relabel value)))
    (list : List α) :
    Alike tally (fun _ _ => True) (list.forM pass) ((list.map relabel).forM passOther) := by
  induction list with
  | nil => exact alike_pure trivial
  | cons first _ inductionHypothesis => exact (each first).andThen inductionHypothesis

end Tally

section Relabelled

variable {change : Relabelling} {position otherPosition : Position}
  {problem otherProblem : Problem}

theorem follows_report (moved : otherPosition = change.start position)
    (same : otherProblem = problem.relabel change) :
    Follows change (fun _ _ => True) (report position problem)
      (report otherPosition otherProblem) :=
  ⟨trivial, by simp [Relabelled, report, Finding.relabel, moved, same]⟩

theorem follows_reportIf {condition other : Bool} (same : other = condition)
    (moved : otherPosition = change.start position)
    (problems : otherProblem = problem.relabel change) :
    Follows change (fun _ _ => True) (reportIf condition position problem)
      (reportIf other otherPosition otherProblem) := by
  subst same
  cases other with
  | false => exact alike_pure trivial
  | true => exact follows_report moved problems

end Relabelled

end Reported

end KnightFront
