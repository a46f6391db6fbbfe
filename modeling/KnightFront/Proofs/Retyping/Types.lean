import KnightFront.Proofs.Edits.Fading

namespace KnightFront

/-!
# Types behind an unknown declaration

Where a variable is declared with an unknown type, an expression has the type
that it would have, or the error type, or the unknown type itself, which is
compared by name like any other.  The functions that find a type from the types
of parts take this on.  What they report then is that the unknown type does not
fit; a kind of findings in which this does not count sees nothing new.
-/

/-- A declared type that is left alone, or a class or interface type that is
exchanged for an unknown one. -/
inductive Ty.Retyped (unknown : String) : Ty → Ty → Prop where
  | same (ty : Ty) : Retyped unknown ty ty
  | changed (name : String) : Retyped unknown (.named name) (.named unknown)

/-- What can become of the type of an expression when declared types are
exchanged for an unknown one. -/
inductive Ty.Strays (unknown : String) : Ty → Ty → Prop where
  | fades {ty ty' : Ty} (fades : ty.Fades ty') : Strays unknown ty ty'
  | changed (name : String) : Strays unknown (.named name) (.named unknown)

/-- Whether a type is reported not to fit the type that stands against it. -/
def Problem.isMismatchOf (ty : Ty) : Problem → Bool
  | unassignable _ expected actual => decide (expected = ty ∨ actual = ty)
  | mismatchedReturn _ _ actual => decide (actual = ty)
  | operandMismatch _ left right => decide (left = ty ∨ right = ty)
  | argumentMismatch _ actual _ => decide (ty ∈ actual)
  | _ => false

/-- A kind of errors in which it does not count that a type does not fit. -/
structure Spares (unknown : String) (kind : Finding → Bool) : Prop where
  isError : ∀ finding, kind finding = true → finding.isError = true
  mismatch : ∀ finding, finding.problem.isMismatchOf (.named unknown) = true → kind finding = false

variable {unknown : String} {kind : Finding → Bool}

namespace Ty

variable {ty ty' : Ty} {tys tys' : List Ty}

theorem Retyped.strays (retyped : ty.Retyped unknown ty') : ty.Strays unknown ty' := by
  cases retyped with
  | same => exact .fades (.refl _)
  | changed name => exact .changed name

namespace Strays

theorem refl (ty : Ty) : ty.Strays unknown ty := .fades (.refl ty)

theorem toError (ty : Ty) : ty.Strays unknown .error := .fades (.toError ty)

/-- The error type stays. -/
theorem eq_error (strays : Ty.error.Strays unknown ty) : ty = .error := by
  cases strays with
  | fades fades => exact fades.elim id id

/-- A type that does not become the unknown one fades at most. -/
theorem fades_of_ne (strays : ty.Strays unknown ty') (known : ty' ≠ .named unknown) :
    ty.Fades ty' := by
  cases strays with
  | fades fades => exact fades
  | changed name => exact absurd rfl known

/-- A type that is no class or interface type fades at most. -/
theorem fades_of_ne_named (strays : ty.Strays unknown ty') (value : ∀ name, ty ≠ .named name) :
    ty.Fades ty' := by
  cases strays with
  | fades fades => exact fades
  | changed name => exact absurd rfl (value name)

theorem error_mem (strays : List.Forall₂ (Ty.Strays unknown) tys tys') (lost : .error ∈ tys) :
    .error ∈ tys' := by
  induction strays with
  | nil => cases lost
  | cons head _ inductionHypothesis =>
      rcases List.mem_cons.mp lost with rfl | later
      · rw [head.eq_error]
        exact List.mem_cons_self
      · exact List.mem_cons_of_mem _ (inductionHypothesis later)

theorem forall₂_fades (strays : List.Forall₂ (Ty.Strays unknown) tys tys')
    (known : .named unknown ∉ tys') : List.Forall₂ Ty.Fades tys tys' := by
  induction strays with
  | nil => exact .nil
  | cons head _ inductionHypothesis =>
      rw [List.mem_cons, not_or] at known
      exact .cons (head.fades_of_ne (Ne.symm known.1)) (inductionHypothesis known.2)

theorem forall₂_fades_of_ne_named (strays : List.Forall₂ (Ty.Strays unknown) tys tys')
    (values : ∀ ty ∈ tys, ∀ name, ty ≠ .named name) : List.Forall₂ Ty.Fades tys tys' := by
  induction strays with
  | nil => exact .nil
  | cons head _ inductionHypothesis =>
      rw [List.forall_mem_cons] at values
      exact .cons (head.fades_of_ne_named values.1) (inductionHypothesis values.2)

end Strays

end Ty

namespace Spares

variable (spares : Spares unknown kind)

include spares

/-- Where there is no error nothing counts. -/
theorem tally_eq_zero {α : Type} {pass : Reported α} (clean : pass.tally Finding.isError = 0) :
    pass.tally kind = 0 := by
  rw [Reported.tally, List.countP_eq_zero] at clean
  rw [Reported.tally, List.countP_eq_zero]
  exact fun finding member counts => clean finding member (spares.isError finding counts)

theorem tally_report {position : Position} {problem : Problem}
    (mismatch : problem.isMismatchOf (.named unknown) = true) :
    (Reported.report position problem).tally kind = 0 := by
  rw [Reported.tally_report, spares.mismatch ⟨position, problem⟩ mismatch]
  rfl

/-- A warning does not count. -/
theorem tally_reportIf_implicitConversion {condition : Bool} {position : Position} :
    (Reported.reportIf condition position .implicitConversion).tally kind = 0 :=
  spares.tally_eq_zero (by cases condition <;> rfl)

end Spares

/-- In a type that has been found without an error nothing counts when it is
found from types that have strayed, and it strays itself. -/
def Reported.Strays (unknown : String) (kind : Finding → Bool) (original rest : Reported Ty) :
    Prop :=
  original.tally Finding.isError = 0 →
    rest.tally kind = 0 ∧ original.value.Strays unknown rest.value

theorem Reported.Fades.strays {original rest : Reported Ty} (fades : original.Fades rest)
    (spares : Spares unknown kind) : original.Strays unknown kind rest := by
  intro clean
  rcases fades clean with ⟨stillClean, ty⟩
  exact ⟨spares.tally_eq_zero stillClean, .fades ty⟩

namespace Typing

variable {model model' : SymbolModel} {position : Position}
variable {left left' right right' ty ty' : Ty} {tys tys' : List Ty}

/-! ## Types from the types of parts -/

/-- Only comparisons apply to classes and interfaces. -/
theorem operatorTy?_of_named {op : BinaryOp} {name : String}
    (named : left = .named name ∨ right = .named name)
    (found : operatorTy? model op left right = some ty) : ty = .bool := by
  rcases named with rfl | rfl
  · cases op <;> simp_all [operatorTy?]
  · cases op <;> cases left <;> simp_all [operatorTy?]

/-- A binary expression over a class or interface is a truth value or has no
type. -/
theorem value_binaryTy_of_named {op : BinaryOp} {name : String}
    (named : left = .named name ∨ right = .named name) :
    Ty.bool.Fades (binaryTy model op left right position).value := by
  unfold binaryTy
  split
  · exact .toError _
  · split
    next ty found => exact .inl (operatorTy?_of_named named found)
    next => exact .toError _

/-- Over the unknown type it can only be reported not to fit. -/
theorem tally_binaryTy_of_unknown (spares : Spares unknown kind) {op : BinaryOp}
    (strange : left = .named unknown ∨ right = .named unknown) :
    (binaryTy model op left right position).tally kind = 0 := by
  unfold binaryTy
  split
  · rfl
  · split
    next =>
      rw [Reported.tally_bind, Reported.tally_pure]
      exact spares.tally_reportIf_implicitConversion
    next =>
      rw [Reported.tally_bind, Reported.tally_pure]
      exact spares.tally_report (decide_eq_true strange)

/-- A binary expression that has been found without an error, and over no error
type, has a type. -/
theorem operatorTy?_of_errors_binaryTy {op : BinaryOp} (known : ¬ (left = .error ∨ right = .error))
    (clean : (binaryTy model op left right position).tally Finding.isError = 0) :
    operatorTy? model op left right = some (binaryTy model op left right position).value := by
  unfold binaryTy at clean ⊢
  rw [if_neg known] at clean ⊢
  split at clean
  next found => rw [found]; rfl
  next => exact absurd clean (Reported.errors_report_bind_ne_zero rfl)

theorem strays_binaryTy (spares : Spares unknown kind) {op : BinaryOp}
    (leftStrays : left.Strays unknown left') (rightStrays : right.Strays unknown right') :
    (binaryTy model op left right position).Strays unknown kind
      (binaryTy model op left' right' position) := by
  by_cases strange : left' = .named unknown ∨ right' = .named unknown
  · intro clean
    refine ⟨tally_binaryTy_of_unknown spares strange, ?_⟩
    by_cases lost : left' = .error ∨ right' = .error
    · rw [show binaryTy model op left' right' position = pure .error from if_pos lost]
      exact .toError _
    · have known : ¬ (left = .error ∨ right = .error) := by
        rintro (rfl | rfl)
        · exact lost (.inl leftStrays.eq_error)
        · exact lost (.inr rightStrays.eq_error)
      have named : ∃ name, left = .named name ∨ right = .named name := by
        rcases strange with rfl | rfl
        · cases leftStrays with
          | fades fades => exact ⟨unknown, .inl (fades.resolve_right Ty.noConfusion).symm⟩
          | changed name => exact ⟨name, .inl rfl⟩
        · cases rightStrays with
          | fades fades => exact ⟨unknown, .inr (fades.resolve_right Ty.noConfusion).symm⟩
          | changed name => exact ⟨name, .inr rfl⟩
      rcases named with ⟨name, named⟩
      rw [operatorTy?_of_named named (operatorTy?_of_errors_binaryTy known clean)]
      exact .fades (value_binaryTy_of_named strange)
  · rw [not_or] at strange
    exact (fades_binaryTy (leftStrays.fades_of_ne strange.1)
      (rightStrays.fades_of_ne strange.2)).strays spares

theorem strays_elementTy (spares : Spares unknown kind) (strays : ty.Strays unknown ty') :
    (elementTy ty position).Strays unknown kind (elementTy ty' position) := by
  cases strays with
  | fades fades => exact (fades_elementTy fades).strays spares
  | changed name => exact fun clean => absurd clean Nat.one_ne_zero

/-- The items of an array literal without error are numbers or strings, or one
of them has no type. -/
theorem ne_named_of_errors_arrayTy (clean : (arrayTy tys position).tally Finding.isError = 0)
    (known : Ty.error ∉ tys) : ∀ ty ∈ tys, ∀ name, ty ≠ .named name := by
  cases tys with
  | nil => exact nofun
  | cons first rest =>
      have goesOn : ¬ (first :: rest).contains .error = true :=
        fun lost => known (List.contains_iff_mem.mp lost)
      rw [arrayTy, if_neg goesOn] at clean
      split at clean
      next array isArray =>
        have value : ∀ name, first ≠ .named name := by
          rintro name rfl
          cases isArray
        split at clean
        next same =>
          rw [List.forall_mem_cons]
          refine ⟨value, fun ty member => ?_⟩
          rw [of_decide_eq_true (List.all_eq_true.mp same ty member)]
          exact value
        next => exact absurd clean (Reported.errors_report_bind_ne_zero rfl)
      next => exact absurd clean (Reported.errors_report_bind_ne_zero rfl)

theorem strays_arrayTy (spares : Spares unknown kind)
    (strays : List.Forall₂ (Ty.Strays unknown) tys tys') :
    (arrayTy tys position).Strays unknown kind (arrayTy tys' position) := by
  intro clean
  by_cases lost : Ty.error ∈ tys
  · rw [arrayTy_of_contains_error (Ty.Strays.error_mem strays lost)]
    exact ⟨rfl, .toError _⟩
  · have values := ne_named_of_errors_arrayTy clean lost
    exact (fades_arrayTy (Ty.Strays.forall₂_fades_of_ne_named strays values)).strays spares clean

/-- What is reported of a call is that its arguments do not match. -/
theorem tally_callTy_of_unknown (spares : Spares unknown kind) {callee : NameUse}
    (strange : .named unknown ∈ tys) : (callTy model callee tys).tally kind = 0 := by
  unfold callTy
  split
  next => rfl
  next =>
    split
    next => rfl
    next =>
      rw [Reported.tally_bind, Reported.tally_pure]
      exact spares.tally_report (decide_eq_true strange)

/-- A call has the type that its function returns, or it is in error. -/
theorem value_callTy_fades {callee : NameUse}
    (clean : (callTy model callee tys).tally Finding.isError = 0) :
    (callTy model callee tys).value.Fades (callTy model callee tys').value := by
  unfold callTy at clean ⊢
  split at clean
  next => exact .refl _
  next signature _ =>
    split at clean
    next matched =>
      rw [if_pos matched]
      split
      · exact .refl _
      · exact .toError _
    next => exact absurd clean (Reported.errors_report_bind_ne_zero rfl)

theorem strays_callTy (spares : Spares unknown kind) {callee : NameUse}
    (strays : List.Forall₂ (Ty.Strays unknown) tys tys') :
    (callTy model callee tys).Strays unknown kind (callTy model callee tys') := by
  by_cases strange : .named unknown ∈ tys'
  · exact fun clean => ⟨tally_callTy_of_unknown spares strange, .fades (value_callTy_fades clean)⟩
  · exact (fades_callTy (Ty.Strays.forall₂_fades strays strange)).strays spares

/-- A number or a truth value that was required is not missed. -/
theorem differs_of_strays {required : Ty} (strays : ty.Strays unknown ty')
    (value : ∀ name, required ≠ .named name) (fits : differs required ty = false) :
    differs required ty' = false := by
  cases strays with
  | fades fades => exact differs_of_fades fades fits
  | changed name => exact absurd (Ne.symm (value name)) (by simpa [differs] using fits)

/-- If it was found where it was required, nothing is reported. -/
theorem tally_differs_of_strays {required : Ty} {problem : Problem}
    (strays : ty.Strays unknown ty') (value : ∀ name, required ≠ .named name)
    (fits : (if differs required ty then 1 else 0) = 0) :
    (Reported.reportIf (differs required ty') position problem).tally kind = 0 := by
  have equal : differs required ty = false := by
    cases missed : differs required ty with
    | false => rfl
    | true =>
        rw [missed] at fits
        cases fits
  rw [differs_of_strays strays value equal]
  rfl

/-- A value that could be assigned still can, or one of the types is the unknown
one. -/
theorem isAssignable_of_strays {expected expected' actual actual' : Ty}
    (expectedStrays : expected.Strays unknown expected')
    (actualStrays : actual.Strays unknown actual')
    (fits : model.isAssignable expected actual = true) :
    model.isAssignable expected' actual' = true ∨
      expected' = .named unknown ∨ actual' = .named unknown := by
  by_cases strange : expected' = .named unknown ∨ actual' = .named unknown
  · exact .inr strange
  · rw [not_or] at strange
    exact .inl (isAssignable_of_fades (expectedStrays.fades_of_ne strange.1)
      (actualStrays.fades_of_ne strange.2) fits)

/-- Of an assignment it can only be reported that the unknown type does not
fit. -/
theorem tally_requireAssignable_of_strays (spares : Spares unknown kind) {name : String}
    {expected expected' actual actual' : Ty} (expectedStrays : expected.Strays unknown expected')
    (actualStrays : actual.Strays unknown actual')
    (fits : model.isAssignable expected actual = true) :
    (requireAssignable model name expected' actual' position).tally kind = 0 := by
  rcases isAssignable_of_strays expectedStrays actualStrays fits with fits | strange
  · rw [requireAssignable, fits]
    rfl
  · unfold requireAssignable Reported.reportIf
    split
    · exact spares.tally_report (decide_eq_true strange)
    · rfl

/-- So it is of a return. -/
theorem tally_mismatchedReturn_of_strays (spares : Spares unknown kind) {name : String}
    {expected actual actual' : Ty} (known : expected ≠ .named unknown)
    (strays : actual.Strays unknown actual') (fits : model.isAssignable expected actual = true) :
    (Reported.reportIf (!model.isAssignable expected actual') position
      (.mismatchedReturn name expected actual')).tally kind = 0 := by
  rcases isAssignable_of_strays (.refl expected) strays fits with fits | strange
  · rw [fits]
    rfl
  · unfold Reported.reportIf
    split
    · exact spares.tally_report (decide_eq_true (strange.resolve_left known))
    · rfl

section Models

variable (assigns : model'.isAssignable = model.isAssignable)

include assigns

theorem binaryTy_congr : binaryTy model' = binaryTy model := by
  have compares : comparable model' = comparable model := by
    funext left right
    unfold comparable
    rw [assigns]
  have operates : operatorTy? model' = operatorTy? model := by
    funext op left right
    unfold operatorTy?
    rw [compares]
  funext op left right position
  unfold binaryTy
  rw [operates]

theorem callTy_congr : callTy model' = callTy model := by
  have matched : argumentsMatch model' = argumentsMatch model := by
    funext expected actual
    unfold argumentsMatch
    rw [assigns]
  funext callee args
  unfold callTy
  rw [matched]

theorem requireAssignable_congr : requireAssignable model' = requireAssignable model := by
  funext name expected actual position
  unfold requireAssignable
  rw [assigns]

end Models

end Typing

end KnightFront
