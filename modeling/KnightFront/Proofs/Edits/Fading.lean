import KnightFront.Analysis.Typing
import KnightFront.Proofs.Diagnostics.Counts
import Mathlib.Data.List.Forall2

namespace KnightFront

/-!
# Types behind a mistake

Behind a mistake that has been reported an expression has the error type, or
keeps the type it had.  The functions that find a type from the types of parts
take this on: parts that passed without an error still do when some of them
fade to the error type, and then the result fades at most.
-/

/-- What is left of a type behind a mistake. -/
def Ty.Fades (original rest : Ty) : Prop := rest = original ∨ rest = .error

theorem Ty.Fades.refl (ty : Ty) : ty.Fades ty := .inl rfl

theorem Ty.Fades.toError (ty : Ty) : ty.Fades .error := .inr rfl

/-- One of several types may fade alone. -/
theorem Ty.Fades.among {ty ty' : Ty} (fades : ty.Fades ty') (front back : List Ty) :
    List.Forall₂ Ty.Fades (front ++ ty :: back) (front ++ ty' :: back) := by
  have others (tys : List Ty) : List.Forall₂ Ty.Fades tys tys :=
    List.forall₂_same.mpr fun other _ => .refl other
  exact List.rel_append (others front) (.cons fades (others back))

/-- A type that has been found without an error is still found without one, and
fades at most. -/
def Reported.Fades (original rest : Reported Ty) : Prop :=
  original.tally Finding.isError = 0 →
    rest.tally Finding.isError = 0 ∧ original.value.Fades rest.value

namespace Reported.Fades

theorem refl (pass : Reported Ty) : pass.Fades pass := fun clean => ⟨clean, .refl _⟩

theorem toError (pass : Reported Ty) : pass.Fades (pure .error) :=
  fun _ => ⟨tally_pure _ _, .toError _⟩

end Reported.Fades

namespace Typing

variable {model : SymbolModel} {position : Position} {left left' right right' ty ty' : Ty}
variable {tys tys' : List Ty}

theorem fades_binaryTy {op : BinaryOp} (leftFades : left.Fades left')
    (rightFades : right.Fades right') :
    (binaryTy model op left right position).Fades (binaryTy model op left' right' position) := by
  by_cases lost : left' = .error ∨ right' = .error
  · rw [show binaryTy model op left' right' position = pure .error from if_pos lost]
    exact .toError _
  · rw [not_or] at lost
    rw [leftFades.resolve_right lost.1, rightFades.resolve_right lost.2]
    exact .refl _

theorem fades_elementTy (fades : ty.Fades ty') :
    (elementTy ty position).Fades (elementTy ty' position) := by
  rcases fades with rfl | rfl
  · exact .refl _
  · exact .toError _

theorem arrayTy_of_contains_error (lost : Ty.error ∈ tys) : arrayTy tys position = pure .error := by
  cases tys with
  | nil => cases lost
  | cons first rest => exact if_pos (List.contains_iff_mem.mpr lost)

/-- Where no type has become the error type, all are what they were. -/
theorem eq_of_forall₂_fades (fades : List.Forall₂ Ty.Fades tys tys') (kept : Ty.error ∉ tys') :
    tys' = tys := by
  induction fades with
  | nil => rfl
  | cons head _ inductionHypothesis =>
      rw [List.mem_cons, not_or] at kept
      rw [head.resolve_right (Ne.symm kept.1), inductionHypothesis kept.2]

theorem fades_arrayTy (fades : List.Forall₂ Ty.Fades tys tys') :
    (arrayTy tys position).Fades (arrayTy tys' position) := by
  by_cases lost : Ty.error ∈ tys'
  · rw [arrayTy_of_contains_error lost]
    exact .toError _
  · rw [eq_of_forall₂_fades fades lost]
    exact .refl _

/-- Arguments still match their parameters when some of them fade. -/
theorem argumentsMatch_of_fades {expected : List Ty} (fades : List.Forall₂ Ty.Fades tys tys')
    (matched : argumentsMatch model expected tys = true) :
    argumentsMatch model expected tys' = true := by
  rw [argumentsMatch, Bool.and_eq_true, decide_eq_true_eq] at matched ⊢
  rcases matched with ⟨length, fits⟩
  refine ⟨length.trans fades.length_eq, ?_⟩
  clear length
  induction fades generalizing expected with
  | nil => rw [List.zip_nil_right, List.all_nil]
  | cons head _ inductionHypothesis =>
      cases expected with
      | nil => rfl
      | cons required rest =>
          rw [List.zip_cons_cons, List.all_cons, Bool.and_eq_true] at fits ⊢
          refine ⟨?_, inductionHypothesis fits.2⟩
          rcases head with rfl | rfl
          · exact fits.1
          · cases required <;> rfl

theorem fades_callTy {callee : NameUse} (fades : List.Forall₂ Ty.Fades tys tys') :
    (callTy model callee tys).Fades (callTy model callee tys') := by
  intro clean
  unfold callTy at clean ⊢
  split at clean
  next => exact ⟨rfl, .refl _⟩
  next signature _ =>
    split at clean
    next matched =>
      rw [if_pos matched, if_pos (argumentsMatch_of_fades fades matched)]
      exact ⟨rfl, .refl _⟩
    next => exact absurd clean (Reported.errors_report_bind_ne_zero rfl)

theorem callTy_of_unbound {callee : NameUse} (unbound : callee.binding = none) (args : List Ty) :
    callTy model callee args = pure .error := by
  rw [callTy, unbound]
  rfl

theorem boundTy_of_unbound {used : NameUse} (unbound : used.binding = none) :
    used.boundTy = .error := by
  rw [NameUse.boundTy, unbound]

theorem targetTy_of_unbound {target : NameUse} (unbound : target.binding = none) :
    targetTy target = pure .error := by
  rw [targetTy, unbound]

@[simp]
theorem differs_error {required : Ty} : differs required .error = false := by
  simp [differs]

/-- A type that did not differ from the one required does not when it fades. -/
theorem differs_of_fades {required : Ty} (fades : ty.Fades ty')
    (fits : differs required ty = false) : differs required ty' = false := by
  rcases fades with rfl | rfl
  · exact fits
  · exact differs_error

@[simp]
theorem isAssignable_error_left : model.isAssignable .error ty = true := by
  simp [SymbolModel.isAssignable]

@[simp]
theorem isAssignable_error_right : model.isAssignable ty .error = true := by
  cases ty <;> rfl

/-- A value that could be assigned still can when its type fades, or that of its
target. -/
theorem isAssignable_of_fades {expected expected' actual actual' : Ty}
    (expectedFades : expected.Fades expected') (actualFades : actual.Fades actual')
    (fits : model.isAssignable expected actual = true) :
    model.isAssignable expected' actual' = true := by
  rcases expectedFades with rfl | rfl
  · rcases actualFades with rfl | rfl
    · exact fits
    · exact isAssignable_error_right
  · exact isAssignable_error_left

end Typing

end KnightFront
