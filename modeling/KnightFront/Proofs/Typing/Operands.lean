import KnightFront.Analysis.Typing
import KnightFront.Proofs.Diagnostics.Absence
import KnightFront.Proofs.Typing.Rules

namespace KnightFront

/-!
# Types from the types of parts

The functions that find the type of a binary expression, a call, an array or
an element from the types of the parts, against the rules for them.  Each
comes in two directions.  What a rule allows passes without a typing error.
Conversely, parts that have types other than the error type and pass without a
typing error obey a rule; the error type must be excluded because it lets
everything pass.

The conversion of a number in a concatenation is a warning, so it is no typing
error.
-/

namespace Typing

open Reported (reportIf)

variable {model : SymbolModel}

/-- What the checker takes for comparable is comparable. -/
theorem comparable_eq_true_iff {left right : Ty} :
    comparable model left right = true ↔ Comparable model left right := by
  constructor
  · intro accepted
    unfold comparable at accepted
    split at accepted
    next => exact .int
    next => exact .string
    next => exact .bool
    next upper lower =>
      rcases Bool.or_eq_true_iff.mp accepted with fits | fits
      · exact .below ((SymbolModel.isAssignable_iff Ty.noConfusion Ty.noConfusion).mp fits)
      · exact .above ((SymbolModel.isAssignable_iff Ty.noConfusion Ty.noConfusion).mp fits)
    next => cases accepted
  · intro fits
    cases fits with
    | int => rfl
    | string => rfl
    | bool => rfl
    | below fits => simp [comparable, fits.isAssignable]
    | above fits => simp [comparable, fits.isAssignable]

/-- The checker finds the result type of an operator by its rules. -/
theorem operatorTy?_eq_some_iff {op : BinaryOp} {left right ty : Ty} :
    operatorTy? model op left right = some ty ↔ op.HasTy model left right ty := by
  constructor
  · intro found
    cases op with
    | plus =>
        simp only [operatorTy?] at found
        split at found
        next => cases found; exact .sum
        next => cases found; exact .concatenation
        next => cases found; exact .numberInFront
        next => cases found; exact .numberBehind
        next => cases found
    | minus | modulus | times | divide =>
        rcases Option.ite_none_right_eq_some.mp found with ⟨⟨rfl, rfl⟩, ⟨⟩⟩
        exact .arithmetic rfl
    | less | lessEquals | greater | greaterEquals =>
        rcases Option.ite_none_right_eq_some.mp found with ⟨⟨rfl, rfl⟩, ⟨⟩⟩
        exact .ordering rfl
    | or | and =>
        rcases Option.ite_none_right_eq_some.mp found with ⟨⟨rfl, rfl⟩, ⟨⟩⟩
        exact .logical rfl
    | equals | notEquals =>
        rcases Option.ite_none_right_eq_some.mp found with ⟨fits, ⟨⟩⟩
        exact .equality rfl (comparable_eq_true_iff.mp fits)
  · intro applies
    cases applies with
    | sum => rfl
    | concatenation => rfl
    | numberInFront => rfl
    | numberBehind => rfl
    | arithmetic kind => cases op <;> cases kind <;> rfl
    | ordering kind => cases op <;> cases kind <;> rfl
    | logical kind => cases op <;> cases kind <;> rfl
    | equality kind fits =>
        have accepted := comparable_eq_true_iff.mpr fits
        cases op <;> cases kind <;> exact if_pos accepted

/-- No rule for operators takes the error type. -/
theorem known_of_operatorHasTy {op : BinaryOp} {left right ty : Ty}
    (applies : op.HasTy model left right ty) : left ≠ .error ∧ right ≠ .error := by
  cases applies with
  | equality _ fits => cases fits <;> exact ⟨Ty.noConfusion, Ty.noConfusion⟩
  | _ => exact ⟨Ty.noConfusion, Ty.noConfusion⟩

theorem binaryTy_of_operatorHasTy {op : BinaryOp} {left right ty : Ty} (position : Position)
    (applies : op.HasTy model left right ty) :
    (binaryTy model op left right position).value = ty ∧
      (binaryTy model op left right position).Lacks Problem.isTypingError := by
  have known := known_of_operatorHasTy applies
  rw [binaryTy, if_neg (not_or.mpr known), operatorTy?_eq_some_iff.mpr applies]
  refine ⟨rfl, ?_⟩
  rw [Reported.lacks_bind, Reported.lacks_reportIf]
  exact ⟨fun _ => rfl, Reported.lacks_pure ty⟩

theorem operatorHasTy_of_lacks_binaryTy {op : BinaryOp} {left right : Ty} {position : Position}
    (leftKnown : left ≠ .error) (rightKnown : right ≠ .error)
    (clean : (binaryTy model op left right position).Lacks Problem.isTypingError) :
    op.HasTy model left right (binaryTy model op left right position).value := by
  rw [binaryTy, if_neg (not_or.mpr ⟨leftKnown, rightKnown⟩)] at clean ⊢
  split at clean
  next ty found => exact operatorTy?_eq_some_iff.mp found
  next =>
    rw [Reported.lacks_bind, Reported.lacks_report] at clean
    cases clean.1

/-- What a signature accepts matches its parameters. -/
theorem argumentsMatch_of_accepts {signature : Signature} {args : List Ty}
    (accepts : signature.Accepts model args) :
    argumentsMatch model signature.parameterTys args = true := by
  rw [Signature.Accepts, List.forall₂_iff_zip] at accepts
  rw [argumentsMatch, Bool.and_eq_true, decide_eq_true_eq, List.all_eq_true]
  exact ⟨accepts.1, fun pair member => (accepts.2 member).isAssignable⟩

/-- Known arguments that match known parameters are accepted. -/
theorem accepts_of_argumentsMatch {signature : Signature} {args : List Ty}
    (expectedKnown : ∀ ty ∈ signature.parameterTys, ty ≠ .error) (known : ∀ ty ∈ args, ty ≠ .error)
    (matched : argumentsMatch model signature.parameterTys args = true) :
    signature.Accepts model args := by
  rw [argumentsMatch, Bool.and_eq_true, decide_eq_true_eq, List.all_eq_true] at matched
  rw [Signature.Accepts, List.forall₂_iff_zip]
  refine ⟨matched.1, fun {expected actual} member => ?_⟩
  have inside := List.of_mem_zip member
  exact (SymbolModel.isAssignable_iff (expectedKnown expected inside.1)
    (known actual inside.2)).mp (matched.2 _ member)

theorem callTy_of_accepts {callee : NameUse} {signature : Signature} {args : List Ty}
    (calls : callee.Calls signature) (accepts : signature.Accepts model args) :
    callTy model callee args = pure signature.returnTy := by
  rw [callTy, calls]
  exact if_pos (argumentsMatch_of_accepts accepts)

theorem accepts_of_lacks_callTy {callee : NameUse} {signature : Signature} {args : List Ty}
    (calls : callee.Calls signature) (expectedKnown : ∀ ty ∈ signature.parameterTys, ty ≠ .error)
    (known : ∀ ty ∈ args, ty ≠ .error)
    (clean : (callTy model callee args).Lacks Problem.isTypingError) :
    signature.Accepts model args := by
  rw [callTy, calls] at clean
  simp only at clean
  split at clean
  next matched => exact accepts_of_argumentsMatch expectedKnown known matched
  next =>
    rw [Reported.lacks_bind, Reported.lacks_report] at clean
    cases clean.1

theorem elementTy_array (element : ElementTy) (position : Position) :
    elementTy (.array element) position = pure element.ty := rfl

theorem array_of_lacks_elementTy {base : Ty} {position : Position} (known : base ≠ .error)
    (clean : (elementTy base position).Lacks Problem.isTypingError) :
    ∃ element, base = .array element := by
  cases base with
  | array element => exact ⟨element, rfl⟩
  | error => exact absurd rfl known
  | _ =>
      have reported := (Reported.lacks_reportIf _ _ _).mp ((Reported.lacks_bind _ _).mp clean).1
      cases reported rfl

/-- A number or a string is no mistake, and has its own array type. -/
theorem arrayOf?_elementTy (element : ElementTy) :
    element.ty.arrayOf? = some (.array element) := by
  cases element <;> rfl

theorem ElementTy.ty_ne_error (element : ElementTy) : element.ty ≠ .error := by
  cases element <;> exact nofun

theorem arrayTy_replicate (element : ElementTy) (count : Nat) (position : Position) :
    arrayTy (element.ty :: List.replicate count element.ty) position = pure (.array element) := by
  have known : (element.ty :: List.replicate count element.ty).contains Ty.error = false := by
    rw [List.contains_eq_mem, decide_eq_false_iff_not, ← List.replicate_succ]
    intro member
    exact ElementTy.ty_ne_error element (List.eq_of_mem_replicate member).symm
  have same : (List.replicate count element.ty).all (fun ty => decide (ty = element.ty)) = true := by
    rw [List.all_eq_true]
    exact fun ty member => decide_eq_true (List.eq_of_mem_replicate member)
  rw [arrayTy, if_neg (Bool.not_eq_true _ ▸ known), arrayOf?_elementTy]
  exact if_pos same

theorem replicate_of_lacks_arrayTy {first : Ty} {rest : List Ty} {position : Position}
    (known : ∀ ty ∈ first :: rest, ty ≠ .error)
    (clean : (arrayTy (first :: rest) position).Lacks Problem.isTypingError) :
    ∃ element : ElementTy, first = element.ty ∧ rest = List.replicate rest.length element.ty := by
  have clear : ¬(first :: rest).contains Ty.error = true := by
    rw [List.contains_eq_mem, decide_eq_true_eq]
    exact fun member => known _ member rfl
  rw [arrayTy, if_neg clear] at clean
  split at clean
  next array isArray =>
    split at clean
    next same =>
      rw [List.all_eq_true] at same
      have all : rest = List.replicate rest.length first :=
        List.eq_replicate_iff.mpr ⟨rfl, fun ty member => of_decide_eq_true (same ty member)⟩
      cases first with
      | int => exact ⟨.int, rfl, all⟩
      | string => exact ⟨.string, rfl, all⟩
      | _ => cases isArray
    next =>
      rw [Reported.lacks_bind, Reported.lacks_report] at clean
      cases clean.1
  next =>
    rw [Reported.lacks_bind, Reported.lacks_report] at clean
    cases clean.1

@[simp]
theorem differs_self (ty : Ty) : differs ty ty = false := by
  simp [differs]

/-- A known type that does not differ from the one required is that type. -/
theorem eq_of_lacks_reportIf_differs {required actual : Ty} {position : Position}
    {problem : Problem} (grave : problem.isTypingError = true) (known : actual ≠ .error)
    (clean : (reportIf (differs required actual) position problem).Lacks Problem.isTypingError) :
    actual = required := by
  rw [Reported.lacks_reportIf, grave] at clean
  by_contra different
  have impossible := clean (decide_eq_true ⟨known, different⟩)
  cases impossible

end Typing

end KnightFront
