import KnightFront.Proofs.Edits.Fading
import KnightFront.Proofs.Edits.Judged
import KnightFront.Proofs.Edits.Site
import KnightFront.Proofs.Typing.Exprs

namespace KnightFront

/-!
# One mistake in an expression

A mistake in one part of an expression is reported once, where it is.  The
expression around it then has the type that it had or the error type, and for
members the class or interface that it had or none.  Hence the mistake is
reported once in every expression around it.

A mistake in front of a member could be reported twice: name resolution looks
for the member before types are checked, so it must not find another class or
a value there.
-/

open Analysis Resolution Typing

/-- An expression that stood without error at a place has been changed so that
one error is reported. -/
structure Spoiled (place : NamePlace) (scopes : List Scope) (role : Role) (expr changed : Expr) :
    Prop where
  once : (judge place scopes changed).tally Finding.isError = 1
  ty : (judge place scopes expr).value.Fades (judge place scopes changed).value
  member : role = .receiver → ∀ owner, memberTy? place scopes expr = some (.named owner) →
    memberTy? place scopes changed = none ∨
      memberTy? place scopes changed = memberTy? place scopes expr

/-- What may stand in one place makes one error there, if there was none
before. -/
structure Edit.Spoils (edit : Edit) (allowed : String → Prop) : Prop where
  expr : ∀ {place : NamePlace} {scopes : List Scope} {role : Role} {expr expr' : Expr},
    Site allowed place scopes → expr.Written → (judge place scopes expr).tally Finding.isError = 0 →
      edit.expr place scopes role expr expr' → Spoiled place scopes role expr expr'
  target : ∀ {place : NamePlace} {scopes : List Scope} {target target' : NameUse},
    Site allowed place scopes → target.Written → edit.target target target' →
      (bindValue place scopes target').tally Finding.isError = 1 ∧
        (bindValue place scopes target').value.binding = none
  member : ∀ {place : NamePlace} {scopes : List Scope} {used used' : NameUse} {owner : String},
    Site allowed place scopes → used.Written → place.model.isTypeName owner = true →
      edit.member used used' →
        (bindField place (some (.named owner)) used').tally Finding.isError = 1 ∧
          (bindField place (some (.named owner)) used').value.binding = none

section Receivers

variable {allowed : String → Prop} {place : NamePlace} {scopes : List Scope}
variable {receiver : Expr} {used : NameUse}

/-- A receiver without error has a type once it is resolved, a declared one or
that of a function. -/
theorem Site.exists_memberTy? (site : Site allowed place scopes) (written : receiver.Written)
    (clean : (judge place scopes receiver).tally Finding.isError = 0) :
    ∃ ty, memberTy? place scopes receiver = some ty ∧
      (ty.Declared place.model ∨ ty = .function) := by
  rw [tally_judge, Nat.add_eq_zero_iff, Reported.errors_eq_zero_iff,
    Reported.errors_eq_zero_iff] at clean
  have linked := linked_resolveExpr place site.closed site.declared receiver written clean.1
  have typed := hasTy_of_lacks_checkExpr _ linked
    (clean.2.mono fun _ => Problem.isTypingError_of_isError)
  exact ⟨_, Expr.staticTy?_of_hasTy typed, linked.ty typed⟩

/-- In front of a method that is bound without error stands a class or an
interface. -/
theorem exists_named_of_bindMethod {ty : Ty} (known : ty.Declared place.model ∨ ty = .function)
    (clean : (bindMethod place (some ty) used).tally Finding.isError = 0) :
    ∃ owner, ty = .named owner ∧ place.model.isTypeName owner = true := by
  cases ty with
  | named owner => exact ⟨owner, rfl, known.resolve_right Ty.noConfusion⟩
  | error => rcases known with impossible | impossible <;> cases impossible
  | _ => simp [bindMethod, bindName, Problem.isError, Problem.severity] at clean

/-- In front of a field stands a class or an interface. -/
theorem exists_named_of_bindField {ty : Ty} (known : ty.Declared place.model ∨ ty = .function)
    (clean : (bindField place (some ty) used).tally Finding.isError = 0) :
    ∃ owner, ty = .named owner ∧ place.model.isTypeName owner = true := by
  cases ty with
  | named owner => exact ⟨owner, rfl, known.resolve_right Ty.noConfusion⟩
  | error => rcases known with impossible | impossible <;> cases impossible
  | _ => simp [bindField, bindName, Problem.isError, Problem.severity] at clean

end Receivers

section MemberTypes

variable {place : NamePlace} {scopes : List Scope} {info : ExprInfo} {used : NameUse}

theorem memberTy?_methodCall {receiver : Expr} {args : List Expr} :
    memberTy? place scopes (.methodCall info receiver used args) =
      ((bindMethod place (memberTy? place scopes receiver) used).value.binding.bind
        Binding.signature?).map Signature.returnTy := by
  simp [memberTy?, resolveExpr, Expr.staticTy?]

theorem memberTy?_field {receiver : Expr} :
    memberTy? place scopes (.field info receiver used) =
      (bindField place (memberTy? place scopes receiver) used).value.binding.map Binding.ty := by
  simp [memberTy?, resolveExpr, Expr.staticTy?]

end MemberTypes

section NeverNamed

variable {place : NamePlace} {scopes : List Scope} {info : ExprInfo} {owner : String}

theorem memberTy?_binary_ne_named {op : BinaryOp} {left right : Expr} :
    memberTy? place scopes (.binary info op left right) ≠ some (.named owner) := by
  simp only [memberTy?, resolveExpr, Reported.value_bind, Reported.value_pure, Expr.staticTy?]
  split
  · simp
  · split <;> simp

theorem memberTy?_index_ne_named {base position : Expr} :
    memberTy? place scopes (.index info base position) ≠ some (.named owner) := by
  simp only [memberTy?, resolveExpr, Reported.value_bind, Reported.value_pure, Expr.staticTy?]
  intro found
  rcases Option.bind_eq_some_iff.mp found with ⟨array, -, isElement⟩
  cases array with
  | array element => cases element <;> cases isElement
  | _ => cases isElement

theorem memberTy?_array_ne_named {items : List Expr} :
    memberTy? place scopes (.array info items) ≠ some (.named owner) := by
  simp only [memberTy?, resolveExpr, Reported.value_bind, Reported.value_pure, Expr.staticTy?]
  intro found
  cases resolved : (resolveExprs place scopes items).value with
  | nil => rw [resolved] at found; cases found
  | cons first rest =>
      rw [resolved, Expr.staticArrayTy?] at found
      rcases Option.bind_eq_some_iff.mp found with ⟨element, -, isArray⟩
      cases element <;> cases isArray

end NeverNamed

section Several

variable {place : NamePlace} {scopes : List Scope} {role : Role} {expr expr' : Expr}
variable {front back : List Expr}

theorem errors_judgeAll_append_cons :
    (judgeAll place scopes (front ++ expr :: back)).tally Finding.isError =
      (judgeAll place scopes front).tally Finding.isError +
      (judge place scopes expr).tally Finding.isError +
        (judgeAll place scopes back).tally Finding.isError := by
  simp [judgeAll, Nat.add_assoc]

theorem value_judgeAll_append_cons :
    (judgeAll place scopes (front ++ expr :: back)).value =
      (judgeAll place scopes front).value ++ (judge place scopes expr).value ::
        (judgeAll place scopes back).value := by
  simp [judgeAll]

theorem Expr.Written.of_append_cons (written : Expr.WrittenList (front ++ expr :: back)) :
    expr.Written :=
  Expr.writtenList_iff.mp written expr (by simp)

end Several

namespace Expr.Edited

variable {edit : Edit} {allowed : String → Prop} {place : NamePlace} {scopes : List Scope}

/-- A mistake in one place of an expression is reported once. -/
theorem spoiled (spoils : edit.Spoils allowed) (site : Site allowed place scopes) {role : Role}
    {expr expr' : Expr} (edited : Expr.Edited (edit.expr place scopes) role expr expr')
    (written : expr.Written) (clean : (judge place scopes expr).tally Finding.isError = 0) :
    Spoiled place scopes role expr expr' := by
  induction edited with
  | here changed => exact spoils.expr site written clean changed
  | @left role info op left left' right _ inductionHypothesis =>
      rw [Expr.written_binary] at written
      rw [tally_judge_binary] at clean
      have part := inductionHypothesis written.1 (by omega)
      have once := part.once
      have combined := @fades_binaryTy place.model info.span.start _ _ _ _ op part.ty
        (.refl (judge place scopes right).value) (by omega)
      refine ⟨?_, combined.2, fun _ _ found => absurd found memberTy?_binary_ne_named⟩
      rw [tally_judge_binary]
      omega
  | @right role info op left right right' _ inductionHypothesis =>
      rw [Expr.written_binary] at written
      rw [tally_judge_binary] at clean
      have part := inductionHypothesis written.2 (by omega)
      have once := part.once
      have combined := @fades_binaryTy place.model info.span.start _ _ _ _ op
        (.refl (judge place scopes left).value) part.ty (by omega)
      refine ⟨?_, combined.2, fun _ _ found => absurd found memberTy?_binary_ne_named⟩
      rw [tally_judge_binary]
      omega
  | @argument role info callee front back arg arg' _ inductionHypothesis =>
      rw [Expr.written_call] at written
      rw [tally_judge_call, errors_judgeAll_append_cons, value_judgeAll_append_cons] at clean
      have part := inductionHypothesis (.of_append_cons written.2) (by omega)
      have once := part.once
      have called := @fades_callTy place.model _ _ (bindCallee place callee).value
        (part.ty.among (judgeAll place scopes front).value (judgeAll place scopes back).value)
        (by omega)
      refine ⟨?_, ?_, fun _ _ _ => .inr rfl⟩
      · rw [tally_judge_call, errors_judgeAll_append_cons, value_judgeAll_append_cons]
        omega
      · rw [value_judge_call, value_judge_call, value_judgeAll_append_cons,
          value_judgeAll_append_cons]
        exact called.2
  | @receiver role info receiver receiver' callee args _ inductionHypothesis =>
      rw [Expr.written_methodCall] at written
      rw [tally_judge_methodCall] at clean
      have part := inductionHypothesis written.2.1 (by omega)
      have once := part.once
      rcases site.exists_memberTy? written.2.1 (by omega) with ⟨ty, isTy, known⟩
      rw [isTy] at clean
      rcases @exists_named_of_bindMethod _ callee _ known (by omega) with ⟨owner, rfl, -⟩
      rcases part.member rfl owner isTy with lost | kept
      · -- The method stays unbound, and its call has the error type.
        have unbound : bindMethod place (memberTy? place scopes receiver') callee = pure callee := by
          rw [lost]
          rfl
        refine ⟨?_, ?_, fun _ _ _ => .inl ?_⟩
        · rw [tally_judge_methodCall, unbound, Reported.value_pure,
            callTy_of_unbound written.1.unbound]
          simp only [Reported.tally_pure]
          omega
        · have typed : (judge place scopes (.methodCall info receiver' callee args)).value =
              .error := by
            rw [value_judge_methodCall, unbound, Reported.value_pure,
              callTy_of_unbound written.1.unbound]
            rfl
          rw [typed]
          exact .toError _
        · rw [memberTy?_methodCall, unbound, Reported.value_pure, written.1.unbound]
          rfl
      · refine ⟨?_, ?_, fun _ _ _ => .inr ?_⟩
        · rw [tally_judge_methodCall, kept, isTy]
          omega
        · rw [value_judge_methodCall, value_judge_methodCall, kept]
          exact .refl _
        · rw [memberTy?_methodCall, memberTy?_methodCall, kept]
  | @methodArgument role info receiver callee front back arg arg' _ inductionHypothesis =>
      rw [Expr.written_methodCall] at written
      rw [tally_judge_methodCall, errors_judgeAll_append_cons, value_judgeAll_append_cons] at clean
      have part := inductionHypothesis (.of_append_cons written.2.2) (by omega)
      have once := part.once
      have called := @fades_callTy place.model _ _
        (bindMethod place (memberTy? place scopes receiver) callee).value
        (part.ty.among (judgeAll place scopes front).value (judgeAll place scopes back).value)
        (by omega)
      refine ⟨?_, ?_, fun _ _ _ => .inr rfl⟩
      · rw [tally_judge_methodCall, errors_judgeAll_append_cons, value_judgeAll_append_cons]
        omega
      · rw [value_judge_methodCall, value_judge_methodCall, value_judgeAll_append_cons,
          value_judgeAll_append_cons]
        exact called.2
  | @fieldReceiver role info receiver receiver' used _ inductionHypothesis =>
      rw [Expr.written_field] at written
      rw [tally_judge_field] at clean
      have part := inductionHypothesis written.2 (by omega)
      have once := part.once
      rcases site.exists_memberTy? written.2 (by omega) with ⟨ty, isTy, known⟩
      rw [isTy] at clean
      rcases @exists_named_of_bindField _ used _ known (by omega) with ⟨owner, rfl, -⟩
      rcases part.member rfl owner isTy with lost | kept
      · have unbound : bindField place (memberTy? place scopes receiver') used = pure used := by
          rw [lost]
          rfl
        refine ⟨?_, ?_, fun _ _ _ => .inl ?_⟩
        · rw [tally_judge_field, unbound, Reported.tally_pure]
          omega
        · rw [value_judge_field, value_judge_field, unbound, Reported.value_pure,
            boundTy_of_unbound written.1.unbound]
          exact .toError _
        · rw [memberTy?_field, unbound, Reported.value_pure, written.1.unbound]
          rfl
      · refine ⟨?_, ?_, fun _ _ _ => .inr ?_⟩
        · rw [tally_judge_field, kept, isTy]
          omega
        · rw [value_judge_field, value_judge_field, kept]
          exact .refl _
        · rw [memberTy?_field, memberTy?_field, kept]
  | @length role info element length length' _ inductionHypothesis =>
      rw [Expr.written_newArray] at written
      rw [errors_judge_newArray] at clean
      have part := inductionHypothesis written (by omega)
      have once := part.once
      have fits : differs .int (judge place scopes length').value = false :=
        differs_of_fades part.ty (by grind)
      refine ⟨?_, .refl _, fun _ _ _ => .inr rfl⟩
      rw [errors_judge_newArray, fits]
      exact once
  | @base role info base base' position _ inductionHypothesis =>
      rw [Expr.written_index] at written
      rw [errors_judge_index] at clean
      have part := inductionHypothesis written.1 (by omega)
      have once := part.once
      have element := @fades_elementTy info.span.start _ _ part.ty (by omega)
      refine ⟨?_, element.2, fun _ _ found => absurd found memberTy?_index_ne_named⟩
      rw [errors_judge_index]
      omega
  | @position role info base position position' _ inductionHypothesis =>
      rw [Expr.written_index] at written
      rw [errors_judge_index] at clean
      have part := inductionHypothesis written.2 (by omega)
      have once := part.once
      have fits : differs .int (judge place scopes position').value = false :=
        differs_of_fades part.ty (by grind)
      refine ⟨?_, .refl _, fun _ _ found => absurd found memberTy?_index_ne_named⟩
      rw [errors_judge_index, fits]
      simp only [Bool.false_eq_true, if_false]
      omega
  | @item role info front back item item' _ inductionHypothesis =>
      rw [Expr.written_array] at written
      rw [tally_judge_array, errors_judgeAll_append_cons, value_judgeAll_append_cons] at clean
      have part := inductionHypothesis (.of_append_cons written) (by omega)
      have once := part.once
      have array := @fades_arrayTy info.span.start _ _
        (part.ty.among (judgeAll place scopes front).value (judgeAll place scopes back).value)
        (by omega)
      refine ⟨?_, ?_, fun _ _ found => absurd found memberTy?_array_ne_named⟩
      · rw [tally_judge_array, errors_judgeAll_append_cons, value_judgeAll_append_cons]
        omega
      · rw [value_judge_array, value_judge_array, value_judgeAll_append_cons,
          value_judgeAll_append_cons]
        exact array.2

end Expr.Edited

end KnightFront
