import KnightFront.Analysis.Resolution
import KnightFront.Proofs.Resolution.Linked
import KnightFront.Proofs.Typing.Operands

namespace KnightFront

/-!
# Checking expressions decides their types

Where the type system gives an expression a type, the checker finds this type
and makes no typing error.  Conversely, a linked expression without typing
errors has the type that the checker finds.

The second direction hinges on the error type.  It would let a mistake pass
unreported, so it must be shown that no part of a linked expression without
typing errors has it.  The type that names and literals decide gives this: it
agrees with the type system, and for a linked expression it is declared.
-/

variable {model : SymbolModel}

namespace Expr

/-- The result type of an operator is the one that its kind and the strings
among its operands decide. -/
theorem staticTy?_binary {info : ExprInfo} {op : BinaryOp} {left right : Expr}
    {leftTy rightTy ty : Ty} (leftStatic : left.staticTy? = some leftTy)
    (rightStatic : right.staticTy? = some rightTy) (applies : op.HasTy model leftTy rightTy ty) :
    (binary info op left right).staticTy? = some ty := by
  rw [staticTy?, leftStatic, rightStatic]
  cases applies with
  | sum => rfl
  | concatenation => rfl
  | numberInFront => rfl
  | numberBehind => rfl
  | arithmetic kind => cases op <;> cases kind <;> rfl
  | ordering kind => cases op <;> cases kind <;> rfl
  | logical kind => cases op <;> cases kind <;> rfl
  | equality kind => cases op <;> cases kind <;> rfl

/-- An expression has no other type than the one that names and literals
decide for it. -/
theorem staticTy?_of_hasTy : ∀ {expr : Expr} {ty : Ty}, expr.HasTy model ty →
    expr.staticTy? = some ty
  | .int .., _, typed => by cases typed; rfl
  | .string .., _, typed => by cases typed; rfl
  | .bool .., _, typed => by cases typed; rfl
  | .name .., _, typed => by
      cases typed with
      | name bound => rw [staticTy?, bound]; rfl
  | .binary .., _, typed => by
      cases typed with
      | binary leftTyped rightTyped applies =>
          exact staticTy?_binary (staticTy?_of_hasTy leftTyped) (staticTy?_of_hasTy rightTyped)
            applies
  | .call .., _, typed => by
      cases typed with
      | call calls _ _ => rw [staticTy?, calls]; rfl
  | .methodCall .., _, typed => by
      cases typed with
      | methodCall _ calls _ _ => rw [staticTy?, calls]; rfl
  | .field .., _, typed => by
      cases typed with
      | field _ bound => rw [staticTy?, bound]; rfl
  | .newInstance .., _, typed => by
      cases typed with
      | newInstance bound => rw [staticTy?, bound]; rfl
  | .newArray .., _, typed => by cases typed; rfl
  | .index .., _, typed => by
      cases typed with
      | index baseTyped _ => rw [staticTy?, staticTy?_of_hasTy baseTyped]; rfl
  | .array .., _, typed => by
      cases typed with
      | emptyArray => rfl
      | array firstTyped _ =>
          rw [staticTy?, staticArrayTy?, staticTy?_of_hasTy firstTyped]
          exact Typing.arrayOf?_elementTy _

/-- An expression has at most one type. -/
theorem HasTy.unique {expr : Expr} {first second : Ty} (firstTyped : expr.HasTy model first)
    (secondTyped : expr.HasTy model second) : first = second :=
  Option.some.inj ((staticTy?_of_hasTy firstTyped).symm.trans (staticTy?_of_hasTy secondTyped))

/-- A linked expression that has a type has a declared one, or is a function. -/
theorem Linked.ty {expr : Expr} (linked : expr.Linked model) {ty : Ty}
    (typed : expr.HasTy model ty) : ty.Declared model ∨ ty = .function :=
  linked.staticTy (staticTy?_of_hasTy typed)

/-- A linked expression that has a type does not have the error type. -/
theorem Linked.known {expr : Expr} (linked : expr.Linked model) {ty : Ty}
    (typed : expr.HasTy model ty) : ty ≠ .error := by
  rintro rfl
  rcases linked.ty typed with impossible | impossible <;> cases impossible

theorem LinkedList.known : ∀ {exprs : List Expr} {tys : List Ty}, LinkedList model exprs →
    HaveTys model exprs tys → ∀ ty ∈ tys, ty ≠ .error
  | _, _, _, .nil => fun _ member => nomatch member
  | _, _, linked, .cons firstTyped restTyped =>
      List.forall_mem_cons.mpr ⟨linked.1.known firstTyped, LinkedList.known linked.2 restTyped⟩

/-- Expressions have as many types as there are expressions. -/
theorem HaveTys.length_eq : ∀ {exprs : List Expr} {tys : List Ty}, HaveTys model exprs tys →
    exprs.length = tys.length
  | _, _, .nil => rfl
  | _, _, .cons _ restTyped => congrArg Nat.succ restTyped.length_eq

end Expr

/-- A bound name has the type of what it is bound to. -/
theorem NameUse.boundTy_of_bound {used : NameUse} {binding : Binding}
    (bound : used.binding = some binding) : used.boundTy = binding.ty := by
  rw [NameUse.boundTy, bound]

namespace Typing

mutual

/-- The checker finds the type that an expression has, without a typing
error. -/
theorem checkExpr_of_hasTy : ∀ {expr : Expr} {ty : Ty}, expr.HasTy model ty →
    (checkExpr model expr).value.2 = ty ∧
      (checkExpr model expr).Lacks Problem.isTypingError
  | _, _, .int => ⟨rfl, Reported.lacks_pure _⟩
  | _, _, .string => ⟨rfl, Reported.lacks_pure _⟩
  | _, _, .bool => ⟨rfl, Reported.lacks_pure _⟩
  | _, _, .name bound => ⟨NameUse.boundTy_of_bound bound, Reported.lacks_pure _⟩
  | .binary info op left right, _, .binary leftTyped rightTyped applies => by
      have leftChecked := checkExpr_of_hasTy leftTyped
      have rightChecked := checkExpr_of_hasTy rightTyped
      have applied := binaryTy_of_operatorHasTy info.span.start applies
      simp only [checkExpr, Reported.value_bind, Reported.value_pure, Reported.lacks_bind,
        Reported.lacks_pure, and_true, leftChecked.1, rightChecked.1]
      exact ⟨applied.1, leftChecked.2, rightChecked.2, applied.2⟩
  | .call info callee args, _, .call calls argsTyped accepts => by
      have argsChecked := checkExprs_of_haveTys argsTyped
      simp only [checkExpr, Reported.value_bind, Reported.value_pure, Reported.lacks_bind,
        Reported.lacks_pure, and_true, argsChecked.1, callTy_of_accepts calls accepts]
      exact ⟨trivial, argsChecked.2⟩
  | .methodCall info receiver callee args, _, .methodCall receiverTyped calls argsTyped accepts =>
    by
      have receiverChecked := checkExpr_of_hasTy receiverTyped
      have argsChecked := checkExprs_of_haveTys argsTyped
      simp only [checkExpr, Reported.value_bind, Reported.value_pure, Reported.lacks_bind,
        Reported.lacks_pure, and_true, argsChecked.1, callTy_of_accepts calls accepts]
      exact ⟨trivial, receiverChecked.2, argsChecked.2⟩
  | .field _ receiver used, _, .field receiverTyped bound => by
      have receiverChecked := checkExpr_of_hasTy receiverTyped
      simp only [checkExpr, Reported.value_bind, Reported.value_pure, Reported.lacks_bind,
        Reported.lacks_pure, and_true, NameUse.boundTy_of_bound bound]
      exact ⟨trivial, receiverChecked.2⟩
  | _, _, .newInstance bound => ⟨NameUse.boundTy_of_bound bound, Reported.lacks_pure _⟩
  | .newArray _ _ length, _, .newArray lengthTyped => by
      have lengthChecked := checkExpr_of_hasTy lengthTyped
      simp only [checkExpr, Reported.value_bind, Reported.value_pure, Reported.lacks_bind,
        Reported.lacks_pure, and_true, lengthChecked.1, differs_self]
      exact ⟨trivial, lengthChecked.2, Reported.lacks_pure _⟩
  | .index info base position, _, .index baseTyped positionTyped => by
      have baseChecked := checkExpr_of_hasTy baseTyped
      have positionChecked := checkExpr_of_hasTy positionTyped
      simp only [checkExpr, Reported.value_bind, Reported.value_pure, Reported.lacks_bind,
        Reported.lacks_pure, and_true, baseChecked.1, positionChecked.1, differs_self,
        elementTy_array]
      exact ⟨trivial, baseChecked.2, positionChecked.2, Reported.lacks_pure _⟩
  | _, _, .emptyArray => ⟨rfl, by simp [checkExpr, checkExprs, arrayTy]⟩
  | .array info (first :: rest), _, .array firstTyped restTyped => by
      have firstChecked := checkExpr_of_hasTy firstTyped
      have restChecked := checkExprs_of_haveTys restTyped
      simp only [checkExpr, checkExprs, Reported.value_bind, Reported.value_pure,
        Reported.lacks_bind, Reported.lacks_pure, and_true, firstChecked.1, restChecked.1,
        arrayTy_replicate]
      exact ⟨trivial, firstChecked.2, restChecked.2⟩

theorem checkExprs_of_haveTys : ∀ {exprs : List Expr} {tys : List Ty},
    Expr.HaveTys model exprs tys →
    (checkExprs model exprs).value.2 = tys ∧
      (checkExprs model exprs).Lacks Problem.isTypingError
  | _, _, .nil => ⟨rfl, Reported.lacks_pure _⟩
  | _, _, .cons firstTyped restTyped => by
      have firstChecked := checkExpr_of_hasTy firstTyped
      have restChecked := checkExprs_of_haveTys restTyped
      simp only [checkExprs, Reported.value_bind, Reported.value_pure, Reported.lacks_bind,
        Reported.lacks_pure, and_true, firstChecked.1, restChecked.1]
      exact ⟨trivial, firstChecked.2, restChecked.2⟩

end

/-! ## What is accepted has a type -/

/-- A call of a function of declared types that passes is well typed. -/
private theorem accepts_of_callable {callee : NameUse} {args : List Ty}
    (callable : callee.Callable model) (known : ∀ ty ∈ args, ty ≠ .error)
    (clean : (callTy model callee args).Lacks Problem.isTypingError) :
    ∃ signature, callee.Calls signature ∧ signature.Accepts model args ∧
      (callTy model callee args).value = signature.returnTy := by
  rcases callable with ⟨signature, calls, declared⟩
  have parametersKnown : ∀ ty ∈ signature.parameterTys, ty ≠ .error := by
    rintro ty member rfl
    exact declared.parameters _ member
  have accepts := accepts_of_lacks_callTy calls parametersKnown known clean
  exact ⟨signature, calls, accepts, by rw [callTy_of_accepts calls accepts]; rfl⟩

mutual

/-- A linked expression without typing errors has the type that the checker
finds. -/
theorem hasTy_of_lacks_checkExpr : ∀ (expr : Expr), expr.Linked model →
    (checkExpr model expr).Lacks Problem.isTypingError →
    expr.HasTy model (checkExpr model expr).value.2
  | .int .., _, _ => .int
  | .string .., _, _ => .string
  | .bool .., _, _ => .bool
  | .name info used, linked, _ => by
      rcases linked with ⟨binding, bound, _⟩
      have found : (checkExpr model (.name info used)).value.2 = binding.ty :=
        NameUse.boundTy_of_bound bound
      exact found ▸ .name bound
  | .binary info op left right, linked, clean => by
      simp only [checkExpr, Reported.lacks_bind] at clean
      have leftTyped := hasTy_of_lacks_checkExpr left linked.1 clean.1
      have rightTyped := hasTy_of_lacks_checkExpr right linked.2 clean.2.1
      exact .binary leftTyped rightTyped
        (operatorHasTy_of_lacks_binaryTy (linked.1.known leftTyped) (linked.2.known rightTyped)
          clean.2.2.1)
  | .call info callee args, linked, clean => by
      simp only [checkExpr, Reported.lacks_bind] at clean
      have argsTyped := haveTys_of_lacks_checkExprs args linked.2 clean.1
      rcases accepts_of_callable linked.1 (linked.2.known argsTyped) clean.2.1 with
        ⟨signature, calls, accepts, returns⟩
      have found : (checkExpr model (.call info callee args)).value.2 = signature.returnTy :=
        returns
      exact found ▸ .call calls argsTyped accepts
  | .methodCall info receiver callee args, linked, clean => by
      simp only [checkExpr, Reported.lacks_bind] at clean
      have receiverTyped := hasTy_of_lacks_checkExpr receiver linked.1 clean.1
      have argsTyped := haveTys_of_lacks_checkExprs args linked.2.1 clean.2.1
      -- The receiver has a type, so the name of the method is bound.
      have callable := (linked.2.2.linked _ (Expr.staticTy?_of_hasTy receiverTyped)).2
      rcases accepts_of_callable callable (linked.2.1.known argsTyped) clean.2.2.1 with
        ⟨signature, calls, accepts, returns⟩
      have found : (checkExpr model (.methodCall info receiver callee args)).value.2 =
          signature.returnTy := returns
      exact found ▸ .methodCall receiverTyped calls argsTyped accepts
  | .field info receiver used, linked, clean => by
      simp only [checkExpr, Reported.lacks_bind] at clean
      have receiverTyped := hasTy_of_lacks_checkExpr receiver linked.1 clean.1
      rcases (linked.2.linked _ (Expr.staticTy?_of_hasTy receiverTyped)).2 with
        ⟨binding, bound, _⟩
      have found : (checkExpr model (.field info receiver used)).value.2 = binding.ty :=
        NameUse.boundTy_of_bound bound
      exact found ▸ .field receiverTyped bound
  | .newInstance info className, linked, _ => by
      rcases linked with ⟨binding, bound, _⟩
      have found : (checkExpr model (.newInstance info className)).value.2 = binding.ty :=
        NameUse.boundTy_of_bound bound
      exact found ▸ .newInstance bound
  | .newArray info element length, linked, clean => by
      simp only [checkExpr, Reported.lacks_bind] at clean
      have lengthLinked : length.Linked model := linked
      have lengthTyped := hasTy_of_lacks_checkExpr length lengthLinked clean.1
      rw [eq_of_lacks_reportIf_differs rfl (lengthLinked.known lengthTyped) clean.2.1]
        at lengthTyped
      exact .newArray lengthTyped
  | .index info base position, linked, clean => by
      simp only [checkExpr, Reported.lacks_bind] at clean
      have baseTyped := hasTy_of_lacks_checkExpr base linked.1 clean.1
      have positionTyped := hasTy_of_lacks_checkExpr position linked.2 clean.2.1
      rw [eq_of_lacks_reportIf_differs rfl (linked.2.known positionTyped) clean.2.2.1]
        at positionTyped
      rcases array_of_lacks_elementTy (linked.1.known baseTyped) clean.2.2.2.1 with
        ⟨element, isArray⟩
      have found : (checkExpr model (.index info base position)).value.2 = element.ty := by
        simp [checkExpr, isArray, elementTy_array]
      rw [isArray] at baseTyped
      exact found ▸ .index baseTyped positionTyped
  | .array info [], _, _ => .emptyArray
  | .array info (first :: rest), linked, clean => by
      simp only [checkExpr, checkExprs, Reported.lacks_bind, Reported.value_bind,
        Reported.value_pure] at clean
      have firstTyped := hasTy_of_lacks_checkExpr first linked.1 clean.1.1
      have restTyped := haveTys_of_lacks_checkExprs rest linked.2 clean.1.2.1
      have known : ∀ ty ∈ (checkExpr model first).value.2 :: (checkExprs model rest).value.2,
          ty ≠ .error :=
        List.forall_mem_cons.mpr ⟨linked.1.known firstTyped, linked.2.known restTyped⟩
      rcases replicate_of_lacks_arrayTy known clean.2.1 with ⟨element, firstTy, restTys⟩
      have found : (checkExpr model (.array info (first :: rest))).value.2 = .array element := by
        simp only [checkExpr, checkExprs, Reported.value_bind, Reported.value_pure]
        rw [firstTy, restTys, arrayTy_replicate]
        rfl
      rw [firstTy] at firstTyped
      have length := restTyped.length_eq
      rw [restTys, ← length] at restTyped
      exact found ▸ .array firstTyped restTyped

theorem haveTys_of_lacks_checkExprs : ∀ (exprs : List Expr), Expr.LinkedList model exprs →
    (checkExprs model exprs).Lacks Problem.isTypingError →
    Expr.HaveTys model exprs (checkExprs model exprs).value.2
  | [], _, _ => .nil
  | first :: rest, linked, clean => by
      simp only [checkExprs, Reported.lacks_bind] at clean
      exact .cons (hasTy_of_lacks_checkExpr first linked.1 clean.1)
        (haveTys_of_lacks_checkExprs rest linked.2 clean.2.1)

end

end Typing

namespace Typing

/-!
## The two types of an expression

Two passes find a type for an expression.  Name resolution takes the type that
names and literals decide and seeks members in it; the checker applies the rules
to the types of the parts.  Nothing forces a type on an expression whose parts do
not fit, so the two may differ there, but then the checker has found the error
type.  Every other type that it finds is the one in which members were sought.

No rule needs the whole expression to be free of mistakes: the receiver of a
member or the index of an array may well have the error type.
-/

variable {model : SymbolModel}

/-- An operator with a known result applies to its operands. -/
theorem operatorHasTy_of_known {op : BinaryOp} {left right : Ty} {position : Position}
    (known : (binaryTy model op left right position).value ≠ .error) :
    op.HasTy model left right (binaryTy model op left right position).value := by
  unfold binaryTy at known ⊢
  split at known
  · exact absurd rfl known
  · next parts =>
      rw [if_neg parts]
      split at known
      · next ty found => exact operatorTy?_eq_some_iff.mp found
      · exact absurd rfl known

/-- A call with a known result calls a function that returns it. -/
theorem exists_calls_of_known {callee : NameUse} {args : List Ty}
    (known : (callTy model callee args).value ≠ .error) :
    ∃ signature, callee.Calls signature ∧
      (callTy model callee args).value = signature.returnTy := by
  unfold callTy at known ⊢
  split at known
  · exact absurd rfl known
  · next signature calls =>
      refine ⟨signature, calls, ?_⟩
      split at known
      · next matched => rw [if_pos matched]; rfl
      · exact absurd rfl known

/-- An element with a known type belongs to an array. -/
theorem element?_of_known {base : Ty} {position : Position}
    (known : (elementTy base position).value ≠ .error) :
    base.element? = some (elementTy base position).value := by
  unfold elementTy at known ⊢
  split at known
  · assumption
  · exact absurd rfl known

/-- An array with a known type holds elements of the type of the first one. -/
theorem arrayOf?_of_known {first : Ty} {rest : List Ty} {position : Position}
    (known : (arrayTy (first :: rest) position).value ≠ .error) :
    first ≠ .error ∧ first.arrayOf? = some (arrayTy (first :: rest) position).value := by
  simp only [arrayTy] at known ⊢
  split at known
  · exact absurd rfl known
  · next parts =>
      simp only [if_neg parts]
      refine ⟨fun same => parts (by simp [same]), ?_⟩
      split at known
      · next array isArray =>
          split at known
          · next same => rw [isArray, if_pos same]; rfl
          · exact absurd rfl known
      · exact absurd rfl known

/-- A name with a known type is bound to what has this type. -/
theorem boundTy_of_known {used : NameUse} (known : used.boundTy ≠ .error) :
    used.binding.map Binding.ty = some used.boundTy := by
  cases bound : used.binding with
  | none => exact absurd (by rw [NameUse.boundTy, bound]) known
  | some binding => rw [NameUse.boundTy_of_bound bound]; rfl

/-- An expression with a known type has it from names and literals. -/
theorem staticTy?_of_known : ∀ {expr : Expr}, (checkExpr model expr).value.2 ≠ .error →
    expr.staticTy? = some (checkExpr model expr).value.2
  | .int .., _ => rfl
  | .string .., _ => rfl
  | .bool .., _ => rfl
  | .name _ _, known => boundTy_of_known known
  | .binary _ _ _ _, known => by
      have applies := operatorHasTy_of_known known
      have parts := known_of_operatorHasTy applies
      exact Expr.staticTy?_binary (staticTy?_of_known parts.1) (staticTy?_of_known parts.2) applies
  | .call _ _ _, known => by
      obtain ⟨signature, calls, found⟩ := exists_calls_of_known known
      rw [Expr.staticTy?, calls]
      exact congrArg some found.symm
  | .methodCall _ _ _ _, known => by
      obtain ⟨signature, calls, found⟩ := exists_calls_of_known known
      rw [Expr.staticTy?, calls]
      exact congrArg some found.symm
  | .field _ _ _, known => boundTy_of_known known
  | .newInstance _ _, known => boundTy_of_known known
  | .newArray .., _ => rfl
  | .index _ base _, known => by
      have found := element?_of_known known
      have baseKnown : (checkExpr model base).value.2 ≠ .error := by
        intro unknown
        rw [unknown] at found
        cases found
      rw [Expr.staticTy?, staticTy?_of_known baseKnown]
      exact found
  | .array _ [], _ => rfl
  | .array _ (first :: _), known => by
      obtain ⟨firstKnown, found⟩ := arrayOf?_of_known known
      rw [Expr.staticTy?, Expr.staticArrayTy?, staticTy?_of_known firstKnown]
      exact found

/-- The type that names and literals decide is the one that the checker finds.
Whatever the names in an expression are bound to and whatever is declared: if the
checker finds a type other than the error type, then names and literals decide
this type. -/
theorem staticTy?_eq_some_of_checkExpr {expr : Expr} {ty : Ty}
    (checked : (checkExpr model expr).value.2 = ty) (known : ty ≠ .error) :
    expr.staticTy? = some ty := by
  subst checked
  exact staticTy?_of_known known

/-- The expression `(new int[true])[0] + read_line()`.  The length of its array is no
number. -/
def spoiledLength : Expr :=
  .binary default .plus
    (.index default (.newArray default .int (.bool default true)) (.int default 0))
    (.call default { text := "read_line", span := .nowhere } [])

/-- A mistake inside an expression is found, and both passes take the whole for a
string. -/
theorem staticTy?_spoiledLength :
    let resolved := (Resolution.resolveExpr { model := .withBuiltins } [] spoiledLength).value
    let checked := checkExpr .withBuiltins resolved
    checked.findings.map Finding.problem = [.lengthNotInt .bool, .implicitConversion] ∧
      checked.value.2 = .string ∧ Ty.string ≠ .error ∧ resolved.staticTy? = some .string := by
  intro resolved checked
  have found : checked.value.2 = .string := by decide +kernel
  exact ⟨by decide +kernel, found, nofun, staticTy?_eq_some_of_checkExpr found nofun⟩

end Typing

end KnightFront
