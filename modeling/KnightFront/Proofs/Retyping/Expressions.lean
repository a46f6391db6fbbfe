import KnightFront.Proofs.Retyping.Names

namespace KnightFront

/-!
# Expressions with an unknown type in reach

An expression that stood without error in an accepted program is resolved and
checked in reach of retyped variables.  What is reported then is that the unknown
type does not fit, and its type and the type in which members are sought behind
it have strayed.
-/

open Analysis Resolution Typing

variable {unknown : String} {kind : Finding → Bool}

/-- What can become of the type in which members are sought, if it was that of a
class or an interface. -/
def MemberStrays (unknown : String) (first second : Option Ty) : Prop :=
  ∀ owner, first = some (.named owner) →
    second = none ∨ second = some (.named owner) ∨ second = some (.named unknown)

namespace MemberStrays

variable {first second : Option Ty}

theorem refl (member : Option Ty) : MemberStrays unknown member member :=
  fun _ isNamed => .inr (.inl isNamed)

theorem toNone : MemberStrays unknown first none := fun _ _ => .inl rfl

theorem of_ne_named (value : ∀ owner, first ≠ some (.named owner)) :
    MemberStrays unknown first second :=
  fun owner isNamed => absurd isNamed (value owner)

end MemberStrays

theorem NameUse.Strays.member {used other : NameUse} (strays : used.Strays unknown other) :
    MemberStrays unknown (used.binding.map Binding.ty) (other.binding.map Binding.ty) := by
  intro owner isNamed
  cases strays with
  | @bound used binding partner retyped =>
      have ty := retyped.ty
      rw [Option.map_some, Option.some.injEq] at isNamed
      rw [isNamed] at ty
      rw [Option.map_some]
      generalize partner.ty = strayed at ty
      cases ty with
      | same => exact .inr (.inl rfl)
      | changed => exact .inr (.inr rfl)
  | lost unbound =>
      rw [unbound]
      exact .inl rfl

namespace RetypedSite

variable {place other : NamePlace} {scopes others : List Scope} {owner : String}
  {member : Option Ty} (site : RetypedSite unknown place other scopes others)
  (strays : MemberStrays unknown (some (.named owner)) member)

include site strays

/-- A method is bound as it was, or not at all. -/
theorem bindMethod_of_member (callee : NameUse) :
    bindMethod other member callee = bindMethod place (some (.named owner)) callee ∨
      bindMethod other member callee = pure callee := by
  rcases strays owner rfl with rfl | rfl | rfl
  · exact .inr rfl
  · exact .inl (site.bindMethod_eq owner callee)
  · exact .inr (site.bindMethod_unknown callee)

/-- A field is bound to the same field, but for its type, or not at all. -/
theorem strays_bindField_of_member {used : NameUse} (unbound : used.binding = none)
    (known : place.model.isTypeName owner = true)
    (clean : (bindField place (some (.named owner)) used).tally Finding.isError = 0) :
    (bindField other member used).tally kind = 0 ∧
      (bindField place (some (.named owner)) used).value.Strays unknown
        (bindField other member used).value := by
  rcases strays owner rfl with rfl | rfl | rfl
  · exact ⟨rfl, .lost unbound⟩
  · exact site.strays_bindField known clean
  · rw [site.bindField_unknown]
    exact ⟨rfl, .lost unbound⟩

end RetypedSite

/-- An expression in which nothing counts in reach of retyped variables. -/
structure Strayed (unknown : String) (kind : Finding → Bool) (place other : NamePlace)
    (scopes others : List Scope) (expr : Expr) : Prop where
  silent : (judge other others expr).tally kind = 0
  ty : (judge place scopes expr).value.Strays unknown (judge other others expr).value
  member : MemberStrays unknown (memberTy? place scopes expr) (memberTy? other others expr)

/-- Several such expressions. -/
structure StrayedAll (unknown : String) (kind : Finding → Bool) (place other : NamePlace)
    (scopes others : List Scope) (exprs : List Expr) : Prop where
  silent : (judgeAll other others exprs).tally kind = 0
  tys : List.Forall₂ (Ty.Strays unknown) (judgeAll place scopes exprs).value
    (judgeAll other others exprs).value

section Nodes

variable {place other : NamePlace} {scopes others : List Scope} {info : ExprInfo} {used : NameUse}
  {left right : Expr} {exprs : List Expr}

theorem strayed_name (site : RetypedSite unknown place other scopes others)
    (clean : (judge place scopes (.name info used)).tally Finding.isError = 0) :
    Strayed unknown kind place other scopes others (.name info used) := by
  rw [tally_judge_name] at clean
  rcases @RetypedSite.strays_bindValue _ _ _ _ _ site kind used clean with ⟨silent, strays⟩
  refine ⟨?_, ?_, strays.member⟩
  · rw [tally_judge_name]
    exact silent
  · rw [value_judge_name, value_judge_name]
    exact strays.boundTy

theorem strayed_newInstance (spares : Spares unknown kind)
    (site : RetypedSite unknown place other scopes others)
    (clean : (judge place scopes (.newInstance info used)).tally Finding.isError = 0) :
    Strayed unknown kind place other scopes others (.newInstance info used) := by
  rw [tally_judge_newInstance] at clean
  refine ⟨?_, ?_, ?_⟩
  · rw [tally_judge_newInstance, site.bindInstance_eq]
    exact spares.tally_eq_zero clean
  · rw [value_judge_newInstance, value_judge_newInstance, site.bindInstance_eq]
    exact .refl _
  · simp only [memberTy?, resolveExpr, site.bindInstance_eq]
    exact .refl _

theorem strayed_binary (spares : Spares unknown kind)
    (site : RetypedSite unknown place other scopes others) {op : BinaryOp}
    (clean : (judge place scopes (.binary info op left right)).tally Finding.isError = 0)
    (first : Strayed unknown kind place other scopes others left)
    (second : Strayed unknown kind place other scopes others right) :
    Strayed unknown kind place other scopes others (.binary info op left right) := by
  rw [tally_judge_binary] at clean
  have combined := strays_binaryTy spares first.ty second.ty (Nat.eq_zero_of_add_eq_zero_left clean)
  refine ⟨?_, ?_, .of_ne_named fun _ => memberTy?_binary_ne_named⟩
  · rw [tally_judge_binary, first.silent, second.silent,
      binaryTy_congr site.model.isAssignable_eq, combined.1]
  · rw [value_judge_binary, value_judge_binary, binaryTy_congr site.model.isAssignable_eq]
    exact combined.2

theorem strayed_call (spares : Spares unknown kind)
    (site : RetypedSite unknown place other scopes others)
    (clean : (judge place scopes (.call info used exprs)).tally Finding.isError = 0)
    (args : StrayedAll unknown kind place other scopes others exprs) :
    Strayed unknown kind place other scopes others (.call info used exprs) := by
  rw [tally_judge_call, Nat.add_eq_zero_iff, Nat.add_eq_zero_iff] at clean
  rcases clean with ⟨⟨-, bound⟩, called⟩
  have combined := strays_callTy spares args.tys called
  refine ⟨?_, ?_, ?_⟩
  · rw [tally_judge_call, args.silent, site.bindCallee_eq, spares.tally_eq_zero bound,
      callTy_congr site.model.isAssignable_eq, combined.1]
  · rw [value_judge_call, value_judge_call, site.bindCallee_eq,
      callTy_congr site.model.isAssignable_eq]
    exact combined.2
  · have sameCallee : memberTy? other others (.call info used exprs) =
        memberTy? place scopes (.call info used exprs) := by
      simp only [memberTy?, resolveExpr, Reported.value_bind, Reported.value_pure, Expr.staticTy?,
        site.bindCallee_eq]
    rw [sameCallee]
    exact .refl _

theorem strayed_methodCall (spares : Spares unknown kind)
    (site : RetypedSite unknown place other scopes others)
    (written : (Expr.methodCall info left used exprs).Written)
    (clean : (judge place scopes (.methodCall info left used exprs)).tally Finding.isError = 0)
    (receiver : Strayed unknown kind place other scopes others left)
    (args : StrayedAll unknown kind place other scopes others exprs) :
    Strayed unknown kind place other scopes others (.methodCall info left used exprs) := by
  rw [Expr.written_methodCall] at written
  rw [tally_judge_methodCall, Nat.add_eq_zero_iff, Nat.add_eq_zero_iff,
    Nat.add_eq_zero_iff] at clean
  rcases clean with ⟨⟨⟨receiverClean, -⟩, bound⟩, called⟩
  rcases site.site.exists_memberTy? written.2.1 receiverClean with ⟨ty, isTy, known⟩
  have strays := receiver.member
  rw [isTy] at bound called strays
  rcases exists_named_of_bindMethod known bound with ⟨owner, rfl, -⟩
  rcases site.bindMethod_of_member strays used with kept | lost
  · have combined := strays_callTy spares args.tys called
    refine ⟨?_, ?_, ?_⟩
    · rw [tally_judge_methodCall, receiver.silent, args.silent, kept, spares.tally_eq_zero bound,
        callTy_congr site.model.isAssignable_eq, combined.1]
    · rw [value_judge_methodCall, value_judge_methodCall, kept, isTy,
        callTy_congr site.model.isAssignable_eq]
      exact combined.2
    · rw [memberTy?_methodCall, memberTy?_methodCall, kept, isTy]
      exact .refl _
  · -- The method stays unbound, and its call has the error type.
    have untyped (args : List Ty) : callTy other.model used args = pure .error :=
      callTy_of_unbound written.1.unbound args
    refine ⟨?_, ?_, ?_⟩
    · rw [tally_judge_methodCall, receiver.silent, args.silent, lost, Reported.value_pure, untyped]
      rfl
    · have typed : (judge other others (.methodCall info left used exprs)).value = .error := by
        rw [value_judge_methodCall, lost, Reported.value_pure, untyped]
        rfl
      rw [typed]
      exact .toError _
    · have memberless : memberTy? other others (.methodCall info left used exprs) = none := by
        rw [memberTy?_methodCall, lost, Reported.value_pure, written.1.unbound]
        rfl
      rw [memberless]
      exact .toNone

theorem strayed_field (site : RetypedSite unknown place other scopes others)
    (written : (Expr.field info left used).Written)
    (clean : (judge place scopes (.field info left used)).tally Finding.isError = 0)
    (receiver : Strayed unknown kind place other scopes others left) :
    Strayed unknown kind place other scopes others (.field info left used) := by
  rw [Expr.written_field] at written
  rw [tally_judge_field, Nat.add_eq_zero_iff] at clean
  rcases site.site.exists_memberTy? written.2 clean.1 with ⟨ty, isTy, known⟩
  have bound := clean.2
  have strays := receiver.member
  rw [isTy] at bound strays
  rcases exists_named_of_bindField known bound with ⟨owner, rfl, isTypeName⟩
  rcases @RetypedSite.strays_bindField_of_member _ kind _ _ _ _ _ _ site strays _
    written.1.unbound isTypeName bound with ⟨silent, fieldStrays⟩
  refine ⟨?_, ?_, ?_⟩
  · rw [tally_judge_field, receiver.silent, silent]
  · rw [value_judge_field, value_judge_field, isTy]
    exact fieldStrays.boundTy
  · rw [memberTy?_field, memberTy?_field, isTy]
    exact fieldStrays.member

theorem strayed_newArray {element : ElementTy}
    (clean : (judge place scopes (.newArray info element left)).tally Finding.isError = 0)
    (length : Strayed unknown kind place other scopes others left) :
    Strayed unknown kind place other scopes others (.newArray info element left) := by
  rw [errors_judge_newArray, Nat.add_eq_zero_iff] at clean
  refine ⟨?_, ?_, .of_ne_named ?_⟩
  · rw [tally_judge_newArray, length.silent,
      tally_differs_of_strays length.ty (fun _ => Ty.noConfusion) clean.2]
  · rw [value_judge_newArray, value_judge_newArray]
    exact .refl _
  · simp [memberTy?, resolveExpr, Expr.staticTy?]

theorem strayed_index (spares : Spares unknown kind)
    (clean : (judge place scopes (.index info left right)).tally Finding.isError = 0)
    (base : Strayed unknown kind place other scopes others left)
    (position : Strayed unknown kind place other scopes others right) :
    Strayed unknown kind place other scopes others (.index info left right) := by
  rw [errors_judge_index, Nat.add_eq_zero_iff, Nat.add_eq_zero_iff] at clean
  have element := strays_elementTy spares base.ty clean.2
  refine ⟨?_, ?_, .of_ne_named fun _ => memberTy?_index_ne_named⟩
  · rw [tally_judge_index, base.silent, position.silent, element.1,
      tally_differs_of_strays position.ty (fun _ => Ty.noConfusion) clean.1.2]
  · rw [value_judge_index, value_judge_index]
    exact element.2

theorem strayed_array (spares : Spares unknown kind)
    (clean : (judge place scopes (.array info exprs)).tally Finding.isError = 0)
    (items : StrayedAll unknown kind place other scopes others exprs) :
    Strayed unknown kind place other scopes others (.array info exprs) := by
  rw [tally_judge_array, Nat.add_eq_zero_iff] at clean
  have array := strays_arrayTy spares items.tys clean.2
  refine ⟨?_, ?_, .of_ne_named fun _ => memberTy?_array_ne_named⟩
  · rw [tally_judge_array, items.silent, array.1]
  · rw [value_judge_array, value_judge_array]
    exact array.2

end Nodes

section Expressions

variable {place other : NamePlace} {scopes others : List Scope}

mutual

/-- In an expression that stood without error nothing counts in reach of retyped
variables. -/
theorem strayed_judge (spares : Spares unknown kind)
    (site : RetypedSite unknown place other scopes others) : ∀ expr : Expr, expr.Written →
    (judge place scopes expr).tally Finding.isError = 0 →
      Strayed unknown kind place other scopes others expr
  | .int .., _, _ | .string .., _, _ | .bool .., _, _ => ⟨rfl, .refl _, .refl _⟩
  | .name .., _, clean => strayed_name site clean
  | .binary _ _ left right, written, clean => by
      have parts := clean
      rw [tally_judge_binary, Nat.add_eq_zero_iff, Nat.add_eq_zero_iff] at parts
      rw [Expr.written_binary] at written
      exact strayed_binary spares site clean (strayed_judge spares site left written.1 parts.1.1)
        (strayed_judge spares site right written.2 parts.1.2)
  | .call _ _ args, written, clean => by
      have parts := clean
      rw [tally_judge_call, Nat.add_eq_zero_iff, Nat.add_eq_zero_iff] at parts
      rw [Expr.written_call] at written
      exact strayed_call spares site clean (strayed_judgeAll spares site args written.2 parts.1.1)
  | .methodCall _ receiver _ args, written, clean => by
      have parts := clean
      rw [tally_judge_methodCall, Nat.add_eq_zero_iff, Nat.add_eq_zero_iff,
        Nat.add_eq_zero_iff] at parts
      have writtenParts := Expr.written_methodCall.mp written
      exact strayed_methodCall spares site written clean
        (strayed_judge spares site receiver writtenParts.2.1 parts.1.1.1)
        (strayed_judgeAll spares site args writtenParts.2.2 parts.1.1.2)
  | .field _ receiver _, written, clean => by
      have parts := clean
      rw [tally_judge_field, Nat.add_eq_zero_iff] at parts
      exact strayed_field site written clean
        (strayed_judge spares site receiver (Expr.written_field.mp written).2 parts.1)
  | .newInstance .., _, clean => strayed_newInstance spares site clean
  | .newArray _ _ length, written, clean => by
      have parts := clean
      rw [errors_judge_newArray, Nat.add_eq_zero_iff] at parts
      exact strayed_newArray clean
        (strayed_judge spares site length (Expr.written_newArray.mp written) parts.1)
  | .index _ base position, written, clean => by
      have parts := clean
      rw [errors_judge_index, Nat.add_eq_zero_iff, Nat.add_eq_zero_iff, Nat.add_eq_zero_iff] at parts
      rw [Expr.written_index] at written
      exact strayed_index spares clean (strayed_judge spares site base written.1 parts.1.1.1)
        (strayed_judge spares site position written.2 parts.1.1.2)
  | .array _ items, written, clean => by
      have parts := clean
      rw [tally_judge_array, Nat.add_eq_zero_iff] at parts
      exact strayed_array spares clean
        (strayed_judgeAll spares site items (Expr.written_array.mp written) parts.1)

theorem strayed_judgeAll (spares : Spares unknown kind)
    (site : RetypedSite unknown place other scopes others) : ∀ exprs : List Expr,
    Expr.WrittenList exprs → (judgeAll place scopes exprs).tally Finding.isError = 0 →
      StrayedAll unknown kind place other scopes others exprs
  | [], _, _ => ⟨rfl, .nil⟩
  | first :: rest, written, clean => by
      rw [tally_judgeAll_cons, Nat.add_eq_zero_iff] at clean
      rw [Expr.writtenList_cons] at written
      have head := strayed_judge spares site first written.1 clean.1
      have tail := strayed_judgeAll spares site rest written.2 clean.2
      refine ⟨?_, ?_⟩
      · rw [tally_judgeAll_cons, head.silent, tail.silent]
      · rw [value_judgeAll_cons, value_judgeAll_cons]
        exact .cons head.ty tail.tys

end

end Expressions

end KnightFront
