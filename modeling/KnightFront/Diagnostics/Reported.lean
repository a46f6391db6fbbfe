import KnightFront.Diagnostics.Problem

namespace KnightFront

/-!
# Results with findings

A pass that meets a problem records it and goes on.  Its result is a value
together with the findings made on the way, in order; running two passes one
after the other joins their findings.
-/

/-- A value and the findings made while computing it. -/
structure Reported (α : Type) where
  value : α
  findings : List Finding

namespace Reported

instance : Monad Reported where
  pure value := ⟨value, []⟩
  bind first next :=
    let second := next first.value
    ⟨second.value, first.findings ++ second.findings⟩

@[simp]
theorem value_pure {α : Type} (value : α) : (pure value : Reported α).value = value := rfl

@[simp]
theorem findings_pure {α : Type} (value : α) : (pure value : Reported α).findings = [] := rfl

@[simp]
theorem value_bind {α β : Type} (first : Reported α) (next : α → Reported β) :
    (first >>= next).value = (next first.value).value := rfl

@[simp]
theorem findings_bind {α β : Type} (first : Reported α) (next : α → Reported β) :
    (first >>= next).findings = first.findings ++ (next first.value).findings := rfl

theorem ext {α : Type} {first second : Reported α} (sameValue : first.value = second.value)
    (sameFindings : first.findings = second.findings) : first = second := by
  cases first
  cases second
  cases sameValue
  cases sameFindings
  rfl

instance : LawfulMonad Reported :=
  LawfulMonad.mk' Reported (fun first => ext rfl (List.append_nil first.findings))
    (fun _ _ => ext rfl rfl) (fun first _ _ => ext rfl (List.append_assoc first.findings _ _))

/-- Record a problem at a position. -/
def report (position : Position) (problem : Problem) : Reported Unit :=
  ⟨(), [⟨position, problem⟩]⟩

/-- Record a problem if a condition holds. -/
def reportIf (condition : Bool) (position : Position) (problem : Problem) : Reported Unit :=
  if condition then report position problem else pure ()

end Reported

end KnightFront
