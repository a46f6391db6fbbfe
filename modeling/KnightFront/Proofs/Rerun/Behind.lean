import KnightFront.Analysis.Resolution
import Mathlib.Data.Finset.Card

namespace KnightFront

/-!
# Scopes behind other scopes

Scopes that are put behind others keep their parents when all indices grow by
the number of scopes in front.  A search that starts among them never leaves
them, so it finds what it finds without the others.  A search stops after as
many steps as there are scopes, and no longer search finds more: scopes at
different distances from what is sought are different.
-/

/-- A scope with its parent further on. -/
def Scope.shifted (distance : Nat) (scope : Scope) : Scope :=
  { scope with parent := scope.parent.map (· + distance) }

namespace Scopes

section Searches

variable {scopes : List Scope} {name : String} {found : Variable × ScopeKind}

/-- A longer search finds what a shorter one has found. -/
theorem lookupWithin_mono {steps more : Nat} {identity : ScopeId} (le : steps ≤ more)
    (finds : lookupWithin scopes name steps identity = some found) :
    lookupWithin scopes name more identity = some found := by
  induction steps generalizing more identity with
  | zero => cases finds
  | succ steps inductionHypothesis =>
      cases more with
      | zero => cases Nat.not_succ_le_zero _ le
      | succ more =>
          rw [lookupWithin] at finds ⊢
          cases present : scopes[identity]? with
          | none => simp [present] at finds
          | some scope =>
              cases declared : scope.entries.find? name with
              | some entity => simpa [present, declared] using finds
              | none =>
                  simp only [present, declared, Option.bind_eq_some_iff] at finds ⊢
                  rcases finds with ⟨parent, isParent, finds⟩
                  exact ⟨parent, isParent, inductionHypothesis (Nat.le_of_succ_le_succ le) finds⟩

/-- Where a scope does not declare a name, its parent is asked. -/
theorem lookupWithin_of_parent {identity parent : ScopeId} {scope : Scope}
    (present : scopes[identity]? = some scope) (missing : scope.entries.find? name = none)
    (isParent : scope.parent = some parent) (steps : Nat) :
    lookupWithin scopes name (steps + 1) identity = lookupWithin scopes name steps parent := by
  simp [lookupWithin, present, missing, isParent]

/-- A search from a scope needs this many steps to the scopes behind it. -/
def IsDistance (scopes : List Scope) (name : String) (steps : Nat) (identity : ScopeId) : Prop :=
  lookupWithin scopes name steps identity = none ∧
    ∃ found, lookupWithin scopes name (steps + 1) identity = some found

theorem IsDistance.unique {steps other : Nat} {identity : ScopeId}
    (distance : IsDistance scopes name steps identity)
    (distance' : IsDistance scopes name other identity) : steps = other := by
  have notLess {first second : Nat} (far : IsDistance scopes name first identity)
      (near : IsDistance scopes name second identity) : ¬ second < first := by
    intro less
    rcases near.2 with ⟨found, finds⟩
    cases far.1.symm.trans (lookupWithin_mono less finds)
  have notBelow := notLess distance distance'
  have notAbove := notLess distance' distance
  omega

/-- On the way to what is sought every smaller distance occurs. -/
theorem IsDistance.exists_nearer {steps : Nat} {identity : ScopeId}
    (distance : IsDistance scopes name steps identity) :
    ∀ nearer ≤ steps, ∃ between < scopes.length, IsDistance scopes name nearer between := by
  induction steps generalizing identity with
  | zero =>
      intro nearer le
      obtain rfl := Nat.le_zero.mp le
      refine ⟨identity, ?_, distance⟩
      rcases distance.2 with ⟨found, finds⟩
      rw [lookupWithin] at finds
      cases present : scopes[identity]? with
      | none => simp [present] at finds
      | some scope => exact (List.getElem?_eq_some_iff.mp present).1
  | succ steps inductionHypothesis =>
      intro nearer le
      rcases distance with ⟨missing, found, finds⟩
      rw [lookupWithin] at missing finds
      cases present : scopes[identity]? with
      | none => simp [present] at finds
      | some scope =>
          cases declared : scope.entries.find? name with
          | some entity => simp [present, declared] at missing
          | none =>
              simp only [present, declared, Option.bind_eq_some_iff] at missing finds
              rcases finds with ⟨parent, isParent, finds⟩
              rw [isParent, Option.bind_some] at missing
              rcases Nat.lt_or_ge nearer (steps + 1) with less | ge
              · exact inductionHypothesis ⟨missing, found, finds⟩ nearer (Nat.le_of_lt_succ less)
              · obtain rfl := Nat.le_antisymm le ge
                have asked := lookupWithin_of_parent present declared isParent
                exact ⟨identity, (List.getElem?_eq_some_iff.mp present).1,
                  (asked steps).trans missing, found, (asked (steps + 1)).trans finds⟩

/-- What is sought is nearer than there are scopes. -/
theorem IsDistance.lt_length {steps : Nat} {identity : ScopeId}
    (distance : IsDistance scopes name steps identity) : steps < scopes.length := by
  -- Every smaller distance is that of some scope, and no scope has two distances.
  choose! between inside distances using distance.exists_nearer
  have apart : Set.InjOn between (Finset.range (steps + 1)) := by
    intro first isFirst second isSecond same
    rw [Finset.coe_range, Set.mem_Iio] at isFirst isSecond
    have far := distances first (Nat.le_of_lt_succ isFirst)
    rw [same] at far
    exact far.unique (distances second (Nat.le_of_lt_succ isSecond))
  have within : ∀ nearer ∈ Finset.range (steps + 1),
      between nearer ∈ Finset.range scopes.length := fun nearer member =>
    Finset.mem_range.mpr (inside nearer (Nat.le_of_lt_succ (Finset.mem_range.mp member)))
  have counted := Finset.card_le_card_of_injOn between within apart
  rwa [Finset.card_range, Finset.card_range] at counted

/-- A search with more steps than there are scopes finds no more. -/
theorem lookupWithin_eq_lookup {steps : Nat} (enough : scopes.length ≤ steps)
    (identity : ScopeId) : lookupWithin scopes name steps identity = lookup scopes identity name := by
  induction steps, enough using Nat.le_induction with
  | base => rfl
  | succ steps enough inductionHypothesis =>
      rw [← inductionHypothesis]
      cases shorter : lookupWithin scopes name steps identity with
      | some found => exact lookupWithin_mono (Nat.le_succ steps) shorter
      | none =>
          cases longer : lookupWithin scopes name (steps + 1) identity with
          | none => rfl
          | some found =>
              have inside := IsDistance.lt_length ⟨shorter, found, longer⟩
              exact absurd enough (Nat.not_le_of_lt inside)

end Searches

/-- Scopes behind others. -/
def behind (front scopes : List Scope) : List Scope :=
  front ++ scopes.map (Scope.shifted front.length)

variable (front scopes : List Scope)

@[simp]
theorem behind_nil : behind front [] = front := List.append_nil front

@[simp]
theorem nil_behind : behind [] scopes = scopes := by
  have still : Scope.shifted 0 = id := by
    funext scope
    simp [Scope.shifted]
  simp [behind, still]

@[simp]
theorem length_behind : (behind front scopes).length = scopes.length + front.length := by
  simp [behind, Nat.add_comm]

/-- Opening a scope behind others. -/
theorem behind_opened (parent : Option ScopeId) (kind : ScopeKind) :
    behind front scopes ++ [.opened (parent.map (· + front.length)) kind] =
      behind front (scopes ++ [.opened parent kind]) := by
  simp [behind, Scope.shifted, Scope.opened]

theorem getElem?_behind (identity : ScopeId) :
    (behind front scopes)[identity + front.length]? =
      scopes[identity]?.map (Scope.shifted front.length) := by
  calc
    (behind front scopes)[identity + front.length]? =
        (scopes.map (Scope.shifted front.length))[identity + front.length - front.length]? :=
      List.getElem?_append_right (Nat.le_add_left _ _)
    _ = (scopes.map (Scope.shifted front.length))[identity]? := by rw [Nat.add_sub_cancel]
    _ = scopes[identity]?.map (Scope.shifted front.length) := List.getElem?_map

theorem lookupWithin_behind (name : String) (steps : Nat) (identity : ScopeId) :
    lookupWithin (behind front scopes) name steps (identity + front.length) =
      lookupWithin scopes name steps identity := by
  induction steps generalizing identity with
  | zero => rfl
  | succ steps inductionHypothesis =>
      rw [lookupWithin, lookupWithin, getElem?_behind]
      cases scopes[identity]? with
      | none => rfl
      | some scope =>
          simp only [Option.map_some, Scope.shifted]
          cases scope.entries.find? name with
          | some entity => rfl
          | none => cases scope.parent <;> simp [inductionHypothesis]

/-- A search among scopes that are behind others finds what it finds without
them. -/
@[simp]
theorem lookup_behind (identity : ScopeId) (name : String) :
    lookup (behind front scopes) (identity + front.length) name = lookup scopes identity name := by
  calc
    lookup (behind front scopes) (identity + front.length) name =
        lookupWithin scopes name (behind front scopes).length identity := by
      rw [lookup, lookupWithin_behind]
    _ = lookupWithin scopes name (scopes.length + front.length) identity := by
      rw [length_behind]
    _ = lookup scopes identity name :=
      lookupWithin_eq_lookup (Nat.le_add_right scopes.length front.length) identity

@[simp]
theorem declares_behind (identity : ScopeId) (name : String) :
    declares (behind front scopes) (identity + front.length) name =
      declares scopes identity name := by
  rw [declares, declares, getElem?_behind]
  cases scopes[identity]? <;> rfl

@[simp]
theorem declare_behind (identity : ScopeId) (entity : Variable) :
    declare (behind front scopes) (identity + front.length) entity =
      behind front (declare scopes identity entity) := by
  refine List.ext_getElem? fun index => ?_
  rw [declare, List.getElem?_modify]
  rcases Nat.lt_or_ge index front.length with inside | outside
  · have other : identity + front.length ≠ index :=
      Nat.ne_of_gt (Nat.lt_of_lt_of_le inside (Nat.le_add_left _ _))
    simp [behind, List.getElem?_append_left inside, other]
  · obtain ⟨position, rfl⟩ := Nat.exists_eq_add_of_le' outside
    rw [getElem?_behind, getElem?_behind, declare, List.getElem?_modify]
    by_cases same : identity = position
    · subst same
      cases scopes[identity]? <;> simp [Scope.shifted, Scope.declare]
    · simp [same]

end Scopes

end KnightFront
