import KnightFront.Analysis.Resolution
import KnightFront.Proofs.Relabelling.Models

namespace KnightFront

/-!
# Scopes of relabelled variables

Opening scopes, declaring variables in them and looking names up from a scope
outwards come to the same when variables and names are relabelled.
-/

variable {change : Relabelling}

/-- A scope that holds relabelled variables. -/
structure Scope.Alike (change : Relabelling) (scope other : Scope) : Prop where
  parent : other.parent = scope.parent
  kind : other.kind = scope.kind
  entries : other.entries.entries = scope.entries.entries.map (Variable.relabel change)

/-- Scopes that hold relabelled variables, and slots go on alike. -/
structure ScopeState.Alike (change : Relabelling) (state other : ScopeState) : Prop where
  scopes : List.Forall₂ (Scope.Alike change) state.scopes other.scopes
  nextSlot : other.nextSlot = state.nextSlot

/-- Corresponding lists have corresponding members at every index. -/
theorem rel_getElem? {α β : Type} {related : α → β → Prop} {list : List α} {other : List β}
    (lists : List.Forall₂ related list other) (index : Nat) :
    Option.Rel related list[index]? other[index]? := by
  induction lists generalizing index with
  | nil => exact .none
  | cons head _ inductionHypothesis =>
      cases index with
      | zero => exact .some head
      | succ index => simpa using inductionHypothesis index

/-- Changing corresponding members alike keeps lists corresponding. -/
theorem forall₂_modify {α β : Type} {related : α → β → Prop} {list : List α} {other : List β}
    {step : α → α} {stepOther : β → β} (lists : List.Forall₂ related list other)
    (each : ∀ member partner, related member partner → related (step member) (stepOther partner))
    (index : Nat) : List.Forall₂ related (list.modify index step) (other.modify index stepOther) := by
  induction lists generalizing index with
  | nil => simp
  | cons head rest inductionHypothesis =>
      cases index with
      | zero => simpa using ⟨each _ _ head, rest⟩
      | succ index => simpa using ⟨head, inductionHypothesis index⟩

namespace Scopes

variable {scopes others : List Scope} (injective : Function.Injective change.name)
  (alike : List.Forall₂ (Scope.Alike change) scopes others)

include injective alike

theorem declares_relabel (identity : ScopeId) (name : String) :
    declares others identity (change.name name) = declares scopes identity name := by
  have both := rel_getElem? alike identity
  unfold declares
  revert both
  cases scopes[identity]? <;> cases others[identity]? <;> intro both <;> cases both
  · rfl
  · next scope other holds =>
      simp [Table.contains, Table.find?_map_relabel injective holds.entries]

theorem lookupWithin_relabel (name : String) (steps : Nat) (identity : ScopeId) :
    lookupWithin others (change.name name) steps identity =
      (lookupWithin scopes name steps identity).map (Prod.map (Variable.relabel change) id) := by
  induction steps generalizing identity with
  | zero => rfl
  | succ steps inductionHypothesis =>
      have both := rel_getElem? alike identity
      unfold lookupWithin
      revert both
      cases scopes[identity]? <;> cases others[identity]? <;> intro both <;> cases both
      · rfl
      · next scope other holds =>
          simp only [Table.find?_map_relabel injective holds.entries, holds.parent, holds.kind]
          cases scope.entries.find? name with
          | some entity => rfl
          | none =>
              cases scope.parent with
              | none => rfl
              | some parent => exact inductionHypothesis parent

theorem lookup_relabel (identity : ScopeId) (name : String) :
    lookup others identity (change.name name) =
      (lookup scopes identity name).map (Prod.map (Variable.relabel change) id) := by
  calc
    lookup others identity (change.name name) =
        lookupWithin others (change.name name) scopes.length identity := by
      rw [lookup, ← alike.length_eq]
    _ = (lookup scopes identity name).map (Prod.map (Variable.relabel change) id) := by
      rw [lookupWithin_relabel injective alike, lookup]

theorem alike_declare (identity : ScopeId) (entity : Variable) :
    List.Forall₂ (Scope.Alike change) (declare scopes identity entity)
      (declare others identity (entity.relabel change)) := by
  refine forall₂_modify alike (fun scope other holds => ?_) identity
  refine ⟨holds.parent, holds.kind, ?_⟩
  have taken : other.entries.contains (change.name entity.name) =
      scope.entries.contains entity.name := by
    simp [Table.contains, Table.find?_map_relabel injective holds.entries]
  cases free : scope.entries.contains entity.name with
  | true =>
      rw [Scope.declare, Scope.declare, Table.add_of_contains free,
        Table.add_of_contains (taken.trans free)]
      exact holds.entries
  | false =>
      calc
        (other.declare (entity.relabel change)).entries.entries =
            other.entries.entries ++ [entity.relabel change] :=
          Table.entries_add_of_not_contains (taken.trans free)
        _ = (scope.entries.entries ++ [entity]).map (Variable.relabel change) := by
          rw [holds.entries, List.map_append]
          rfl
        _ = (scope.declare entity).entries.entries.map (Variable.relabel change) := by
          rw [Scope.declare, Table.entries_add_of_not_contains free]

end Scopes

end KnightFront
