import KnightFront.Symbols.Hierarchy

namespace KnightFront

/-!
# Descent among classes

A class descends from another if following parents from it arrives there.
The relation speaks of single steps from a declared class to the parent that
it names.  The walk in `chainWithin` crosses off what it has visited; since
a class has at most one parent, what lies behind a class that is met again
has been met before, and nothing is lost.
-/

variable {records : List ClassRecord} {name lower upper : String}

/-- Following parents among declared classes leads from one name to another,
in any number of steps.  Both must be declared. -/
inductive Descends (records : List ClassRecord) : String → String → Prop where
  | self {name : String} {record : ClassRecord}
      (found : records.find? (fun other => Named.nameOf other == name) = some record) :
      Descends records name name
  | parent {lower next upper : String} {record : ClassRecord}
      (found : records.find? (fun other => Named.nameOf other == lower) = some record)
      (named : record.parent = some next) (rest : Descends records next upper) :
      Descends records lower upper

/-- Crossing off a name hides it and nothing else. -/
theorem find?_crossOff {α : Type} [Named α] (entries : List α) (hidden name : String) :
    (crossOff entries hidden).find? (fun other => Named.nameOf other == name) =
      if name = hidden then none
      else entries.find? fun other => Named.nameOf other == name := by
  rw [crossOff, List.find?_filter]
  by_cases same : name = hidden
  · subst same
    rw [if_pos rfl, List.find?_eq_none]
    intro entry _
    simp
  · rw [if_neg same]
    congr 1
    funext entry
    by_cases named : Named.nameOf entry = name
    · simp [named, same]
    · simp [named]

namespace Descends

/-- A descent begins at a declared class. -/
theorem declared (descends : Descends records lower upper) :
    ∃ record, records.find? (fun other => Named.nameOf other == lower) = some record := by
  cases descends with
  | self found => exact ⟨_, found⟩
  | parent found _ _ => exact ⟨_, found⟩

/-- A descent that meets no class of a name is one among all classes. -/
theorem of_crossOff {hidden : String} (descends : Descends (crossOff records hidden) lower upper) :
    Descends records lower upper := by
  have visible : ∀ {name : String} {record : ClassRecord},
      (crossOff records hidden).find? (fun other => Named.nameOf other == name) = some record →
      records.find? (fun other => Named.nameOf other == name) = some record := by
    intro name record found
    rw [find?_crossOff] at found
    split at found
    next => cases found
    next => exact found
  induction descends with
  | self found => exact self (visible found)
  | parent found named _ inductionHypothesis =>
      exact parent (visible found) named inductionHypothesis

/-- A descent to a class of another name avoids a class altogether, or else
its end avoids it, behind the last time that the class is met. -/
theorem avoids (descends : Descends records lower upper) {hidden : String}
    (other : upper ≠ hidden) :
    Descends (crossOff records hidden) lower upper ∨
      ∃ record next,
        records.find? (fun other => Named.nameOf other == hidden) = some record ∧
          record.parent = some next ∧ Descends (crossOff records hidden) next upper := by
  have kept : ∀ {name : String} {record : ClassRecord}, name ≠ hidden →
      records.find? (fun other => Named.nameOf other == name) = some record →
      (crossOff records hidden).find? (fun other => Named.nameOf other == name) = some record := by
    intro name record different found
    rw [find?_crossOff, if_neg different, found]
  induction descends with
  | self found => exact Or.inl (self (kept other found))
  | @parent lower next upper record found named rest inductionHypothesis =>
      rcases inductionHypothesis other with avoided | behind
      · by_cases same : lower = hidden
        · subst same
          exact Or.inr ⟨record, next, found, named, avoided⟩
        · exact Or.inl (parent (kept same found) named avoided)
      · exact Or.inr behind

end Descends

namespace SymbolModel

/-- The walk from a class meets exactly the classes that it descends from. -/
theorem any_chainWithin_iff (unvisited : List ClassRecord) (lower upper : String) :
    ((chainWithin unvisited lower).any fun record => record.name == upper) = true ↔
      Descends unvisited lower upper := by
  fun_induction chainWithin unvisited lower with
  | case1 unvisited name missing =>
      simp only [List.any_nil, Bool.false_eq_true, false_iff]
      intro descends
      rcases descends.declared with ⟨record, found⟩
      rw [missing] at found
      cases found
  | case2 unvisited name record found inductionHypothesis =>
      have named : record.name = name := by simpa [Named.nameOf] using List.find?_some found
      rw [List.any_cons, Bool.or_eq_true, beq_iff_eq, named]
      constructor
      · rintro (same | behind)
        · subst same
          exact .self found
        · cases hasParent : record.parent with
          | none => simp [hasParent] at behind
          | some parent =>
              rw [hasParent] at behind
              exact .parent found hasParent ((inductionHypothesis parent).mp behind).of_crossOff
      · intro descends
        by_cases same : name = upper
        · exact Or.inl same
        · right
          rcases descends.avoids (Ne.symm same) with impossible | ⟨again, next, present, rest⟩
          · rcases impossible.declared with ⟨hidden, present⟩
            rw [find?_crossOff, if_pos rfl] at present
            cases present
          · rw [found] at present
            cases present
            rw [rest.1]
            exact (inductionHypothesis next).mpr rest.2

/-- One class is another or has it among its ancestors exactly when it
descends from it. -/
theorem isSubclass_iff (model : SymbolModel) (lower upper : String) :
    model.isSubclass lower upper = true ↔ Descends model.classes.entries lower upper :=
  any_chainWithin_iff model.classes.entries lower upper

end SymbolModel

/-- A value of the second type may stand where the first is required: the
types are the same, or the first is a class that the second descends from. -/
inductive Assignable (model : SymbolModel) : Ty → Ty → Prop where
  | same (ty : Ty) : Assignable model ty ty
  | ancestor {upper lower : String} (descends : Descends model.classes.entries lower upper) :
      Assignable model (.named upper) (.named lower)

/-- What may stand in a place is never refused there. -/
theorem Assignable.isAssignable {model : SymbolModel} {expected actual : Ty}
    (assignable : Assignable model expected actual) :
    model.isAssignable expected actual = true := by
  cases assignable with
  | same => cases expected <;> simp [SymbolModel.isAssignable]
  | ancestor descends =>
      simp [SymbolModel.isAssignable, (model.isSubclass_iff _ _).mpr descends]

/-- Between types that are known, what is not refused may stand in a place. -/
theorem SymbolModel.isAssignable_iff {model : SymbolModel} {expected actual : Ty}
    (expectedKnown : expected ≠ .error) (actualKnown : actual ≠ .error) :
    model.isAssignable expected actual = true ↔ Assignable model expected actual := by
  refine ⟨fun accepted => ?_, Assignable.isAssignable⟩
  unfold SymbolModel.isAssignable at accepted
  split at accepted
  next => exact absurd rfl expectedKnown
  next => exact absurd rfl actualKnown
  next upper lower =>
    rcases Bool.or_eq_true_iff.mp accepted with same | subclass
    · rw [beq_iff_eq] at same
      subst same
      exact .same _
    · exact .ancestor ((model.isSubclass_iff _ _).mp subclass)
  next =>
    rw [decide_eq_true_eq] at accepted
    subst accepted
    exact .same _

end KnightFront
