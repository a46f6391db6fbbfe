import KnightFront.Proofs.Symbols.Closed
import KnightFront.Proofs.Symbols.Rearranged
import Mathlib.Data.List.Chain

namespace KnightFront

/-!
# Chains of classes

The chain of a class lists the classes that it descends from, itself first and
then from parent to parent, and none of them twice, even where the parents run in
a circle.  A member of a class is the one that the first class of the chain
declares.

Assignability follows the chains.  Chains that begin in different places of a
circle are cut in different places, but each lists the whole circle, so what a
class can be assigned to does not depend on where a walk begins: assignability is
reflexive and transitive.  Two classes that can be assigned to each other lie on
a circle, and without circles they are one.
-/

variable {records : List ClassRecord} {name lower middle upper : String}

namespace Descends

/-- A descent from a descendant is a descent. -/
theorem trans (descends : Descends records lower middle)
    (further : Descends records middle upper) : Descends records lower upper := by
  induction descends with
  | self _ => exact further
  | parent found named _ inductionHypothesis =>
      exact .parent found named (inductionHypothesis further)

end Descends

namespace SymbolModel

/-- A class inherits from itself: going on to its parent and from there to
further parents leads back to it. -/
def InheritsFromItself (model : SymbolModel) (name : String) : Prop :=
  ∃ record parent, model.class? name = some record ∧ record.parent = some parent ∧
    Descends model.classes.entries parent name

/-- The test for cycles among classes finds those that inherit from
themselves. -/
theorem hasCyclicInheritance_iff (model : SymbolModel) (name : String) :
    model.hasCyclicInheritance name = true ↔ model.InheritsFromItself name := by
  unfold hasCyclicInheritance InheritsFromItself
  cases found : model.class? name with
  | none => simp
  | some record =>
      cases named : record.parent with
      | none => simp [named]
      | some parent => simp [named, isSubclass_iff]

/-- A class that descends from another one, which descends from it, inherits from
itself. -/
theorem inheritsFromItself_of_descends {model : SymbolModel} (different : lower ≠ upper)
    (up : Descends model.classes.entries lower upper)
    (down : Descends model.classes.entries upper lower) : model.InheritsFromItself lower := by
  cases up with
  | self _ => exact absurd rfl different
  | parent found named rest => exact ⟨_, _, found, named, rest.trans down⟩

/-- A list holds the classes that a name descends from, each of them once, and
each next one is the parent of the one before. -/
structure IsChainOf (model : SymbolModel) (name : String) (chain : List ClassRecord) : Prop where
  distinct : (chain.map ClassRecord.name).Nodup
  members : ∀ record, record ∈ chain ↔
    record ∈ model.classes.entries ∧ Descends model.classes.entries name record.name
  begins : chain.head? = model.class? name
  linked : chain.IsChain fun lower upper => lower.parent = some upper.name

/-- The walk begins with the class of the name. -/
theorem head?_chainWithin (unvisited : List ClassRecord) (name : String) :
    (chainWithin unvisited name).head? =
      unvisited.find? fun record => Named.nameOf record == name := by
  cases found : unvisited.find? fun record => Named.nameOf record == name with
  | none => rw [chainWithin_of_missing found]; rfl
  | some record => rw [chainWithin_of_found found]; rfl

/-- A walk meets no class twice, as it has crossed off what it has met. -/
theorem nodup_chainWithin (unvisited : List ClassRecord) (name : String) :
    ((chainWithin unvisited name).map ClassRecord.name).Nodup := by
  fun_induction chainWithin unvisited name with
  | case1 => exact List.nodup_nil
  | case2 unvisited name record found inductionHypothesis =>
      have named : record.name = name := by simpa [Named.nameOf] using List.find?_some found
      cases hasParent : record.parent with
      | none => exact List.nodup_singleton _
      | some parent =>
          rw [List.map_cons, List.nodup_cons]
          refine ⟨fun again => ?_, inductionHypothesis parent⟩
          rcases List.mem_map.mp again with ⟨other, met, same⟩
          have left := List.of_mem_filter (mem_chainWithin _ _ met)
          simp [Named.nameOf, same, named] at left

/-- A walk goes on from a class to its parent. -/
theorem isChain_chainWithin (unvisited : List ClassRecord) (name : String) :
    (chainWithin unvisited name).IsChain fun lower upper => lower.parent = some upper.name := by
  fun_induction chainWithin unvisited name with
  | case1 => exact .nil
  | case2 unvisited name record found inductionHypothesis =>
      cases hasParent : record.parent with
      | none => exact .singleton _
      | some parent =>
          refine List.isChain_cons.mpr ⟨fun next isNext => ?_, inductionHypothesis parent⟩
          rw [Option.mem_def, head?_chainWithin] at isNext
          have named : next.name = parent := by simpa [Named.nameOf] using List.find?_some isNext
          rw [hasParent, named]

/-- A walk meets exactly the classes that its start descends from. -/
theorem mem_classChain_iff (model : SymbolModel) (name : String) (record : ClassRecord) :
    record ∈ model.classChain name ↔
      record ∈ model.classes.entries ∧ Descends model.classes.entries name record.name := by
  constructor
  · intro met
    refine ⟨mem_chainWithin _ _ met, (model.isSubclass_iff name record.name).mp ?_⟩
    exact List.any_eq_true.mpr ⟨record, met, beq_self_eq_true _⟩
  · rintro ⟨listed, descends⟩
    have met : model.isSubclass name record.name = true := (model.isSubclass_iff _ _).mpr descends
    rcases List.any_eq_true.mp met with ⟨other, inChain, same⟩
    have equal : other = record := List.inj_on_of_nodup_map model.classes.distinct
      (mem_chainWithin _ _ inChain) listed (beq_iff_eq.mp same)
    exact equal ▸ inChain

theorem isChainOf_classChain (model : SymbolModel) (name : String) :
    model.IsChainOf name (model.classChain name) where
  distinct := nodup_chainWithin _ _
  members := model.mem_classChain_iff name
  begins := head?_chainWithin _ _
  linked := isChain_chainWithin _ _

/-- What is found in a list of classes is what the first of them has that has
anything, together with that class. -/
inductive Nearest {α : Type} (member : ClassRecord → Option α) :
    List ClassRecord → Option (ClassRecord × α) → Prop where
  | missing {chain : List ClassRecord} (lack : ∀ record ∈ chain, member record = none) :
      Nearest member chain none
  | found {front back : List ClassRecord} {owner : ClassRecord} {entry : α}
      (lack : ∀ record ∈ front, member record = none) (has : member owner = some entry) :
      Nearest member (front ++ owner :: back) (some (owner, entry))

/-- A search that goes through a list in order finds what is nearest. -/
theorem nearest_findSome? {α : Type} (member : ClassRecord → Option α)
    (chain : List ClassRecord) :
    Nearest member chain
      (chain.findSome? fun owner => (member owner).map fun entry => (owner, entry)) := by
  cases result : chain.findSome? fun owner => (member owner).map fun entry => (owner, entry) with
  | none =>
      refine .missing fun record listed => ?_
      simpa using List.findSome?_eq_none_iff.mp result record listed
  | some pair =>
      rcases List.findSome?_eq_some_iff.mp result with ⟨front, owner, back, rfl, has, before⟩
      rcases Option.map_eq_some_iff.mp has with ⟨entry, isEntry, rfl⟩
      exact .found (fun record listed => by simpa using before record listed) isEntry

/-- Nothing but what a search finds is nearest. -/
theorem Nearest.findSome?_eq {α : Type} {member : ClassRecord → Option α}
    {chain : List ClassRecord} {result : Option (ClassRecord × α)}
    (nearest : Nearest member chain result) :
    (chain.findSome? fun owner => (member owner).map fun entry => (owner, entry)) = result := by
  cases nearest with
  | missing lack =>
      exact List.findSome?_eq_none_iff.mpr fun record listed => by simp [lack record listed]
  | @found front back owner entry lack has =>
      refine List.findSome?_eq_some_iff.mpr ⟨front, owner, back, rfl, by simp [has], ?_⟩
      exact fun record listed => by simp [lack record listed]

theorem nearest_findField? (model : SymbolModel) (className field : String) :
    Nearest (fun owner => owner.fields.find? field) (model.classChain className)
      (model.findField? className field) :=
  nearest_findSome? _ _

theorem nearest_findMethod? (model : SymbolModel) (className method : String) :
    Nearest (fun owner => owner.methods.find? method) (model.classChain className)
      (model.findMethod? className method) :=
  nearest_findSome? _ _

/-- Between known types, assignability is a preorder that relates classes to
those that they descend from and any other type to itself only.  Without cyclic
inheritance it is an order. -/
structure AssignsInOrder (model : SymbolModel) : Prop where
  refl : ∀ ty, model.isAssignable ty ty = true
  trans : ∀ upper middle lower, middle ≠ .error → model.isAssignable upper middle = true →
    model.isAssignable middle lower = true → model.isAssignable upper lower = true
  classes : ∀ upper lower, upper ≠ lower →
    (model.isAssignable (.named upper) (.named lower) = true ↔
      Descends model.classes.entries lower upper)
  others : ∀ expected actual, expected ≠ .error → actual ≠ .error → expected ≠ actual →
    model.isAssignable expected actual = true →
      ∃ upper lower, expected = .named upper ∧ actual = .named lower
  antisymm : (∀ name, model.hasCyclicInheritance name = false) →
    ∀ first second, first ≠ .error → second ≠ .error → model.isAssignable first second = true →
      model.isAssignable second first = true → first = second

end SymbolModel

namespace Assignable

variable {model : SymbolModel} {first second third : Ty}

/-- What may stand for something that may stand for a type may stand for it. -/
theorem trans (assignable : Assignable model first second)
    (further : Assignable model second third) : Assignable model first third := by
  cases assignable with
  | same => exact further
  | ancestor descends =>
      cases further with
      | same => exact .ancestor descends
      | ancestor below => exact .ancestor (below.trans descends)

/-- Two types that may stand for each other are the same, or else a class
inherits from itself. -/
theorem antisymm (acyclic : ∀ name, ¬ model.InheritsFromItself name)
    (assignable : Assignable model first second) (back : Assignable model second first) :
    first = second := by
  cases assignable with
  | same => rfl
  | @ancestor upper lower descends =>
      by_contra different
      have apart : lower ≠ upper := fun same => different (congrArg Ty.named same.symm)
      cases back with
      | same => exact apart rfl
      | ancestor below =>
          exact acyclic lower (SymbolModel.inheritsFromItself_of_descends apart descends below)

end Assignable

namespace SymbolModel

theorem assignsInOrder (model : SymbolModel) : model.AssignsInOrder where
  refl ty := (Assignable.same ty).isAssignable
  trans upper middle lower known first second := by
    by_cases upperKnown : upper = .error
    · subst upperKnown
      simp [isAssignable]
    · by_cases lowerKnown : lower = .error
      · subst lowerKnown
        cases upper <;> rfl
      · exact (((isAssignable_iff upperKnown known).mp first).trans
          ((isAssignable_iff known lowerKnown).mp second)).isAssignable
  classes upper lower different := by
    rw [isAssignable_iff Ty.noConfusion Ty.noConfusion]
    constructor
    · intro assignable
      cases assignable with
      | same => exact absurd rfl different
      | ancestor descends => exact descends
    · exact .ancestor
  others expected actual expectedKnown actualKnown different assignable := by
    cases (isAssignable_iff expectedKnown actualKnown).mp assignable with
    | same => exact absurd rfl different
    | @ancestor upper lower _ => exact ⟨upper, lower, rfl, rfl⟩
  antisymm acyclic first second firstKnown secondKnown assignable back := by
    refine Assignable.antisymm (fun name inherits => ?_)
      ((isAssignable_iff firstKnown secondKnown).mp assignable)
      ((isAssignable_iff secondKnown firstKnown).mp back)
    rw [← hasCyclicInheritance_iff, acyclic name] at inherits
    cases inherits

/-- Whatever parents the classes of a model name, the chain of a class lists what
it descends from, members are those of the nearest class, and assignability is a
preorder along the chains. -/
theorem chains_and_assignability (model : SymbolModel) :
    (∀ name, model.IsChainOf name (model.classChain name)) ∧
      (∀ className field, Nearest (fun owner => owner.fields.find? field)
        (model.classChain className) (model.findField? className field)) ∧
      (∀ className method, Nearest (fun owner => owner.methods.find? method)
        (model.classChain className) (model.findMethod? className method)) ∧
      model.AssignsInOrder :=
  ⟨model.isChainOf_classChain, model.nearest_findField?, model.nearest_findMethod?,
    model.assignsInOrder⟩

/-- Two classes that are the parents of each other, one below them and one below a
class that is not declared. -/
def circularClasses : SymbolModel :=
  [("Left", "Right"), ("Right", "Left"), ("Tail", "Left"), ("Lost", "Nowhere")].foldl
    (fun model names => model.addClass ⟨names.1, some names.2, .empty, .empty, .empty, .nowhere⟩)
    .empty

/-- What can be assigned goes around the circle, into which the third class leads
only. -/
theorem chains_and_assignability_circularClasses :
    circularClasses.IsChainOf "Tail" (circularClasses.classChain "Tail") ∧
      circularClasses.isAssignable (.named "Right") (.named "Tail") = true ∧
      Descends circularClasses.classes.entries "Left" "Right" ∧
      ¬ Descends circularClasses.classes.entries "Left" "Tail" ∧
      Nearest (fun owner => owner.fields.find? "size") (circularClasses.classChain "Lost")
        (circularClasses.findField? "Lost" "size") := by
  rcases chains_and_assignability circularClasses with ⟨chains, fields, -, inOrder⟩
  have up : circularClasses.isAssignable (.named "Right") (.named "Left") = true := by
    decide +kernel
  have into : circularClasses.isAssignable (.named "Left") (.named "Tail") = true := by
    decide +kernel
  have apart : circularClasses.isAssignable (.named "Tail") (.named "Left") = false := by
    decide +kernel
  refine ⟨chains "Tail", inOrder.trans _ _ _ Ty.noConfusion up into,
    (inOrder.classes _ _ (by decide)).mp up, fun descends => ?_, fields "Lost" "size"⟩
  rw [(inOrder.classes _ _ (by decide)).mpr descends] at apart
  cases apart

end SymbolModel

end KnightFront
