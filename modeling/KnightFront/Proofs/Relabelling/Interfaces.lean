import KnightFront.Proofs.Relabelling.Declarations
import KnightFront.Proofs.Symbols.Reached
import Mathlib.Data.List.Sort

namespace KnightFront

/-!
# Interfaces in relabelled models

A relabelling may change the order of names, and with it the order in which the
interfaces that an interface extends are followed.  Which interfaces are reached
does not depend on that order, so neither do cycles, nor whether a class keeps
the interfaces that it uses.  Where the order stays, the walks come by
corresponding interfaces one after another.
-/

variable {change : Relabelling}

namespace SymbolModel

section Walks

variable {entries others : List InterfaceRecord}
  (alike : FindsAlike change (InterfaceRecord.Alike change) entries others)

include alike

/-- What is reached is reached alike under relabelled names. -/
theorem Reaches.relabel {name : String} {target : InterfaceRecord}
    (reaches : Reaches entries name target) :
    ∃ partner, target.Alike change partner ∧ Reaches others (change.name name) partner := by
  induction reaches with
  | here found =>
      obtain ⟨partner, foundOther, holds⟩ := alike.exists_partner found
      exact ⟨partner, holds, .here foundOther⟩
  | @base name base record target found extended _ inductionHypothesis =>
      obtain ⟨partner, holds, further⟩ := inductionHypothesis
      obtain ⟨other, foundOther, records⟩ := alike.exists_partner found
      exact ⟨partner, holds, .base foundOther ((records.bases _).mpr ⟨base, extended, rfl⟩) further⟩

/-- Nothing else is reached under relabelled names. -/
theorem Reaches.of_relabel {name : String} {partner : InterfaceRecord}
    (reaches : Reaches others (change.name name) partner) :
    ∃ target, InterfaceRecord.Alike change target partner ∧ Reaches entries name target := by
  generalize renamed : change.name name = other at reaches
  induction reaches generalizing name with
  | here foundOther =>
      subst renamed
      obtain ⟨target, found, holds⟩ := alike.exists_entry foundOther
      exact ⟨target, holds, .here found⟩
  | base foundOther extended _ inductionHypothesis =>
      subst renamed
      obtain ⟨record, found, records⟩ := alike.exists_entry foundOther
      obtain ⟨base, member, same⟩ := (records.bases _).mp extended
      obtain ⟨target, holds, further⟩ := inductionHypothesis same
      exact ⟨target, holds, .base found member further⟩

/-- Walks from corresponding names pass the same test, in whatever order they
come by the interfaces. -/
theorem any_closureWithin_relabel {pending pendingOther : List String}
    (names : ∀ other, other ∈ pendingOther ↔ ∃ name ∈ pending, change.name name = other)
    {test testOther : InterfaceRecord → Bool}
    (each : ∀ record partner, InterfaceRecord.Alike change record partner →
      testOther partner = test record) :
    (closureWithin others pendingOther).any testOther = (closureWithin entries pending).any test := by
  rw [Bool.eq_iff_iff, List.any_eq_true, List.any_eq_true]
  constructor
  · rintro ⟨partner, member, passes⟩
    obtain ⟨other, isPending, reaches⟩ := mem_closureWithin_iff.mp member
    obtain ⟨name, member, rfl⟩ := (names other).mp isPending
    obtain ⟨record, holds, reaches⟩ := reaches.of_relabel alike
    exact ⟨record, mem_closureWithin_iff.mpr ⟨name, member, reaches⟩, each _ _ holds ▸ passes⟩
  · rintro ⟨record, member, passes⟩
    obtain ⟨name, isPending, reaches⟩ := mem_closureWithin_iff.mp member
    obtain ⟨partner, holds, reaches⟩ := reaches.relabel alike
    exact ⟨partner, mem_closureWithin_iff.mpr ⟨_, (names _).mpr ⟨name, isPending, rfl⟩, reaches⟩,
      (each _ _ holds).trans passes⟩

end Walks

/-- An interface comes back to itself exactly if the relabelled one does. -/
theorem hasCyclicExtension_relabel {model other : SymbolModel}
    (injective : Function.Injective change.name)
    (interfaces : FindsAlike change (InterfaceRecord.Alike change) model.interfaces.entries
      other.interfaces.entries) (name : String) :
    other.hasCyclicExtension (change.name name) = model.hasCyclicExtension name := by
  have both : Option.Rel (InterfaceRecord.Alike change) (model.interface? name)
      (other.interface? (change.name name)) := interfaces name
  unfold hasCyclicExtension
  revert both
  cases model.interface? name <;> cases other.interface? (change.name name) <;> intro both <;>
    cases both
  · rfl
  · next record partner alike =>
      refine any_closureWithin_relabel interfaces (fun base => ?_) fun reached image holds => ?_
      · simp [alike.bases]
      · rw [holds.name, Bool.eq_iff_iff, beq_iff_eq, beq_iff_eq, injective.eq_iff]

/-- An interface has a method of a name exactly if the relabelled one does. -/
theorem isSome_findInterfaceMethod?_relabel {model other : SymbolModel}
    (injective : Function.Injective change.name)
    (interfaces : FindsAlike change (InterfaceRecord.Alike change) model.interfaces.entries
      other.interfaces.entries) (name method : String) :
    (other.findInterfaceMethod? (change.name name) (change.name method)).isSome =
      (model.findInterfaceMethod? name method).isSome := by
  rw [findInterfaceMethod?, findInterfaceMethod?, List.isSome_findSome?, List.isSome_findSome?]
  refine any_closureWithin_relabel interfaces (fun base => by simp [eq_comm])
    fun record partner alike => ?_
  rw [Option.isSome_map, Option.isSome_map]
  exact Table.contains_relabel injective (fun _ _ moved => moved.name) alike.methods method

end SymbolModel

/-- Lists whose members are in the same order are sorted alike. -/
theorem forall₂_mergeSort {α β : Type} {related : α → β → Prop} {list : List α} {others : List β}
    {le : α → α → Bool} {leOther : β → β → Bool} (lists : List.Forall₂ related list others)
    (same : ∀ first second firstOther secondOther, related first firstOther →
      related second secondOther → leOther firstOther secondOther = le first second) :
    List.Forall₂ related (list.mergeSort le) (others.mergeSort leOther) := by
  obtain ⟨lengths, pairs⟩ := List.forall₂_iff_zip.mp lists
  let ordered (first second : α × β) : Bool := le first.1 second.1
  have firsts : ((list.zip others).mergeSort ordered).map Prod.fst = list.mergeSort le := by
    rw [List.map_mergeSort (s := le) fun _ _ _ _ => rfl, List.map_fst_zip (Nat.le_of_eq lengths)]
  have seconds : ((list.zip others).mergeSort ordered).map Prod.snd = others.mergeSort leOther := by
    rw [List.map_mergeSort (s := leOther) fun first member second member' =>
      (same _ _ _ _ (pairs member) (pairs member')).symm, List.map_snd_zip (Nat.le_of_eq lengths.symm)]
  rw [← firsts, ← seconds]
  apply List.forall₂_map_left_iff.mpr
  apply List.forall₂_map_right_iff.mpr
  apply List.forall₂_same.mpr
  intro pair member
  exact pairs (List.mem_mergeSort.mp member)

/-- Corresponding members of lists are kept or dropped together. -/
theorem forall₂_filter {α β : Type} {related : α → β → Prop} {list : List α} {others : List β}
    {test : α → Bool} {testOther : β → Bool} (lists : List.Forall₂ related list others)
    (same : ∀ member partner, related member partner → testOther partner = test member) :
    List.Forall₂ related (list.filter test) (others.filter testOther) := by
  induction lists with
  | nil => exact .nil
  | cons head _ inductionHypothesis =>
      rw [List.filter_cons, List.filter_cons, same _ _ head]
      split
      · exact .cons head inductionHypothesis
      · exact inductionHypothesis

/-- Corresponding entries whose names stay are sorted alike. -/
theorem Table.forall₂_sorted {α : Type} [Named α] {related : α → α → Prop} {table other : Table α}
    (entries : List.Forall₂ related table.entries other.entries)
    (named : ∀ entry partner, related entry partner →
      Named.nameOf partner = Named.nameOf entry) :
    List.Forall₂ related table.sorted other.sorted :=
  forall₂_mergeSort entries fun _ _ _ _ first second => by rw [named _ _ first, named _ _ second]

/-- Sets of the same names are listed alike. -/
theorem NameSet.names_eq {set other : NameSet} (same : ∀ name, name ∈ other.names ↔ name ∈ set.names) :
    other.names = set.names :=
  List.Pairwise.eq_of_mem_iff other.ascending set.ascending same

/-- An interface whose bases and methods also come in the same order. -/
structure InterfaceRecord.Ordered (change : Relabelling) (record other : InterfaceRecord) : Prop
    extends InterfaceRecord.Alike change record other where
  orderedBases : other.bases.names = record.bases.names.map change.name
  orderedMethods : List.Forall₂ (FunctionRecord.Moved change) record.methods.sorted
    other.methods.sorted

/-- Where names stay, so does the order. -/
theorem InterfaceRecord.Alike.ordered {record other : InterfaceRecord}
    (alike : record.Alike change other) (unchanged : change.name = id) :
    record.Ordered change other where
  toAlike := alike
  orderedBases := by
    rw [unchanged, List.map_id]
    exact NameSet.names_eq (by simpa [unchanged] using alike.bases)
  orderedMethods := Table.forall₂_sorted alike.methods fun _ _ moved =>
    moved.name.trans (congrFun unchanged _)

namespace SymbolModel

/-- Walks that follow corresponding interfaces in the same order meet
corresponding interfaces. -/
theorem forall₂_closureWithin (injective : Function.Injective change.name)
    {unvisited others : List InterfaceRecord}
    (alike : FindsAlike change (InterfaceRecord.Ordered change) unvisited others)
    (pending : List String) :
    List.Forall₂ (InterfaceRecord.Ordered change) (closureWithin unvisited pending)
      (closureWithin others (pending.map change.name)) := by
  fun_induction closureWithin unvisited pending generalizing others with
  | case1 =>
      rw [List.map_nil, closureWithin]
      exact .nil
  | case2 unvisited name later missing inductionHypothesis =>
      rw [List.map_cons, closureWithin_of_missing (alike.missing missing)]
      exact inductionHypothesis alike
  | case3 unvisited name later record found inductionHypothesis =>
      obtain ⟨partner, foundOther, holds⟩ := alike.exists_partner found
      have pendingOther : partner.bases.names.reverse ++ later.map change.name =
          (record.bases.names.reverse ++ later).map change.name := by
        rw [holds.orderedBases, List.map_append, List.map_reverse]
      rw [List.map_cons, closureWithin_of_found foundOther, pendingOther]
      exact .cons holds (inductionHypothesis (alike.crossOff injective name))

section Ordered

variable {model other : SymbolModel} (injective : Function.Injective change.name)
  (interfaces : FindsAlike change (InterfaceRecord.Ordered change) model.interfaces.entries
    other.interfaces.entries)

include injective interfaces

theorem forall₂_interfaceClosure (name : String) :
    List.Forall₂ (InterfaceRecord.Ordered change) (model.interfaceClosure name)
      (other.interfaceClosure (change.name name)) :=
  forall₂_closureWithin injective interfaces [name]

/-- Methods of interfaces that are followed in the same order correspond. -/
theorem inheritsAlong : model.InheritsAlong change other := by
  intro name method
  refine rel_findSome? (forall₂_interfaceClosure injective interfaces name)
    fun record partner alike => ?_
  have found := findsAlike_of_forall₂ injective (fun _ _ moved => moved.name) alike.methods method
  exact rel_map found fun _ _ moved => ⟨alike.owner, moved.toAlike⟩

end Ordered

end SymbolModel

/-- Signatures of relabelled types agree when the old ones do. -/
theorem Signature.agrees_relabel (injective : Function.Injective change.name)
    {first second firstOther secondOther : Signature}
    (firsts : firstOther.relabel change.mask = first.relabel change)
    (seconds : secondOther.relabel change.mask = second.relabel change) :
    firstOther.agrees secondOther = first.agrees second := by
  have tys := Ty.relabel_injective injective
  obtain ⟨firstParameters, firstReturns⟩ := types_of_masked firsts
  obtain ⟨secondParameters, secondReturns⟩ := types_of_masked seconds
  rw [Bool.eq_iff_iff]
  calc
    firstOther.agrees secondOther = true ↔
        firstOther.returnTy = secondOther.returnTy ∧
          firstOther.parameterTys = secondOther.parameterTys := agrees_eq_true_iff
    _ ↔ first.returnTy = second.returnTy ∧ first.parameterTys = second.parameterTys := by
      rw [firstReturns, secondReturns, tys.eq_iff]
      rw [firstParameters, secondParameters, tys.list_map.eq_iff]
    _ ↔ first.agrees second = true := agrees_eq_true_iff.symm

/-- Findings of corresponding members of lists are put together. -/
theorem tally_flatMap {tally : List Finding → List Finding → Prop} [Tally tally] {α β : Type}
    {related : α → β → Prop} {list : List α} {others : List β} {find : α → List Finding}
    {findOther : β → List Finding} (lists : List.Forall₂ related list others)
    (each : ∀ member partner, related member partner → tally (find member) (findOther partner)) :
    tally (list.flatMap find) (others.flatMap findOther) := by
  induction lists with
  | nil => exact Tally.nil
  | cons head _ inductionHypothesis =>
      rw [List.flatMap_cons, List.flatMap_cons]
      exact Tally.append (each _ _ head) inductionHypothesis

namespace Typing

/-- The findings about one method that a class must have. -/
def requiredFindings (model : SymbolModel) (decl : ClassDecl) (used : NameUse)
    (interface : InterfaceRecord) (required : FunctionRecord) : List Finding :=
  match model.findMethod? decl.name required.name with
  | none => [⟨used.span.start, .missingMethod decl.name required.name interface.name⟩]
  | some (_, found) =>
      if found.signature.agrees required.signature then []
      else [⟨found.position, .mismatchedMethod decl.name required.name interface.name⟩]

theorem conformanceFindings_eq_match (model : SymbolModel) (decl : ClassDecl) :
    conformanceFindings model decl =
      match model.class? decl.name with
      | none => []
      | some record =>
          if record.position ≠ decl.span.start then []
          else
            decl.uses.flatMap fun used =>
              (model.interfaceClosure used.text).flatMap fun interface =>
                interface.methods.sorted.flatMap (requiredFindings model decl used interface) :=
  rfl

variable {model other : SymbolModel} (injective : Function.Injective change.name)
  (classes : ∀ name, Option.Rel (ClassRecord.Alike change) (model.class? name)
    (other.class? (change.name name)))

include injective classes

/-- Findings about a required method are relabelled. -/
theorem relabelled_requiredFindings (decl : ClassDecl) (used : NameUse)
    {interface image : InterfaceRecord} (alike : interface.Alike change image)
    {required judged : FunctionRecord} (moved : required.Moved change judged) :
    Relabelled change (requiredFindings model decl used interface required)
      (requiredFindings other (decl.relabel change) (used.relabel change) image judged) := by
  have found := SymbolModel.rel_findMethod? injective classes decl.name required.name
  unfold requiredFindings
  rw [show (decl.relabel change).name = change.name decl.name from rfl, moved.name]
  revert found
  cases model.findMethod? decl.name required.name <;>
    cases other.findMethod? (change.name decl.name) (change.name required.name) <;>
      intro found <;> cases found
  · simp [Relabelled, Finding.relabel, Problem.relabel, NameUse.relabel, Span.relabel, alike.name]
  · next both =>
      simp only [Signature.agrees_relabel injective both.2.signature moved.signature]
      split
      · exact Tally.nil
      · simp [Relabelled, Finding.relabel, Problem.relabel, both.2.position, alike.name]

/-- The findings about a class and its interfaces are relabelled, if places do
not fall together and the order of names stays. -/
theorem relabelled_conformanceFindings (places : Function.Injective change.start)
    (interfaces : FindsAlike change (InterfaceRecord.Ordered change) model.interfaces.entries
      other.interfaces.entries) (decl : ClassDecl) :
    Relabelled change (conformanceFindings model decl)
      (conformanceFindings other (decl.relabel change)) := by
  have both := classes decl.name
  rw [conformanceFindings_eq_match, conformanceFindings_eq_match,
    show (decl.relabel change).name = change.name decl.name from rfl]
  revert both
  cases model.class? decl.name <;> cases other.class? (change.name decl.name) <;> intro both <;>
    cases both
  · exact Tally.nil
  · next record partner alike =>
      have position : partner.position ≠ (decl.relabel change).span.start ↔
          record.position ≠ decl.span.start := by
        rw [alike.position]
        exact places.ne_iff
      simp only [position]
      split
      · exact Tally.nil
      · refine tally_flatMap (forall₂_eq_map.mpr rfl) ?_
        rintro used _ rfl
        refine tally_flatMap
          (SymbolModel.forall₂_interfaceClosure injective interfaces used.text) ?_
        intro interface image ordered
        exact tally_flatMap ordered.orderedMethods fun required judged moved =>
          relabelled_requiredFindings injective classes decl used ordered.toAlike moved

/-- Whether a class that is taken up keeps its interfaces does not depend on the
order of names. -/
theorem sameVerdict_conformanceFindings
    (interfaces : FindsAlike change (InterfaceRecord.Alike change) model.interfaces.entries
      other.interfaces.entries) {decl : ClassDecl}
    (taken : ∀ record, model.class? decl.name = some record → record.position = decl.span.start) :
    SameVerdict (conformanceFindings model decl)
      (conformanceFindings other (decl.relabel change)) := by
  have both := classes decl.name
  rw [conformanceFindings_eq_match, conformanceFindings_eq_match,
    show (decl.relabel change).name = change.name decl.name from rfl]
  revert both
  cases found : model.class? decl.name <;> cases other.class? (change.name decl.name) <;>
    intro both <;> cases both
  · exact Tally.nil
  · next record partner alike =>
      have here := taken record found
      have there : partner.position = (decl.relabel change).span.start := by
        rw [alike.position, here]
        rfl
      simp only [here, there, ne_eq, not_true_eq_false, if_false]
      refine tally_flatMap (forall₂_eq_map.mpr rfl) ?_
      rintro used _ rfl
      rw [SameVerdict, List.any_flatMap, List.any_flatMap]
      refine SymbolModel.any_closureWithin_relabel interfaces
        (fun name => by simp [NameUse.relabel, eq_comm])
        fun interface image alike => ?_
      -- The order of the methods makes no difference to whether one fails.
      have anyOrder (table : Table FunctionRecord) (test : FunctionRecord → Bool) :
          table.sorted.any test = table.entries.any test := (List.mergeSort_perm _ _).any_eq
      rw [List.any_flatMap, List.any_flatMap, anyOrder, anyOrder]
      exact any_eq_of_forall₂ alike.methods fun required judged moved =>
        (relabelled_requiredFindings injective classes decl used alike moved).sameVerdict

end Typing

end KnightFront
