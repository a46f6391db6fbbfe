import KnightFront.Proofs.Relabelling.Typing
import KnightFront.Proofs.Symbols.Rearranged
import Mathlib.Data.List.Forall2

namespace KnightFront

/-!
# Relabelled models

What is declared under a name in one model is declared under the relabelled name
in another, with relabelled types and places.  Walks along parents then come by
corresponding classes, so every lookup on behalf of a class finds corresponding
members.  Which method of an interface is found depends on the order in which
extended interfaces are followed, which is the order of their names; that the
methods found correspond is part of the relation.
-/

variable {change : Relabelling}

/-- A function with the relabelled name and signature of another one. -/
structure FunctionRecord.Alike (change : Relabelling) (record other : FunctionRecord) : Prop where
  name : other.name = change.name record.name
  signature : other.signature.relabel change.mask = record.signature.relabel change

/-- Signatures that are the same behind a mask have relabelled types. -/
theorem Signature.types_of_masked {signature other : Signature}
    (masked : other.relabel change.mask = signature.relabel change) :
    other.parameterTys = signature.parameterTys.map (Ty.relabel change) ∧
      other.returnTy = signature.returnTy.relabel change := by
  have parameters := congrArg parameterTys masked
  have returns := congrArg returnTy masked
  simp only [parameterTys_relabel, Ty.relabel_mask, List.map_id] at parameters
  simp only [relabel, Ty.relabel_mask] at returns
  exact ⟨parameters, returns⟩

/-- A function that also stands where the other one has been moved. -/
structure FunctionRecord.Moved (change : Relabelling) (record other : FunctionRecord) : Prop
    extends FunctionRecord.Alike change record other where
  position : other.position = change.start record.position

/-- A class with the relabelled name, parent and members of another one. -/
structure ClassRecord.Alike (change : Relabelling) (record other : ClassRecord) : Prop where
  name : other.name = change.name record.name
  /-- As the owner of members it cannot be told from the other one. -/
  owner : change.hidden other.name = change.hidden record.name
  parent : other.parent = record.parent.map change.name
  fields : other.fields.entries = record.fields.entries.map (Variable.relabel change)
  methods : List.Forall₂ (FunctionRecord.Moved change) record.methods.entries other.methods.entries
  position : other.position = change.start record.position

/-- Related options are both there or both missing. -/
theorem isSome_eq_of_rel {α β : Type} {related : α → β → Prop} {first : Option α}
    {second : Option β} (rel : Option.Rel related first second) : second.isSome = first.isSome := by
  cases rel <;> rfl

theorem rel_imp {α β : Type} {related weaker : α → β → Prop} {first : Option α} {second : Option β}
    (rel : Option.Rel related first second)
    (implies : ∀ value other, related value other → weaker value other) :
    Option.Rel weaker first second := by
  cases rel with
  | none => exact .none
  | some holds => exact .some (implies _ _ holds)

section Entries

variable {α : Type} [Named α] {related : α → α → Prop} {entries others : List α}

/-- What a name finds in one list corresponds to what the relabelled name finds
in another. -/
def FindsAlike (change : Relabelling) (related : α → α → Prop) (entries others : List α) : Prop :=
  ∀ name, Option.Rel related (entries.find? fun entry => Named.nameOf entry == name)
    (others.find? fun entry => Named.nameOf entry == change.name name)

theorem FindsAlike.imp {weaker : α → α → Prop} (alike : FindsAlike change related entries others)
    (implies : ∀ entry other, related entry other → weaker entry other) :
    FindsAlike change weaker entries others :=
  fun name => rel_imp (alike name) implies

variable (injective : Function.Injective change.name)

include injective

/-- Corresponding entries of relabelled names are found alike. -/
theorem findsAlike_of_forall₂
    (named : ∀ entry other, related entry other →
      Named.nameOf other = change.name (Named.nameOf entry))
    (lists : List.Forall₂ related entries others) : FindsAlike change related entries others := by
  intro name
  induction lists with
  | nil => exact .none
  | cons head _ inductionHypothesis =>
      rw [List.find?_cons, List.find?_cons, named _ _ head]
      have same {first second : String} :
          (change.name first == change.name second) = (first == second) := by
        rw [Bool.eq_iff_iff, beq_iff_eq, beq_iff_eq, injective.eq_iff]
      rw [same]
      split
      · exact .some head
      · exact inductionHypothesis

/-- Crossing off corresponding names keeps what is found alike. -/
theorem FindsAlike.crossOff (alike : FindsAlike change related entries others) (hidden : String) :
    FindsAlike change related (crossOff entries hidden) (KnightFront.crossOff others (change.name hidden)) := by
  intro name
  rw [find?_crossOff, find?_crossOff]
  simp only [injective.eq_iff]
  split
  · exact .none
  · exact alike name

omit injective in
/-- What is found in the first list has its partner in the second. -/
theorem FindsAlike.exists_partner (alike : FindsAlike change related entries others) {name : String}
    {entry : α} (found : entries.find? (fun entry => Named.nameOf entry == name) = some entry) :
    ∃ partner, others.find? (fun entry => Named.nameOf entry == change.name name) = some partner ∧
      related entry partner := by
  have both := alike name
  rw [found] at both
  cases foundOther : others.find? fun entry => Named.nameOf entry == change.name name with
  | none => rw [foundOther] at both; cases both
  | some partner =>
      rw [foundOther] at both
      cases both with
      | some holds => exact ⟨partner, rfl, holds⟩

omit injective in
/-- What is found in the second list under a relabelled name is a partner. -/
theorem FindsAlike.exists_entry (alike : FindsAlike change related entries others) {name : String}
    {partner : α}
    (found : others.find? (fun entry => Named.nameOf entry == change.name name) = some partner) :
    ∃ entry, entries.find? (fun entry => Named.nameOf entry == name) = some entry ∧
      related entry partner := by
  have both := alike name
  rw [found] at both
  cases foundFirst : entries.find? fun entry => Named.nameOf entry == name with
  | none => rw [foundFirst] at both; cases both
  | some entry =>
      rw [foundFirst] at both
      cases both with
      | some holds => exact ⟨entry, rfl, holds⟩

omit injective in
/-- What is missing in the first list is missing in the second. -/
theorem FindsAlike.missing (alike : FindsAlike change related entries others) {name : String}
    (missing : entries.find? (fun entry => Named.nameOf entry == name) = none) :
    others.find? (fun entry => Named.nameOf entry == change.name name) = none := by
  have both := isSome_eq_of_rel (alike name)
  rw [missing] at both
  exact Option.isNone_iff_eq_none.mp (by simpa using both)

end Entries

/-- Relabelled variables are found under relabelled names. -/
theorem Table.find?_map_relabel (injective : Function.Injective change.name)
    {table other : Table Variable}
    (entries : other.entries = table.entries.map (Variable.relabel change)) (name : String) :
    other.find? (change.name name) = (table.find? name).map (Variable.relabel change) := by
  rw [find?, find?, entries, List.find?_map]
  congr 2
  funext entity
  rw [Function.comp_apply, Bool.eq_iff_iff, beq_iff_eq, beq_iff_eq]
  exact injective.eq_iff

/-- Searches in corresponding lists find what corresponds. -/
theorem rel_findSome? {α β γ δ : Type} {related : α → β → Prop} {found : γ → δ → Prop}
    {list : List α} {other : List β} {search : α → Option γ} {searchOther : β → Option δ}
    (lists : List.Forall₂ related list other)
    (each : ∀ member partner, related member partner →
      Option.Rel found (search member) (searchOther partner)) :
    Option.Rel found (list.findSome? search) (other.findSome? searchOther) := by
  induction lists with
  | nil => exact .none
  | @cons first second _ _ head _ inductionHypothesis =>
      rw [List.findSome?_cons, List.findSome?_cons]
      have rel := each _ _ head
      revert rel
      cases search first <;> cases searchOther second <;> intro rel <;> cases rel
      · exact inductionHypothesis
      · next holds => exact .some holds

/-- Corresponding members of lists pass the same test. -/
theorem any_eq_of_forall₂ {α β : Type} {related : α → β → Prop} {list : List α} {other : List β}
    {test : α → Bool} {testOther : β → Bool} (lists : List.Forall₂ related list other)
    (each : ∀ member partner, related member partner → testOther partner = test member) :
    other.any testOther = list.any test := by
  induction lists with
  | nil => rfl
  | cons head _ inductionHypothesis =>
      rw [List.any_cons, List.any_cons, inductionHypothesis, each _ _ head]

theorem rel_of_isSome_eq {α β : Type} {first : Option α} {second : Option β}
    (same : second.isSome = first.isSome) : Option.Rel (fun _ _ => True) first second := by
  cases first <;> cases second
  · exact .none
  · cases same
  · cases same
  · exact .some trivial

theorem rel_or {α β : Type} {related : α → β → Prop} {first second : Option α}
    {firstOther secondOther : Option β} (firsts : Option.Rel related first firstOther)
    (seconds : Option.Rel related second secondOther) :
    Option.Rel related (first.or second) (firstOther.or secondOther) := by
  cases firsts with
  | none => exact seconds
  | some holds => exact .some holds

theorem rel_map {α β γ δ : Type} {related : α → β → Prop} {result : γ → δ → Prop}
    {first : Option α} {second : Option β} {map : α → γ} {mapOther : β → δ}
    (options : Option.Rel related first second)
    (each : ∀ value other, related value other → result (map value) (mapOther other)) :
    Option.Rel result (first.map map) (second.map mapOther) := by
  cases options with
  | none => exact .none
  | some holds => exact .some (each _ _ holds)

namespace SymbolModel

/-- Walks along corresponding classes meet corresponding classes. -/
theorem forall₂_chainWithin (injective : Function.Injective change.name)
    {related : ClassRecord → ClassRecord → Prop}
    (parents : ∀ record other, related record other →
      other.parent = record.parent.map change.name)
    {unvisited others : List ClassRecord}
    (alike : FindsAlike change related unvisited others) (name : String) :
    List.Forall₂ related (chainWithin unvisited name)
      (chainWithin others (change.name name)) := by
  fun_induction chainWithin unvisited name generalizing others with
  | case1 unvisited name missing =>
      rw [chainWithin_of_missing (alike.missing missing)]
      exact .nil
  | case2 unvisited name record found inductionHypothesis =>
      obtain ⟨other, foundOther, holds⟩ := alike.exists_partner found
      rw [chainWithin_of_found foundOther, parents _ _ holds]
      refine .cons holds ?_
      cases record.parent with
      | none => exact .nil
      | some parent => exact inductionHypothesis parent (alike.crossOff injective name)

/-- The methods of interfaces correspond, be they declared there or in an
extended interface, and as their owners the interfaces that declare them cannot
be told apart. -/
def InheritsAlong (change : Relabelling) (model other : SymbolModel) : Prop :=
  ∀ name method, Option.Rel
    (fun found partner => change.hidden partner.1.name = change.hidden found.1.name ∧
      found.2.Alike change partner.2)
    (model.findInterfaceMethod? name method)
    (other.findInterfaceMethod? (change.name name) (change.name method))

/-- Every name declares in one model what the relabelled name declares in
another. -/
structure Alike (change : Relabelling) (model other : SymbolModel) : Prop where
  classes : ∀ name, Option.Rel (ClassRecord.Alike change) (model.class? name)
    (other.class? (change.name name))
  interfaces : ∀ name,
    other.interfaces.contains (change.name name) = model.interfaces.contains name
  interfaceMethods : model.InheritsAlong change other
  functions : ∀ name, Option.Rel (FunctionRecord.Alike change) (model.function? name)
    (other.function? (change.name name))
  globals : ∀ name,
    other.global? (change.name name) = (model.global? name).map (Variable.relabel change)

section Lookups

variable {model other : SymbolModel} (injective : Function.Injective change.name)
  (classes : ∀ name, Option.Rel (ClassRecord.Alike change) (model.class? name)
    (other.class? (change.name name)))

include injective classes

theorem forall₂_classChain (name : String) :
    List.Forall₂ (ClassRecord.Alike change) (model.classChain name)
      (other.classChain (change.name name)) :=
  forall₂_chainWithin injective (fun _ _ alike => alike.parent) classes name

/-- A field that is found corresponds to the field of the relabelled name. -/
theorem rel_findField? (className field : String) :
    Option.Rel
      (fun found partner => ClassRecord.Alike change found.1 partner.1 ∧
        partner.2 = found.2.relabel change)
      (model.findField? className field)
      (other.findField? (change.name className) (change.name field)) := by
  refine rel_findSome? (forall₂_classChain injective classes className) fun record partner alike => ?_
  rw [Table.find?_map_relabel injective alike.fields]
  cases record.fields.find? field with
  | none => exact .none
  | some entity => exact .some ⟨alike, rfl⟩

/-- A method that is found corresponds to the method of the relabelled name. -/
theorem rel_findMethod? (className method : String) :
    Option.Rel
      (fun found partner => ClassRecord.Alike change found.1 partner.1 ∧
        FunctionRecord.Moved change found.2 partner.2)
      (model.findMethod? className method)
      (other.findMethod? (change.name className) (change.name method)) := by
  refine rel_findSome? (forall₂_classChain injective classes className) fun record partner alike => ?_
  have found := findsAlike_of_forall₂ injective (fun _ _ moved => moved.name) alike.methods method
  unfold Table.find?
  revert found
  cases record.methods.entries.find? _ <;> cases partner.methods.entries.find? _ <;>
    intro found <;> cases found
  · exact .none
  · next moved => exact .some ⟨alike, moved⟩

theorem isSubclass_relabel (lower upper : String) :
    other.isSubclass (change.name lower) (change.name upper) = model.isSubclass lower upper := by
  refine any_eq_of_forall₂ (forall₂_classChain injective classes lower) fun record partner alike => ?_
  rw [Bool.eq_iff_iff]
  calc
    (partner.name == change.name upper) = true ↔ change.name record.name = change.name upper := by
      rw [alike.name, beq_iff_eq]
    _ ↔ record.name = upper := injective.eq_iff
    _ ↔ (record.name == upper) = true := beq_iff_eq.symm

theorem assignsAlike : model.AssignsAlike change other := by
  intro expected actual
  cases expected <;> cases actual <;> try rfl
  next upper lower =>
    simp only [isAssignable, Ty.relabel, isSubclass_relabel injective classes]
    congr 1
    rw [Bool.eq_iff_iff, beq_iff_eq, beq_iff_eq, injective.eq_iff]

theorem hasCyclicInheritance_relabel (name : String) :
    other.hasCyclicInheritance (change.name name) = model.hasCyclicInheritance name := by
  have both := classes name
  unfold hasCyclicInheritance
  revert both
  cases model.class? name <;> cases other.class? (change.name name) <;> intro both <;> cases both
  · rfl
  · next record partner alike =>
      simp only [Option.bind_some, alike.parent]
      cases record.parent with
      | none => rfl
      | some parent => exact isSubclass_relabel injective classes parent name

end Lookups

end SymbolModel

end KnightFront
