import KnightFront.Proofs.Symbols.Ancestry
import Mathlib.Data.List.Perm.Basic
import Mathlib.Data.List.Nodup

namespace KnightFront

/-!
# Models that differ in order only

Tables keep the order of declaration, but nothing that is looked up in one
depends on it: a name has one entry, wherever that stands.  The walks along
parents and extended interfaces look names up and cross them off, so they come
by the same records in the same order as well.
-/

section Entries

variable {α : Type} [Named α] {entries entries' : List α}

/-- In a list without repeated names, the order does not matter to a
search. -/
theorem find?_eq_of_perm (perm : entries.Perm entries')
    (distinct : (entries.map Named.nameOf).Nodup) (name : String) :
    entries.find? (fun entry => Named.nameOf entry == name) =
      entries'.find? fun entry => Named.nameOf entry == name := by
  cases found : entries'.find? fun entry => Named.nameOf entry == name with
  | none =>
      rw [List.find?_eq_none] at found ⊢
      exact fun entry member => found entry (perm.mem_iff.mp member)
  | some entry' =>
      have member' : entry' ∈ entries := perm.mem_iff.mpr (List.mem_of_find?_eq_some found)
      have named' : Named.nameOf entry' = name := by simpa using List.find?_some found
      cases found' : entries.find? fun entry => Named.nameOf entry == name with
      | none => exact absurd (beq_iff_eq.mpr named') (List.find?_eq_none.mp found' entry' member')
      | some entry =>
          have named : Named.nameOf entry = name := by simpa using List.find?_some found'
          exact congrArg some (List.inj_on_of_nodup_map distinct
            (List.mem_of_find?_eq_some found') member' (named.trans named'.symm))

/-- Crossing off keeps names distinct. -/
theorem nodup_crossOff (distinct : (entries.map Named.nameOf).Nodup) (name : String) :
    ((crossOff entries name).map Named.nameOf).Nodup :=
  distinct.sublist (List.filter_sublist.map _)

end Entries

namespace Table

variable {α : Type} [Named α] {first second : Table α}

/-- Two tables hold the same entries, in any order. -/
def Rearranged (first second : Table α) : Prop := first.entries.Perm second.entries

theorem ext_entries (same : first.entries = second.entries) : first = second := by
  cases first
  cases second
  cases same
  rfl

/-- Something that a table holds is what its name finds. -/
theorem find?_of_mem {table : Table α} {entry : α} (member : entry ∈ table.entries) :
    table.find? (Named.nameOf entry) = some entry := by
  obtain ⟨first, found⟩ := Option.isSome_iff_exists.mp
    (contains_eq_true_iff.mpr ⟨entry, member, rfl⟩)
  rw [found, List.inj_on_of_nodup_map table.distinct (mem_of_find? found) member
    (nameOf_of_find? found)]

/-- A table of the same entries in another order. -/
theorem exists_rearranged (table : Table α) {entries : List α}
    (perm : table.entries.Perm entries) :
    ∃ other : Table α, other.entries = entries ∧ table.Rearranged other :=
  ⟨⟨entries, (perm.map _).nodup_iff.mp table.distinct⟩, rfl, perm⟩

namespace Rearranged

theorem find?_eq (rearranged : first.Rearranged second) : first.find? = second.find? :=
  funext (find?_eq_of_perm rearranged first.distinct)

theorem contains_eq (rearranged : first.Rearranged second) : first.contains = second.contains := by
  funext name
  rw [contains, contains, rearranged.find?_eq]

/-- The order of names does not depend on the order of declaration. -/
theorem sorted_eq (rearranged : first.Rearranged second) : first.sorted = second.sorted := by
  have ordered (table : Table α) : table.sorted.Pairwise fun entry entry' =>
      decide (Named.nameOf entry ≤ Named.nameOf entry') = true := by
    apply List.pairwise_mergeSort
    · simpa using fun _ _ _ => String.le_trans
    · simpa using fun entry entry' => String.le_total (Named.nameOf entry) (Named.nameOf entry')
  refine List.Perm.eq_of_pairwise ?_ (ordered first) (ordered second)
    (((List.mergeSort_perm _ _).trans rearranged).trans (List.mergeSort_perm _ _).symm)
  intro entry entry' member member' below above
  rw [sorted, List.mem_mergeSort] at member member'
  exact List.inj_on_of_nodup_map first.distinct member (rearranged.mem_iff.mpr member')
    (String.le_antisymm (of_decide_eq_true below) (of_decide_eq_true above))

end Rearranged

end Table

namespace SymbolModel

theorem chainWithin_of_missing {unvisited : List ClassRecord} {name : String}
    (missing : unvisited.find? (fun record => Named.nameOf record == name) = none) :
    chainWithin unvisited name = [] := by
  rw [chainWithin]
  split
  · rfl
  · next found => rw [missing] at found; cases found

theorem chainWithin_of_found {unvisited : List ClassRecord} {name : String} {record : ClassRecord}
    (found : unvisited.find? (fun record => Named.nameOf record == name) = some record) :
    chainWithin unvisited name =
      record :: record.parent.elim [] (chainWithin (crossOff unvisited name)) := by
  rw [chainWithin]
  split
  · next missing => rw [missing] at found; cases found
  · next other isOther =>
      rw [isOther] at found
      cases found
      cases record.parent <;> rfl

theorem closureWithin_of_missing {unvisited : List InterfaceRecord} {name : String}
    {later : List String}
    (missing : unvisited.find? (fun record => Named.nameOf record == name) = none) :
    closureWithin unvisited (name :: later) = closureWithin unvisited later := by
  rw [closureWithin]
  split
  · rfl
  · next found => rw [missing] at found; cases found

theorem closureWithin_of_found {unvisited : List InterfaceRecord} {name : String}
    {later : List String} {record : InterfaceRecord}
    (found : unvisited.find? (fun record => Named.nameOf record == name) = some record) :
    closureWithin unvisited (name :: later) =
      record :: closureWithin (crossOff unvisited name) (record.bases.names.reverse ++ later) := by
  rw [closureWithin]
  split
  · next missing => rw [missing] at found; cases found
  · next other isOther =>
      rw [isOther] at found
      cases found
      rfl

/-- The walk along parents does not depend on the order of the classes. -/
theorem chainWithin_eq_of_perm {unvisited unvisited' : List ClassRecord} {name : String}
    (perm : unvisited.Perm unvisited') (distinct : (unvisited.map Named.nameOf).Nodup) :
    chainWithin unvisited name = chainWithin unvisited' name := by
  fun_induction chainWithin unvisited name generalizing unvisited' with
  | case1 unvisited name missing =>
      rw [find?_eq_of_perm perm distinct] at missing
      exact (chainWithin_of_missing missing).symm
  | case2 unvisited name record found inductionHypothesis =>
      rw [find?_eq_of_perm perm distinct] at found
      rw [chainWithin_of_found found]
      cases record.parent with
      | none => rfl
      | some parent =>
          exact congrArg (record :: ·)
            (inductionHypothesis parent (perm.filter _) (nodup_crossOff distinct name))

/-- The walk along extended interfaces does not depend on the order of the
interfaces. -/
theorem closureWithin_eq_of_perm {unvisited unvisited' : List InterfaceRecord}
    {pending : List String} (perm : unvisited.Perm unvisited')
    (distinct : (unvisited.map Named.nameOf).Nodup) :
    closureWithin unvisited pending = closureWithin unvisited' pending := by
  fun_induction closureWithin unvisited pending generalizing unvisited' with
  | case1 unvisited => rw [closureWithin]
  | case2 unvisited name later missing inductionHypothesis =>
      rw [inductionHypothesis perm distinct]
      rw [find?_eq_of_perm perm distinct] at missing
      exact (closureWithin_of_missing missing).symm
  | case3 unvisited name later record found inductionHypothesis =>
      rw [inductionHypothesis (perm.filter _) (nodup_crossOff distinct name)]
      rw [find?_eq_of_perm perm distinct] at found
      exact (closureWithin_of_found found).symm

/-- Two models declare the same, in any order. -/
structure Rearranged (first second : SymbolModel) : Prop where
  classes : first.classes.Rearranged second.classes
  interfaces : first.interfaces.Rearranged second.interfaces
  functions : first.functions.Rearranged second.functions
  globals : first.globals.Rearranged second.globals

namespace Rearranged

variable {first second : SymbolModel} (rearranged : first.Rearranged second)

include rearranged

theorem class?_eq : first.class? = second.class? := rearranged.classes.find?_eq

theorem interface?_eq : first.interface? = second.interface? := rearranged.interfaces.find?_eq

theorem function?_eq : first.function? = second.function? := rearranged.functions.find?_eq

theorem global?_eq : first.global? = second.global? := rearranged.globals.find?_eq

theorem isTypeName_eq : first.isTypeName = second.isTypeName := by
  funext name
  rw [isTypeName, isTypeName, rearranged.classes.contains_eq, rearranged.interfaces.contains_eq]

theorem classChain_eq : first.classChain = second.classChain :=
  funext fun _ => chainWithin_eq_of_perm rearranged.classes first.classes.distinct

theorem interfaceClosure_eq : first.interfaceClosure = second.interfaceClosure :=
  funext fun _ => closureWithin_eq_of_perm rearranged.interfaces first.interfaces.distinct

theorem findMethod?_eq : first.findMethod? = second.findMethod? := by
  funext className method
  rw [findMethod?, findMethod?, rearranged.classChain_eq]

theorem findField?_eq : first.findField? = second.findField? := by
  funext className field
  rw [findField?, findField?, rearranged.classChain_eq]

theorem findInterfaceMethod?_eq : first.findInterfaceMethod? = second.findInterfaceMethod? := by
  funext interfaceName method
  rw [findInterfaceMethod?, findInterfaceMethod?, rearranged.interfaceClosure_eq]

theorem isSubclass_eq : first.isSubclass = second.isSubclass := by
  funext lower upper
  rw [isSubclass, isSubclass, rearranged.classChain_eq]

theorem isAssignable_eq : first.isAssignable = second.isAssignable := by
  funext expected actual
  unfold isAssignable
  rw [rearranged.isSubclass_eq]

theorem hasCyclicInheritance_eq : first.hasCyclicInheritance = second.hasCyclicInheritance := by
  funext name
  unfold hasCyclicInheritance
  rw [rearranged.class?_eq, rearranged.isSubclass_eq]

theorem hasCyclicExtension_eq : first.hasCyclicExtension = second.hasCyclicExtension := by
  funext name
  have closure (pending : List String) :
      closureWithin first.interfaces.entries pending =
        closureWithin second.interfaces.entries pending :=
    closureWithin_eq_of_perm rearranged.interfaces first.interfaces.distinct
  simp only [hasCyclicExtension, rearranged.interface?_eq, closure]

end Rearranged

end SymbolModel

end KnightFront
