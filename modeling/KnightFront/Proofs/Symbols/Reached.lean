import KnightFront.Proofs.Symbols.Ancestry
import Mathlib.Data.List.Nodup

namespace KnightFront

/-!
# Interfaces that can be reached

An interface reaches whatever it extends, and what that extends in turn.  The
relation speaks of single steps between declared interfaces; the graph may
branch, come together again and run in circles, and it may name interfaces that
are not declared.  The walk in `closureWithin` follows a stack of pending names
and crosses off what it has visited.  What can be reached only past a visited
interface can also be reached from what that one extends, and these names are
pending already, so nothing is lost.
-/

namespace SymbolModel

/-- From a name, an interface can be reached by going from one extended interface
to the next. -/
inductive Reaches (entries : List InterfaceRecord) : String → InterfaceRecord → Prop
  | here {name : String} {record : InterfaceRecord}
      (found : entries.find? (fun entry => Named.nameOf entry == name) = some record) :
      Reaches entries name record
  | base {name base : String} {record target : InterfaceRecord}
      (found : entries.find? (fun entry => Named.nameOf entry == name) = some record)
      (extended : base ∈ record.bases.names) (further : Reaches entries base target) :
      Reaches entries name target

/-- Something is reached from the names of interfaces only. -/
theorem Reaches.exists_named {entries : List InterfaceRecord} {name : String}
    {target : InterfaceRecord} (reaches : Reaches entries name target) :
    ∃ record ∈ entries, record.name = name := by
  have declared {record : InterfaceRecord}
      (found : entries.find? (fun entry => Named.nameOf entry == name) = some record) :
      record ∈ entries ∧ Named.nameOf record = name :=
    ⟨List.mem_of_find?_eq_some found, by simpa using List.find?_some found⟩
  cases reaches with
  | here found | base found => exact ⟨_, declared found⟩

/-- What is reached past an interface that is crossed off is reached. -/
theorem Reaches.of_crossOff {entries : List InterfaceRecord} {hidden name : String}
    {target : InterfaceRecord} (reaches : Reaches (crossOff entries hidden) name target) :
    Reaches entries name target := by
  have kept {name : String} {record : InterfaceRecord}
      (found : (crossOff entries hidden).find? (fun entry => Named.nameOf entry == name) =
        some record) :
      entries.find? (fun entry => Named.nameOf entry == name) = some record := by
    rw [find?_crossOff] at found
    split at found
    · cases found
    · exact found
  induction reaches with
  | here found => exact .here (kept found)
  | base found extended _ inductionHypothesis => exact .base (kept found) extended inductionHypothesis

/-- What is reached is the crossed-off interface itself, or can be reached past
it, be it from the name or from an interface that it extends. -/
theorem Reaches.crossOff {entries : List InterfaceRecord} {hidden name : String}
    {record target : InterfaceRecord}
    (present : entries.find? (fun entry => Named.nameOf entry == hidden) = some record)
    (reaches : Reaches entries name target) :
    target = record ∨ (∃ base ∈ record.bases.names, Reaches (crossOff entries hidden) base target) ∨
      name ≠ hidden ∧ Reaches (KnightFront.crossOff entries hidden) name target := by
  have kept {name : String} (other : name ≠ hidden) :
      (KnightFront.crossOff entries hidden).find? (fun entry => Named.nameOf entry == name) =
        entries.find? fun entry => Named.nameOf entry == name := by
    rw [find?_crossOff, if_neg other]
  induction reaches with
  | @here name target found =>
      by_cases same : name = hidden
      · subst same
        exact .inl (Option.some.inj (found.symm.trans present))
      · exact .inr (.inr ⟨same, .here ((kept same).trans found)⟩)
  | @base name base first target found extended _ inductionHypothesis =>
      rcases inductionHypothesis with isRecord | below | ⟨_, past⟩
      · exact .inl isRecord
      · exact .inr (.inl below)
      · by_cases same : name = hidden
        · subst same
          cases found.symm.trans present
          exact .inr (.inl ⟨base, extended, past⟩)
        · exact .inr (.inr ⟨same, .base ((kept same).trans found) extended past⟩)

/-- A walk comes by exactly the interfaces that can be reached from the pending
names. -/
theorem mem_closureWithin_iff {unvisited : List InterfaceRecord} {pending : List String}
    {target : InterfaceRecord} :
    target ∈ closureWithin unvisited pending ↔ ∃ name ∈ pending, Reaches unvisited name target := by
  fun_induction closureWithin unvisited pending with
  | case1 => simp
  | case2 unvisited name later missing inductionHypothesis =>
      have nothing : ¬ Reaches unvisited name target := by
        intro reaches
        cases reaches with
        | here found | base found => rw [missing] at found; cases found
      simp [inductionHypothesis, nothing]
  | case3 unvisited name later record found inductionHypothesis =>
      rw [List.mem_cons, inductionHypothesis]
      constructor
      · rintro (rfl | ⟨other, member, reaches⟩)
        · exact ⟨name, List.mem_cons_self, .here found⟩
        · rcases List.mem_append.mp member with extended | pending
          · exact ⟨name, List.mem_cons_self,
              .base found (List.mem_reverse.mp extended) reaches.of_crossOff⟩
          · exact ⟨other, List.mem_cons_of_mem _ pending, reaches.of_crossOff⟩
      · rintro ⟨other, member, reaches⟩
        rcases reaches.crossOff found with isRecord | ⟨base, extended, past⟩ | ⟨unlike, past⟩
        · exact .inl isRecord
        · exact .inr ⟨base, List.mem_append_left _ (List.mem_reverse.mpr extended), past⟩
        · have behind := (List.mem_cons.mp member).resolve_left unlike
          exact .inr ⟨other, List.mem_append_right _ behind, past⟩

/-- An interface extends itself, in one step or in several. -/
def ExtendsItself (model : SymbolModel) (name : String) : Prop :=
  ∃ record base, model.interface? name = some record ∧ base ∈ record.bases.names ∧
    Reaches model.interfaces.entries base record

/-- A reached interface of a declared name is the one that is declared. -/
theorem Reaches.eq_of_name {model : SymbolModel} {start name : String}
    {record target : InterfaceRecord} (found : model.interface? name = some record)
    (reaches : Reaches model.interfaces.entries start target) (named : target.name = name) :
    target = record := by
  have listed : target ∈ model.interfaces.entries := by
    induction reaches with
    | here found => exact List.mem_of_find?_eq_some found
    | base _ _ _ inductionHypothesis => exact inductionHypothesis named
  have same : Named.nameOf target = Named.nameOf record :=
    named.trans (Table.nameOf_of_find? found).symm
  exact List.inj_on_of_nodup_map model.interfaces.distinct listed (Table.mem_of_find? found) same

/-- The test for cycles among interfaces finds those that extend themselves. -/
theorem hasCyclicExtension_iff (model : SymbolModel) (name : String) :
    model.hasCyclicExtension name = true ↔ model.ExtendsItself name := by
  unfold hasCyclicExtension ExtendsItself
  cases found : model.interface? name with
  | none => simp
  | some record =>
      simp only [List.any_eq_true, mem_closureWithin_iff, List.mem_reverse, beq_iff_eq]
      constructor
      · rintro ⟨target, ⟨base, extended, reaches⟩, named⟩
        exact ⟨record, base, rfl, extended, reaches.eq_of_name found named ▸ reaches⟩
      · rintro ⟨other, base, same, extended, reaches⟩
        cases same
        exact ⟨record, ⟨base, extended, reaches⟩, Table.nameOf_of_find? found⟩

end SymbolModel

end KnightFront
