namespace KnightFront

/-!
# Tables of named things

A table keeps declarations in the order in which they were made and holds
each name once: a second declaration of a name is not taken up.  That names
are distinct is part of the type.  Where a table is listed for a reader, the
order is that of the names.
-/

/-- What carries its own name. -/
class Named (α : Type) where
  nameOf : α → String

/-- Named things with distinct names, in the order of declaration. -/
structure Table (α : Type) [Named α] where
  entries : List α
  distinct : (entries.map Named.nameOf).Nodup

namespace Table

variable {α : Type} [Named α]

/-- The table without entries. -/
def empty : Table α := ⟨[], List.nodup_nil⟩

instance : Inhabited (Table α) := ⟨empty⟩

/-- The entry of a name. -/
def find? (table : Table α) (name : String) : Option α :=
  table.entries.find? fun entry => Named.nameOf entry == name

/-- Whether a name has an entry. -/
def contains (table : Table α) (name : String) : Bool :=
  (table.find? name).isSome

theorem nameOf_of_find? {table : Table α} {name : String} {entry : α}
    (found : table.find? name = some entry) : Named.nameOf entry = name := by
  simpa using List.find?_some found

theorem mem_of_find? {table : Table α} {name : String} {entry : α}
    (found : table.find? name = some entry) : entry ∈ table.entries :=
  List.mem_of_find?_eq_some found

/-- A name has an entry exactly when it is the name of one. -/
theorem contains_eq_true_iff {table : Table α} {name : String} :
    table.contains name = true ↔ ∃ entry ∈ table.entries, Named.nameOf entry = name := by
  simp [contains, find?, List.find?_isSome]

/-- The table with one more entry, unless its name is taken. -/
def add (table : Table α) (entry : α) : Table α :=
  if taken : table.contains (Named.nameOf entry) = true then table
  else
    { entries := table.entries ++ [entry]
      distinct := by
        rw [List.map_append, List.nodup_append]
        refine ⟨table.distinct, by simp, ?_⟩
        intro name listed other last same
        rw [List.map_cons, List.map_nil, List.mem_singleton] at last
        subst last
        obtain ⟨earlier, member, named⟩ := List.mem_map.mp listed
        exact taken (contains_eq_true_iff.mpr ⟨earlier, member, named.trans same⟩) }

theorem add_of_contains {table : Table α} {entry : α}
    (taken : table.contains (Named.nameOf entry) = true) : table.add entry = table := by
  simp [add, taken]

theorem entries_add_of_not_contains {table : Table α} {entry : α}
    (free : table.contains (Named.nameOf entry) = false) :
    (table.add entry).entries = table.entries ++ [entry] := by
  simp [add, free]

/-- After adding, a name finds its earlier entry first and the new one only
where there was none. -/
theorem find?_add (table : Table α) (entry : α) (name : String) :
    (table.add entry).find? name =
      (table.find? name).or (if Named.nameOf entry = name then some entry else none) := by
  cases taken : table.contains (Named.nameOf entry) with
  | true =>
      rw [add_of_contains taken]
      by_cases same : Named.nameOf entry = name
      · subst same
        obtain ⟨earlier, found⟩ := Option.isSome_iff_exists.mp taken
        simp [found]
      · simp [same]
  | false =>
      unfold find?
      rw [entries_add_of_not_contains taken, List.find?_append]
      by_cases same : Named.nameOf entry = name <;> simp [same]

/-- The entries in the order of their names. -/
def sorted (table : Table α) : List α :=
  table.entries.mergeSort fun first second =>
    decide (Named.nameOf first ≤ Named.nameOf second)

end Table

end KnightFront
