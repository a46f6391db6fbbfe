namespace KnightFront

/-!
# Sets of names

The interfaces that a class uses, or that an interface extends, form a set:
writing a name twice changes nothing.  A set is kept in ascending order.
-/

/-- A finite set of names, listed in ascending order. -/
structure NameSet where
  names : List String
  ascending : names.Pairwise (· < ·)

namespace NameSet

/-- The set without names. -/
def empty : NameSet := ⟨[], List.Pairwise.nil⟩

instance : Inhabited NameSet := ⟨empty⟩

/-- Put a name at its place in an ascending list that may already hold it. -/
def place (name : String) : List String → List String
  | [] => [name]
  | first :: rest =>
      if name < first then name :: first :: rest
      else if name = first then first :: rest
      else first :: place name rest

theorem mem_place {name other : String} {names : List String} :
    other ∈ place name names ↔ other = name ∨ other ∈ names := by
  induction names with
  | nil => simp [place]
  | cons first rest inductionHypothesis =>
      by_cases before : name < first
      · simp [place, before]
      · by_cases same : name = first
        · subst same
          rw [place, if_neg before, if_pos rfl, List.mem_cons]
          exact ⟨Or.inr, fun either => either.elim Or.inl id⟩
        · simp only [place, before, same, if_false, List.mem_cons, inductionHypothesis]
          constructor
          · rintro (equal | equal | member)
            · exact Or.inr (Or.inl equal)
            · exact Or.inl equal
            · exact Or.inr (Or.inr member)
          · rintro (equal | equal | member)
            · exact Or.inr (Or.inl equal)
            · exact Or.inl equal
            · exact Or.inr (Or.inr member)

private theorem lt_of_neither_lt_nor_eq {first second : String} (notLess : ¬ first < second)
    (different : first ≠ second) : second < first := by
  by_cases less : second < first
  · exact less
  · exact absurd (String.le_antisymm (String.not_lt.mp less) (String.not_lt.mp notLess)) different

theorem pairwise_place {name : String} {names : List String} (ascending : names.Pairwise (· < ·)) :
    (place name names).Pairwise (· < ·) := by
  induction names with
  | nil => simp [place]
  | cons first rest inductionHypothesis =>
      have ordered := List.pairwise_cons.mp ascending
      by_cases before : name < first
      · simp only [place, before, if_true]
        refine List.pairwise_cons.mpr ⟨?_, ascending⟩
        intro other member
        rcases List.mem_cons.mp member with equal | behind
        · exact equal ▸ before
        · exact String.lt_trans before (ordered.1 other behind)
      · by_cases same : name = first
        · subst same
          rw [place, if_neg before, if_pos rfl]
          exact ascending
        · simp only [place, before, same, if_false]
          refine List.pairwise_cons.mpr ⟨?_, inductionHypothesis ordered.2⟩
          intro other member
          rcases mem_place.mp member with equal | behind
          · exact equal ▸ lt_of_neither_lt_nor_eq before same
          · exact ordered.1 other behind

/-- The set with one more name. -/
def insert (set : NameSet) (name : String) : NameSet :=
  ⟨place name set.names, pairwise_place set.ascending⟩

/-- The set of the names in a list. -/
def ofList (names : List String) : NameSet :=
  names.foldl insert empty

theorem mem_insert {set : NameSet} {name other : String} :
    other ∈ (set.insert name).names ↔ other = name ∨ other ∈ set.names :=
  mem_place

private theorem mem_foldl_insert {set : NameSet} {name : String} {names : List String} :
    name ∈ (names.foldl insert set).names ↔ name ∈ set.names ∨ name ∈ names := by
  induction names generalizing set with
  | nil => simp
  | cons first rest inductionHypothesis =>
      rw [List.foldl_cons, inductionHypothesis, mem_insert, List.mem_cons]
      constructor
      · rintro ((equal | member) | member)
        · exact Or.inr (Or.inl equal)
        · exact Or.inl member
        · exact Or.inr (Or.inr member)
      · rintro (member | equal | member)
        · exact Or.inl (Or.inr member)
        · exact Or.inl (Or.inl equal)
        · exact Or.inr member

theorem mem_ofList {name : String} {names : List String} :
    name ∈ (ofList names).names ↔ name ∈ names := by
  simp [ofList, mem_foldl_insert, empty]

end NameSet

end KnightFront
