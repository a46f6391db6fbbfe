import KnightFront.Proofs.Relabelling.Findings
import KnightFront.Proofs.Symbols.Collected

namespace KnightFront

/-!
# Models that agree on some names

A declaration changes what its own names find at the top level and nothing else.
So files that take up other names make no difference to what some names find, and
models that agree on the names that files take up still do so when these files
are collected, with the same findings.
-/

/-- The names that a declaration takes up at the top level.  An enumeration takes
up the names of its members and not its own. -/
def Item.topNames : Item → List String
  | inclusion _ => []
  | enumeration decl => decl.members.map Prod.fst
  | interface decl => [decl.name]
  | classDecl decl => [decl.name]
  | function decl => [decl.head.name]
  | globalVariable decl => [decl.name]

/-- The names that a file takes up at the top level. -/
def Program.topNames (program : Program) : List String :=
  program.items.flatMap Item.topNames

/-- Names of a kind find the same in two tables. -/
def Table.AgreesOn {α : Type} [Named α] (which : String → Prop) (table other : Table α) : Prop :=
  ∀ name, which name → other.find? name = table.find? name

/-- Names of a kind find the same in two models. -/
structure SymbolModel.AgreesOn (which : String → Prop) (model other : SymbolModel) : Prop where
  classes : model.classes.AgreesOn which other.classes
  interfaces : model.interfaces.AgreesOn which other.interfaces
  functions : model.functions.AgreesOn which other.functions
  globals : model.globals.AgreesOn which other.globals

/-- The entries of a table that have some names. -/
def Table.among {α : Type} [Named α] (names : List String) (table : Table α) : Table α where
  entries := table.entries.filter fun entry => Named.nameOf entry ∈ names
  distinct := table.distinct.sublist (List.filter_sublist.map _)

variable {which : String → Prop}

/-- Findings may be compared by being the same. -/
instance : Tally (· = ·) where
  nil := rfl
  append first second := by rw [first, second]

namespace Table.AgreesOn

variable {α : Type} [Named α] {table other : Table α}

theorem refl (table : Table α) : table.AgreesOn which table := fun _ _ => rfl

theorem trans {third : Table α} (agrees : table.AgreesOn which other)
    (further : other.AgreesOn which third) : table.AgreesOn which third :=
  fun name isSuch => (further name isSuch).trans (agrees name isSuch)

theorem contains_eq (agrees : table.AgreesOn which other) {name : String} (isSuch : which name) :
    other.contains name = table.contains name := by
  rw [contains, contains, agrees name isSuch]

/-- Tables that agree do so with one more entry. -/
theorem add (agrees : table.AgreesOn which other) (entry : α) :
    (table.add entry).AgreesOn which (other.add entry) := by
  intro name isSuch
  rw [find?_add, find?_add, agrees name isSuch]

/-- An entry of another name makes no difference. -/
theorem add_right (table : Table α) {entry : α} (apart : ¬ which (Named.nameOf entry)) :
    table.AgreesOn which (table.add entry) := by
  intro name isSuch
  have unlike : Named.nameOf entry ≠ name := fun same => apart (same ▸ isSuch)
  rw [find?_add, if_neg unlike, Option.or_none]

/-- Among some names, these find what they find in the table. -/
theorem among (names : List String) (table : Table α) :
    (table.among names).AgreesOn (· ∈ names) table := by
  intro name isSuch
  rw [find?, find?, Table.among, List.find?_filter]
  congr 1
  funext entry
  by_cases same : Named.nameOf entry = name <;> simp [same, isSuch]

/-- Among some names, other names find nothing. -/
theorem empty_among (names : List String) (table : Table α) :
    empty.AgreesOn (· ∉ names) (table.among names) := by
  intro name isOther
  rw [find?, Table.among, List.find?_filter]
  refine List.find?_eq_none.mpr fun entry _ => ?_
  by_cases same : Named.nameOf entry = name <;> simp [same, isOther]

end Table.AgreesOn

namespace SymbolModel.AgreesOn

variable {model other : SymbolModel}

theorem refl (model : SymbolModel) : model.AgreesOn which model :=
  ⟨.refl _, .refl _, .refl _, .refl _⟩

theorem trans {third : SymbolModel} (agrees : model.AgreesOn which other)
    (further : other.AgreesOn which third) : model.AgreesOn which third where
  classes := agrees.classes.trans further.classes
  interfaces := agrees.interfaces.trans further.interfaces
  functions := agrees.functions.trans further.functions
  globals := agrees.globals.trans further.globals

end SymbolModel.AgreesOn

namespace Declarations

open Reported (Alike alike_pure alike_foldlM)

variable {model other : SymbolModel}

/-- A pass finds what it finds. -/
theorem alike_refl {α : Type} (pass : Reported α) : Alike (· = ·) (· = ·) pass pass := ⟨rfl, rfl⟩

theorem alike_addEntry_of_agrees {α : Type} [Named α] {table other : Table α}
    (agrees : table.AgreesOn which other) {entry : α} (isSuch : which (Named.nameOf entry))
    (position : Position) (problem : Problem) :
    Alike (· = ·) (Table.AgreesOn which) (addEntry table entry position problem)
      (addEntry other entry position problem) := by
  unfold addEntry
  rw [agrees.contains_eq isSuch]
  exact (alike_refl _).returns (agrees.add entry)

section Steps

variable (models : model.AgreesOn which other)

include models

theorem alike_addClass_of_agrees {decl : ClassDecl} (isSuch : which decl.name) :
    Alike (· = ·) (SymbolModel.AgreesOn which) (addClass model decl) (addClass other decl) := by
  unfold addClass
  rw [models.classes.contains_eq isSuch]
  split
  · exact (alike_refl _).returns models
  · refine (alike_refl (fieldTable decl)).bind ?_
    rintro fields _ rfl
    refine (alike_refl (methodTable decl)).bind ?_
    rintro methods _ rfl
    exact alike_pure { models with classes := models.classes.add _ }

theorem alike_addInterface_of_agrees {decl : InterfaceDecl} (isSuch : which decl.name) :
    Alike (· = ·) (SymbolModel.AgreesOn which) (addInterface model decl)
      (addInterface other decl) := by
  unfold addInterface
  rw [models.interfaces.contains_eq isSuch]
  split
  · exact (alike_refl _).returns models
  · refine (alike_refl (headTable decl)).bind ?_
    rintro methods _ rfl
    exact alike_pure { models with interfaces := models.interfaces.add _ }

theorem alike_addGlobal_of_agrees {entity : Variable} (isSuch : which entity.name)
    (position : Position) (problem : Problem) :
    Alike (· = ·) (SymbolModel.AgreesOn which)
      (do return { model with globals := ← addEntry model.globals entity position problem })
      (do return { other with globals := ← addEntry other.globals entity position problem }) :=
  (alike_addEntry_of_agrees models.globals isSuch position problem).bind fun _ _ globals =>
    alike_pure { models with globals }

/-- A declaration of names on which models agree is collected alike. -/
theorem alike_addItem_of_agrees {item : Item} (such : ∀ name ∈ item.topNames, which name) :
    Alike (· = ·) (SymbolModel.AgreesOn which) (addItem model item) (addItem other item) := by
  cases item with
  | inclusion => exact alike_pure models
  | enumeration decl =>
      refine alike_foldlM (fun model other models member listed => ?_) models
      exact alike_addGlobal_of_agrees models (such _ (List.mem_map_of_mem listed)) _ _
  | interface decl => exact alike_addInterface_of_agrees models (such _ (List.mem_singleton_self _))
  | classDecl decl => exact alike_addClass_of_agrees models (such _ (List.mem_singleton_self _))
  | function decl =>
      have same : Alike (· = ·) (fun record other => other = record ∧ record.name = decl.head.name)
          (functionRecord decl.head.name decl) (functionRecord decl.head.name decl) :=
        ⟨⟨rfl, rfl⟩, rfl⟩
      refine same.bind ?_
      rintro _ record ⟨rfl, named⟩
      have isSuch : which record.name := named ▸ such _ (List.mem_singleton_self _)
      refine (alike_addEntry_of_agrees models.functions isSuch _ _).bind fun _ _ functions => ?_
      exact alike_pure { models with functions }
  | globalVariable decl =>
      exact alike_addGlobal_of_agrees models (such _ (List.mem_singleton_self _)) _ _

/-- Declarations of names on which models agree are collected alike. -/
theorem alike_addItems_of_agrees {items : List Item}
    (such : ∀ item ∈ items, ∀ name ∈ item.topNames, which name) :
    Alike (· = ·) (SymbolModel.AgreesOn which) (items.foldlM addItem model)
      (items.foldlM addItem other) := by
  refine alike_foldlM (fun _ _ models item listed => ?_) models
  exact alike_addItem_of_agrees models (such item listed)

end Steps

theorem agreesOn_addGlobal (model : SymbolModel) {entity : Variable} (apart : ¬ which entity.name) :
    model.AgreesOn which (model.addGlobal entity) :=
  { SymbolModel.AgreesOn.refl model with globals := .add_right _ apart }

/-- A declaration makes no difference to other names. -/
theorem agreesOn_addItem (model : SymbolModel) {item : Item}
    (apart : ∀ name ∈ item.topNames, ¬ which name) :
    model.AgreesOn which (addItem model item).value := by
  cases item with
  | inclusion => exact .refl model
  | enumeration decl =>
      refine Reported.value_foldlM_of_invariant (model.AgreesOn which) (.refl model)
        fun after agrees member listed => agrees.trans ?_
      exact agreesOn_addGlobal after (apart _ (List.mem_map_of_mem listed))
  | interface decl =>
      change model.AgreesOn which (addInterface model decl).value
      unfold addInterface
      split
      · exact .refl model
      · exact { SymbolModel.AgreesOn.refl model with
          interfaces := .add_right _ (apart _ (List.mem_singleton_self _)) }
  | classDecl decl =>
      change model.AgreesOn which (addClass model decl).value
      unfold addClass
      split
      · exact .refl model
      · exact { SymbolModel.AgreesOn.refl model with
          classes := .add_right _ (apart _ (List.mem_singleton_self _)) }
  | function decl =>
      exact { SymbolModel.AgreesOn.refl model with
        functions := .add_right _ (apart _ (List.mem_singleton_self _)) }
  | globalVariable decl => exact agreesOn_addGlobal model (apart _ (List.mem_singleton_self _))

/-- Declarations make no difference to other names. -/
theorem agreesOn_addItems (model : SymbolModel) {items : List Item}
    (apart : ∀ item ∈ items, ∀ name ∈ item.topNames, ¬ which name) :
    model.AgreesOn which (items.foldlM addItem model).value :=
  Reported.value_foldlM_of_invariant (model.AgreesOn which) (.refl model)
    fun after agrees item listed => agrees.trans (agreesOn_addItem after (apart item listed))

end Declarations

end KnightFront
