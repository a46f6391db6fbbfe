import KnightFront.Proofs.Relabelling.Declarations
import KnightFront.Proofs.Retyping.Types

namespace KnightFront

/-!
# Models with an unknown type

In two models the same is declared, but that a variable may be of the unknown
type in the second.  The hierarchies are the same, so what can be assigned is the
same, and a name finds the same method, and the same field but for its type.
-/

variable {unknown : String}

/-- A variable of the same name, and of the same type or the unknown one. -/
structure Variable.Retyped (unknown : String) (entity other : Variable) : Prop where
  name : other.name = entity.name
  ty : entity.ty.Retyped unknown other.ty

/-- A function with the same head; its locals do not matter. -/
structure FunctionRecord.SameHead (record other : FunctionRecord) : Prop where
  name : other.name = record.name
  signature : other.signature = record.signature
  position : other.position = record.position

theorem FunctionRecord.SameHead.refl (record : FunctionRecord) : record.SameHead record :=
  ⟨rfl, rfl, rfl⟩

/-- A class that is the same but for the types of fields. -/
structure ClassRecord.Retyped (unknown : String) (record other : ClassRecord) : Prop where
  name : other.name = record.name
  parent : other.parent = record.parent
  fields : List.Forall₂ (Variable.Retyped unknown) record.fields.entries other.fields.entries
  methods : List.Forall₂ FunctionRecord.SameHead record.methods.entries other.methods.entries
  position : other.position = record.position

/-- A model that is the same but for the types of variables. -/
structure SymbolModel.Retyped (unknown : String) (model other : SymbolModel) : Prop where
  classes : List.Forall₂ (ClassRecord.Retyped unknown) model.classes.entries other.classes.entries
  interfaces : other.interfaces = model.interfaces
  functions : List.Forall₂ FunctionRecord.SameHead model.functions.entries
    other.functions.entries
  globals : List.Forall₂ (Variable.Retyped unknown) model.globals.entries other.globals.entries

namespace Table

variable {α : Type} [Named α] {related : α → α → Prop} {table other : Table α}
  (named : ∀ entry partner, related entry partner → Named.nameOf partner = Named.nameOf entry)
  (entries : List.Forall₂ related table.entries other.entries)

include named entries

/-- Where related entries have the same names, a name finds related entries. -/
theorem rel_find? (name : String) : Option.Rel related (table.find? name) (other.find? name) :=
  @findsAlike_of_forall₂ .identity _ _ _ _ _ Function.injective_id named entries name

theorem contains_of_forall₂ (name : String) : other.contains name = table.contains name :=
  isSome_eq_of_rel (rel_find? named entries name)

/-- Adding related entries keeps tables related. -/
theorem forall₂_add_entry {entry partner : α} (holds : related entry partner) :
    List.Forall₂ related (table.add entry).entries (other.add partner).entries :=
  @forall₂_add .identity _ _ _ _ _ Function.injective_id named entries _ _ holds

end Table

namespace SymbolModel.Retyped

variable {model other : SymbolModel} (retyped : model.Retyped unknown other)

include retyped

theorem rel_class? (name : String) :
    Option.Rel (ClassRecord.Retyped unknown) (model.class? name) (other.class? name) :=
  Table.rel_find? (fun _ _ same => same.name) retyped.classes name

theorem contains_classes (name : String) :
    other.classes.contains name = model.classes.contains name :=
  isSome_eq_of_rel (retyped.rel_class? name)

theorem isTypeName_eq (name : String) : other.isTypeName name = model.isTypeName name := by
  rw [isTypeName, isTypeName, retyped.contains_classes, retyped.interfaces]

theorem rel_function? (name : String) :
    Option.Rel FunctionRecord.SameHead (model.function? name) (other.function? name) :=
  Table.rel_find? (fun _ _ same => same.name) retyped.functions name

theorem rel_global? (name : String) :
    Option.Rel (Variable.Retyped unknown) (model.global? name) (other.global? name) :=
  Table.rel_find? (fun _ _ same => same.name) retyped.globals name

theorem forall₂_classChain (name : String) :
    List.Forall₂ (ClassRecord.Retyped unknown) (model.classChain name) (other.classChain name) := by
  refine @forall₂_chainWithin .identity Function.injective_id _ (fun record _ same => ?_) _ _
    (fun name => retyped.rel_class? name) name
  exact same.parent.trans (congrFun Option.map_id record.parent).symm

/-- A method of a class is found with the same head, in the class of the same
name. -/
theorem rel_findMethod? (className method : String) :
    Option.Rel (fun found partner => partner.1.name = found.1.name ∧ found.2.SameHead partner.2)
      (model.findMethod? className method) (other.findMethod? className method) :=
  rel_findSome? (retyped.forall₂_classChain className) fun _ _ same =>
    rel_map (Table.rel_find? (fun _ _ same => same.name) same.methods method)
      fun _ _ head => ⟨same.name, head⟩

/-- A field of a class is found in the class of the same name, and its type may be
the unknown one. -/
theorem rel_findField? (className field : String) :
    Option.Rel
      (fun found partner => partner.1.name = found.1.name ∧ found.2.Retyped unknown partner.2)
      (model.findField? className field) (other.findField? className field) :=
  rel_findSome? (retyped.forall₂_classChain className) fun _ _ same =>
    rel_map (Table.rel_find? (fun _ _ same => same.name) same.fields field)
      fun _ _ entity => ⟨same.name, entity⟩

theorem isSubclass_eq (lower upper : String) :
    other.isSubclass lower upper = model.isSubclass lower upper :=
  any_eq_of_forall₂ (retyped.forall₂_classChain lower) fun _ _ same => by rw [same.name]

theorem isAssignable_eq : other.isAssignable = model.isAssignable := by
  funext expected actual
  cases expected <;> cases actual <;> try rfl
  next upper lower => simp only [isAssignable, retyped.isSubclass_eq]

theorem interfaceClosure_eq : other.interfaceClosure = model.interfaceClosure := by
  funext name
  rw [interfaceClosure, interfaceClosure, retyped.interfaces]

theorem findInterfaceMethod?_eq : other.findInterfaceMethod? = model.findInterfaceMethod? := by
  funext interfaceName method
  rw [findInterfaceMethod?, findInterfaceMethod?, retyped.interfaceClosure_eq]

theorem hasCyclicInheritance_eq (name : String) :
    other.hasCyclicInheritance name = model.hasCyclicInheritance name := by
  have parents : (other.class? name).bind ClassRecord.parent =
      (model.class? name).bind ClassRecord.parent := by
    have both := retyped.rel_class? name
    revert both
    cases model.class? name <;> cases other.class? name <;> intro both <;> cases both
    · rfl
    · next same => exact same.parent
  unfold hasCyclicInheritance
  rw [parents]
  split
  · rfl
  · exact retyped.isSubclass_eq _ _

theorem hasCyclicExtension_eq (name : String) :
    other.hasCyclicExtension name = model.hasCyclicExtension name := by
  unfold hasCyclicExtension interface?
  rw [retyped.interfaces]

end SymbolModel.Retyped

end KnightFront
