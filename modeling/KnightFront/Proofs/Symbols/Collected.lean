import KnightFront.Proofs.Symbols.Closed
import KnightFront.Proofs.Symbols.Rearranged

namespace KnightFront

/-!
# What declarations add to a model

Where no name is declared again, a declaration puts its entries behind those
that are there, and its findings are the same wherever it stands.  A table holds
each name once, so a model that has these entries exists only if no name is
declared again, and then it is the one that the first pass collects.

What follows is that the order of declarations makes no difference but to the
order of entries and findings.
-/

/-- Whether a problem is that a name at the top level is declared again. -/
def Problem.isRedeclaration : Problem → Bool
  | duplicateFunction _ => true
  | duplicateVariable _ => true
  | duplicateEnumMember .. => true
  | duplicateInterface _ => true
  | duplicateClass _ => true
  | _ => false

open Declarations

/-- The entry of an enumeration's member. -/
def EnumDecl.memberEntry (member : String × Span) : Variable :=
  ⟨member.1, .int, none, member.2.start⟩

/-- The record of a class. -/
def ClassDecl.record (decl : ClassDecl) : ClassRecord where
  name := decl.name
  parent := decl.parent.map NameUse.text
  methods := (methodTable decl).value
  fields := (fieldTable decl).value
  uses := .ofList (decl.uses.map NameUse.text)
  position := decl.span.start

/-- The record of an interface. -/
def InterfaceDecl.record (decl : InterfaceDecl) : InterfaceRecord where
  name := decl.name
  methods := (headTable decl).value
  bases := .ofList (decl.bases.map NameUse.text)
  position := decl.span.start

namespace Item

/-- The class that a declaration adds. -/
def classRecords : Item → List ClassRecord
  | classDecl decl => [decl.record]
  | _ => []

/-- The interface that a declaration adds. -/
def interfaceRecords : Item → List InterfaceRecord
  | interface decl => [decl.record]
  | _ => []

/-- The function that a declaration adds. -/
def functionRecords : Item → List FunctionRecord
  | function decl => [(functionRecord decl.head.name decl).value]
  | _ => []

/-- The global variables that a declaration adds. -/
def globalEntries : Item → List Variable
  | enumeration decl => decl.members.map EnumDecl.memberEntry
  | globalVariable decl => [unslotted decl]
  | _ => []

/-- What is found in a declaration itself, whatever else is declared. -/
def ownFindings : Item → List Finding
  | interface decl => (headTable decl).findings
  | classDecl decl => (fieldTable decl).findings ++ (methodTable decl).findings
  | function decl => (functionRecord decl.head.name decl).findings
  | _ => []

end Item

/-- One model has, behind the entries of another, those of declarations. -/
structure SymbolModel.ExtendedBy (before : SymbolModel) (items : List Item)
    (after : SymbolModel) : Prop where
  classes : after.classes.entries = before.classes.entries ++ items.flatMap Item.classRecords
  interfaces : after.interfaces.entries =
    before.interfaces.entries ++ items.flatMap Item.interfaceRecords
  functions : after.functions.entries =
    before.functions.entries ++ items.flatMap Item.functionRecords
  globals : after.globals.entries = before.globals.entries ++ items.flatMap Item.globalEntries

namespace Table

variable {α : Type} [Named α] {before after : Table α}

/-- A table that has more entries has every shorter front of them, too. -/
theorem exists_front {front back : List α}
    (listed : after.entries = before.entries ++ (front ++ back)) :
    ∃ middle : Table α, middle.entries = before.entries ++ front ∧
      after.entries = middle.entries ++ back := by
  rw [← List.append_assoc] at listed
  have distinct := after.distinct
  rw [listed, List.map_append] at distinct
  exact ⟨⟨before.entries ++ front, distinct.of_append_left⟩, rfl, listed⟩

/-- A name that has an entry behind those of a table is not in it. -/
theorem contains_eq_false_of_entries {entry : α} {back : List α}
    (listed : after.entries = before.entries ++ entry :: back) :
    before.contains (Named.nameOf entry) = false := by
  by_contra taken
  rw [Bool.not_eq_false] at taken
  rcases contains_eq_true_iff.mp taken with ⟨earlier, member, same⟩
  have distinct := after.distinct
  rw [listed, List.map_append, List.nodup_append] at distinct
  exact distinct.2.2 _ (List.mem_map_of_mem member) _
    (List.mem_map_of_mem List.mem_cons_self) same

end Table

namespace SymbolModel.ExtendedBy

variable {before after : SymbolModel} {items : List Item}

theorem nil (model : SymbolModel) : model.ExtendedBy [] model := by
  constructor <;> exact (List.append_nil _).symm

/-- The entries of declarations determine the model. -/
theorem unique {other : SymbolModel} (extended : before.ExtendedBy items after)
    (likewise : before.ExtendedBy items other) : after = other := by
  cases after
  cases other
  congr 1
  · exact Table.ext_entries (extended.classes.trans likewise.classes.symm)
  · exact Table.ext_entries (extended.interfaces.trans likewise.interfaces.symm)
  · exact Table.ext_entries (extended.functions.trans likewise.functions.symm)
  · exact Table.ext_entries (extended.globals.trans likewise.globals.symm)

theorem append {middle : SymbolModel} {later : List Item}
    (extended : before.ExtendedBy items middle) (further : middle.ExtendedBy later after) :
    before.ExtendedBy (items ++ later) after := by
  constructor
  · rw [further.classes, extended.classes, List.flatMap_append, List.append_assoc]
  · rw [further.interfaces, extended.interfaces, List.flatMap_append, List.append_assoc]
  · rw [further.functions, extended.functions, List.flatMap_append, List.append_assoc]
  · rw [further.globals, extended.globals, List.flatMap_append, List.append_assoc]

/-- Declarations can be added one after another. -/
theorem split {later : List Item} (extended : before.ExtendedBy (items ++ later) after) :
    ∃ middle, before.ExtendedBy items middle ∧ middle.ExtendedBy later after := by
  rcases extended with ⟨classes, interfaces, functions, globals⟩
  rw [List.flatMap_append] at classes interfaces functions globals
  rcases Table.exists_front classes with ⟨classTable, classFront, classBack⟩
  rcases Table.exists_front interfaces with ⟨interfaceTable, interfaceFront, interfaceBack⟩
  rcases Table.exists_front functions with ⟨functionTable, functionFront, functionBack⟩
  rcases Table.exists_front globals with ⟨globalTable, globalFront, globalBack⟩
  exact ⟨⟨classTable, interfaceTable, functionTable, globalTable⟩,
    ⟨classFront, interfaceFront, functionFront, globalFront⟩,
    ⟨classBack, interfaceBack, functionBack, globalBack⟩⟩

/-- Declarations can be added in any order. -/
theorem rearranged {items' : List Item} (extended : before.ExtendedBy items after)
    (perm : items.Perm items') :
    ∃ after', before.ExtendedBy items' after' ∧ after.Rearranged after' := by
  have moved {α : Type} (part : Item → List α) (front : List α) :
      (front ++ items.flatMap part).Perm (front ++ items'.flatMap part) :=
    (perm.flatMap_right part).append_left front
  rcases after.classes.exists_rearranged (extended.classes ▸ moved _ _) with
    ⟨classes, classEntries, sameClasses⟩
  rcases after.interfaces.exists_rearranged (extended.interfaces ▸ moved _ _) with
    ⟨interfaces, interfaceEntries, sameInterfaces⟩
  rcases after.functions.exists_rearranged (extended.functions ▸ moved _ _) with
    ⟨functions, functionEntries, sameFunctions⟩
  rcases after.globals.exists_rearranged (extended.globals ▸ moved _ _) with
    ⟨globals, globalEntries, sameGlobals⟩
  exact ⟨⟨classes, interfaces, functions, globals⟩,
    ⟨classEntries, interfaceEntries, functionEntries, globalEntries⟩,
    ⟨sameClasses, sameInterfaces, sameFunctions, sameGlobals⟩⟩

end SymbolModel.ExtendedBy

namespace Declarations

variable {model after : SymbolModel}

theorem addEntry_of_free {α : Type} [Named α] {table : Table α} {entry : α}
    (free : table.contains (Named.nameOf entry) = false) (position : Position) (problem : Problem) :
    addEntry table entry position problem = ⟨table.add entry, []⟩ := by
  rw [addEntry, free]
  rfl

/-- An entry whose name is taken is reported. -/
theorem free_of_lacks_addEntry {α : Type} [Named α] {table : Table α} {entry : α}
    {position : Position} {problem : Problem} (redeclares : problem.isRedeclaration = true)
    (lacks : (addEntry table entry position problem).Lacks Problem.isRedeclaration) :
    table.contains (Named.nameOf entry) = false := by
  simp only [addEntry, Reported.lacks_bind, Reported.lacks_reportIf, redeclares] at lacks
  simpa using lacks.1

/-- A global variable of a name that is free is all that some declarations
add. -/
theorem extendedBy_addGlobal {entity : Variable} {item : Item}
    (free : model.globals.contains entity.name = false)
    (adds : (item.classRecords, item.interfaceRecords, item.functionRecords, item.globalEntries) =
      ([], [], [], [entity])) : model.ExtendedBy [item] (model.addGlobal entity) := by
  simp only [Prod.mk.injEq] at adds
  rcases adds with ⟨classes, interfaces, functions, globals⟩
  constructor
  · simp [classes, SymbolModel.addGlobal]
  · simp [interfaces, SymbolModel.addGlobal]
  · simp [functions, SymbolModel.addGlobal]
  · simp [globals, SymbolModel.addGlobal, Table.entries_add_of_not_contains free]

/-! ## Enumerations -/

theorem extendedBy_enumeration_nil {name : String} {span : Span} :
    model.ExtendedBy [.enumeration ⟨name, [], span⟩] model := by
  constructor <;> exact (List.append_nil _).symm

/-- An enumeration adds its first member and then the others. -/
theorem extendedBy_enumeration_cons {name : String} {span : Span} {member : String × Span}
    {rest : List (String × Span)} :
    model.ExtendedBy [.enumeration ⟨name, member :: rest, span⟩] after ↔
      model.ExtendedBy ([.enumeration ⟨name, [member], span⟩] ++ [.enumeration ⟨name, rest, span⟩])
        after :=
  ⟨fun ⟨classes, interfaces, functions, globals⟩ => ⟨classes, interfaces, functions, globals⟩,
    fun ⟨classes, interfaces, functions, globals⟩ => ⟨classes, interfaces, functions, globals⟩⟩

theorem addEnum_cons_of_free {name : String} {span : Span} {member : String × Span}
    {rest : List (String × Span)} (free : model.globals.contains member.1 = false) :
    addEnum model ⟨name, member :: rest, span⟩ =
      addEnum (model.addGlobal (EnumDecl.memberEntry member)) ⟨name, rest, span⟩ := by
  simp only [addEnum, List.foldlM_cons]
  rw [addEntry_of_free free]
  rfl

theorem exists_extendedBy_of_addEnum {name : String} {span : Span} {members : List (String × Span)}
    (lacks : (addEnum model ⟨name, members, span⟩).Lacks Problem.isRedeclaration) :
    ∃ after, model.ExtendedBy [.enumeration ⟨name, members, span⟩] after := by
  induction members generalizing model with
  | nil => exact ⟨model, extendedBy_enumeration_nil⟩
  | cons member rest inductionHypothesis =>
      have free : model.globals.contains member.1 = false := by
        simp only [addEnum, List.foldlM_cons, Reported.lacks_bind] at lacks
        exact free_of_lacks_addEntry rfl lacks.1.1
      rw [addEnum_cons_of_free free] at lacks
      rcases inductionHypothesis lacks with ⟨after, further⟩
      exact ⟨after, extendedBy_enumeration_cons.mpr <|
        (extendedBy_addGlobal free rfl).append further⟩

theorem addEnum_of_extendedBy {name : String} {span : Span} {members : List (String × Span)}
    (extended : model.ExtendedBy [.enumeration ⟨name, members, span⟩] after) :
    addEnum model ⟨name, members, span⟩ = ⟨after, []⟩ := by
  induction members generalizing model with
  | nil => rw [extended.unique extendedBy_enumeration_nil]; rfl
  | cons member rest inductionHypothesis =>
      have free : model.globals.contains member.1 = false :=
        Table.contains_eq_false_of_entries extended.globals
      rcases (extendedBy_enumeration_cons.mp extended).split with ⟨middle, first, further⟩
      rw [addEnum_cons_of_free free, (extendedBy_addGlobal free rfl).unique first]
      exact inductionHypothesis further

theorem extendedBy_inclusion {decl : IncludeDecl} : model.ExtendedBy [.inclusion decl] model := by
  constructor <;> exact (List.append_nil _).symm

theorem addClass_of_free {decl : ClassDecl} (free : model.classes.contains decl.name = false) :
    addClass model decl =
      ⟨model.addClass decl.record, (Item.classDecl decl).ownFindings⟩ := by
  rw [addClass, if_neg (Bool.not_eq_true _ ▸ free)]
  exact Reported.ext rfl (by simp [Item.ownFindings])

theorem extendedBy_addClass {decl : ClassDecl} (free : model.classes.contains decl.name = false) :
    model.ExtendedBy [.classDecl decl] (model.addClass decl.record) := by
  refine ⟨?_, (List.append_nil _).symm, (List.append_nil _).symm, (List.append_nil _).symm⟩
  exact Table.entries_add_of_not_contains free

theorem addInterface_of_free {decl : InterfaceDecl}
    (free : model.interfaces.contains decl.name = false) :
    addInterface model decl =
      ⟨model.addInterface decl.record, (Item.interface decl).ownFindings⟩ := by
  rw [addInterface, if_neg (Bool.not_eq_true _ ▸ free)]
  exact Reported.ext rfl (by simp [Item.ownFindings])

theorem extendedBy_addInterface {decl : InterfaceDecl}
    (free : model.interfaces.contains decl.name = false) :
    model.ExtendedBy [.interface decl] (model.addInterface decl.record) := by
  refine ⟨(List.append_nil _).symm, ?_, (List.append_nil _).symm, (List.append_nil _).symm⟩
  exact Table.entries_add_of_not_contains free

theorem addItem_function_of_free {decl : FunctionDecl}
    (free : model.functions.contains decl.head.name = false) :
    addItem model (.function decl) =
      ⟨model.addFunction (functionRecord decl.head.name decl).value,
        (Item.function decl).ownFindings⟩ := by
  have added : addEntry model.functions (functionRecord decl.head.name decl).value
      decl.head.span.start (.duplicateFunction decl.head.name) = ⟨_, []⟩ :=
    addEntry_of_free free _ _
  refine Reported.ext ?_ ?_
  · rw [addItem, Reported.value_bind, Reported.value_bind, added]
    rfl
  · rw [addItem, Reported.findings_bind, Reported.findings_bind, added]
    exact List.append_nil _

theorem extendedBy_addFunction {decl : FunctionDecl}
    (free : model.functions.contains decl.head.name = false) :
    model.ExtendedBy [.function decl]
      (model.addFunction (functionRecord decl.head.name decl).value) := by
  refine ⟨(List.append_nil _).symm, (List.append_nil _).symm, ?_, (List.append_nil _).symm⟩
  exact Table.entries_add_of_not_contains free

/-- A declaration that is not reported as made again finds room for its
entries. -/
theorem exists_extendedBy_of_addItem {item : Item}
    (lacks : (addItem model item).Lacks Problem.isRedeclaration) :
    ∃ after, model.ExtendedBy [item] after := by
  cases item with
  | inclusion => exact ⟨model, extendedBy_inclusion⟩
  | enumeration decl => exact exists_extendedBy_of_addEnum lacks
  | interface decl =>
      have free : model.interfaces.contains decl.name = false := by
        by_contra taken
        rw [Bool.not_eq_false] at taken
        simp [addItem, addInterface, taken, Problem.isRedeclaration] at lacks
      exact ⟨_, extendedBy_addInterface free⟩
  | classDecl decl =>
      have free : model.classes.contains decl.name = false := by
        by_contra taken
        rw [Bool.not_eq_false] at taken
        simp [addItem, addClass, taken, Problem.isRedeclaration] at lacks
      exact ⟨_, extendedBy_addClass free⟩
  | function decl =>
      simp only [addItem, Reported.lacks_bind] at lacks
      exact ⟨_, extendedBy_addFunction (free_of_lacks_addEntry rfl lacks.2.1)⟩
  | globalVariable decl =>
      simp only [addItem, Reported.lacks_bind] at lacks
      exact ⟨_, extendedBy_addGlobal (free_of_lacks_addEntry rfl lacks.1) rfl⟩

/-- A declaration for whose entries there is room adds them, and nothing is
found but in itself. -/
theorem addItem_of_extendedBy {item : Item} (extended : model.ExtendedBy [item] after) :
    addItem model item = ⟨after, item.ownFindings⟩ := by
  cases item with
  | inclusion => rw [extended.unique extendedBy_inclusion]; rfl
  | enumeration decl => exact addEnum_of_extendedBy extended
  | interface decl =>
      have free : model.interfaces.contains decl.name = false :=
        Table.contains_eq_false_of_entries extended.interfaces
      rw [extended.unique (extendedBy_addInterface free)]
      exact addInterface_of_free free
  | classDecl decl =>
      have free : model.classes.contains decl.name = false :=
        Table.contains_eq_false_of_entries extended.classes
      rw [extended.unique (extendedBy_addClass free)]
      exact addClass_of_free free
  | function decl =>
      have free : model.functions.contains decl.head.name = false :=
        Table.contains_eq_false_of_entries extended.functions
      rw [extended.unique (extendedBy_addFunction free)]
      exact addItem_function_of_free free
  | globalVariable decl =>
      have free : model.globals.contains decl.name = false :=
        Table.contains_eq_false_of_entries extended.globals
      rw [extended.unique (extendedBy_addGlobal free rfl)]
      simp only [addItem]
      rw [addEntry_of_free free]
      rfl

theorem exists_extendedBy_of_addItems {items : List Item}
    (lacks : (items.foldlM addItem model).Lacks Problem.isRedeclaration) :
    ∃ after, model.ExtendedBy items after := by
  induction items generalizing model with
  | nil => exact ⟨model, .nil model⟩
  | cons item rest inductionHypothesis =>
      rw [List.foldlM_cons, Reported.lacks_bind] at lacks
      rcases exists_extendedBy_of_addItem lacks.1 with ⟨middle, first⟩
      rw [addItem_of_extendedBy first] at lacks
      rcases inductionHypothesis lacks.2 with ⟨after, further⟩
      exact ⟨after, first.append further⟩

theorem addItems_of_extendedBy {items : List Item} (extended : model.ExtendedBy items after) :
    items.foldlM addItem model = ⟨after, items.flatMap Item.ownFindings⟩ := by
  induction items generalizing model with
  | nil => rw [extended.unique (.nil model)]; rfl
  | cons item rest inductionHypothesis =>
      have together : model.ExtendedBy ([item] ++ rest) after := extended
      rcases together.split with ⟨middle, first, further⟩
      rw [List.foldlM_cons, addItem_of_extendedBy first]
      refine Reported.ext ?_ ?_
      · rw [Reported.value_bind, inductionHypothesis further]
      · rw [Reported.findings_bind, inductionHypothesis further, List.flatMap_cons]

end Declarations

/-- Whether a name is declared again does not depend on cycles. -/
theorem SymbolModel.lacks_ofPrograms_iff (programs : List Program) :
    (ofPrograms programs).Lacks Problem.isRedeclaration ↔
      ((programs.flatMap Program.items).foldlM addItem withBuiltins).Lacks
        Problem.isRedeclaration := by
  rw [ofPrograms_eq, Reported.lacks_bind]
  exact and_iff_left (lacks_cycleFindings _ (fun _ => rfl) fun _ => rfl)

end KnightFront
