import KnightFront.Proofs.Analysis.Reading
import KnightFront.Proofs.Symbols.FirstDeclared

namespace KnightFront

/-!
# The first declaration wins

Of the declarations of a name that programs make, the first is taken into the
symbol model and each later one is reported where it stands.  Classes,
interfaces and functions have tables of their own; global variables and the
members of enumerations share one.  The builtin functions are declared before
all others.  Inside a class or an interface that is taken, the same is true of
fields and methods.
-/

open Declarations

/-- The finding on a field whose name is taken. -/
def ClassDecl.fieldClash (decl : ClassDecl) (field : VarDecl) : Finding :=
  ⟨field.nameSpan.start, .duplicateField field.name decl.name⟩

/-- The record of a method, whose display name is that of its class in front of
its own. -/
def ClassDecl.methodRecord (decl : ClassDecl) (method : FunctionDecl) : FunctionRecord :=
  (functionRecord (decl.name ++ "." ++ method.head.name) method).value

/-- The finding on a method whose name is taken. -/
def ClassDecl.methodClash (decl : ClassDecl) (method : FunctionDecl) : Finding :=
  ⟨method.head.span.start, .duplicateMethod method.head.name decl.name⟩

/-- The record of an interface's method. -/
def FunctionHead.record (head : FunctionHead) : FunctionRecord :=
  ⟨head.name, signature head, .empty, head.span.start, false⟩

/-- The finding on an interface's method whose name is taken. -/
def InterfaceDecl.methodClash (decl : InterfaceDecl) (head : FunctionHead) : Finding :=
  ⟨head.span.start, .duplicateInterfaceMethod head.name decl.name⟩

namespace ClassDecl

variable (decl : ClassDecl)

theorem enters_fields :
    Enters (fun table field =>
      addEntry table (unslotted field) field.nameSpan.start (.duplicateField field.name decl.name))
      .fields unslotted decl.fieldClash :=
  .of_built (fun field => pure (unslotted field)) decl.fieldClash (fun _ => rfl) fun _ _ => rfl

theorem enters_methods :
    Enters (fun table method => do
      let record ← functionRecord (decl.name ++ "." ++ method.head.name) method
      addEntry table record method.head.span.start (.duplicateMethod method.head.name decl.name))
      .methods decl.methodRecord decl.methodClash := by
  have built := Enters.of_built
    (fun method : FunctionDecl => functionRecord (decl.name ++ "." ++ method.head.name) method)
    decl.methodClash (fun _ => rfl) fun method other =>
      clashes_functionRecord (decl.name ++ "." ++ method.head.name) method other
  exact built

/-- The fields of a class are its first fields of each name. -/
theorem entries_fields :
    decl.record.fields.entries = (firsts VarDecl.name [] decl.fields).map unslotted :=
  decl.enters_fields.entries decl.fields

/-- The methods of a class are its first methods of each name. -/
theorem entries_methods :
    decl.record.methods.entries =
      (firsts (fun method => method.head.name) [] decl.methods).map decl.methodRecord :=
  decl.enters_methods.entries decl.methods

theorem clashes_fieldTable (kind : TableKind) :
    (fieldTable decl).clashes kind =
      if kind = .fields then (laters VarDecl.name [] decl.fields).map decl.fieldClash else [] :=
  decl.enters_fields.clashes_foldlM decl.fields kind

theorem clashes_methodTable (kind : TableKind) :
    (methodTable decl).clashes kind =
      if kind = .methods then
        (laters (fun method => method.head.name) [] decl.methods).map decl.methodClash
      else [] :=
  decl.enters_methods.clashes_foldlM decl.methods kind

end ClassDecl

namespace InterfaceDecl

variable (decl : InterfaceDecl)

theorem enters_methods :
    Enters (fun table head => do
      reportRepeatedParams head.name [] head.params
      addEntry table head.record head.span.start (.duplicateInterfaceMethod head.name decl.name))
      .heads FunctionHead.record decl.methodClash := by
  have built := Enters.of_built (fun head : FunctionHead => do
    reportRepeatedParams head.name [] head.params
    return head.record) decl.methodClash (fun _ => rfl) fun _ _ => by simp
  simp only [bind_assoc, pure_bind] at built
  exact built

/-- The methods of an interface are its first methods of each name. -/
theorem entries_methods :
    decl.record.methods.entries =
      (firsts FunctionHead.name [] decl.methods).map FunctionHead.record :=
  decl.enters_methods.entries decl.methods

theorem clashes_headTable (kind : TableKind) :
    (headTable decl).clashes kind =
      if kind = .heads then (laters FunctionHead.name [] decl.methods).map decl.methodClash
      else [] :=
  decl.enters_methods.clashes_foldlM decl.methods kind

end InterfaceDecl

/-! ## Declarations at the top level -/

/-- The record of a function at the top level. -/
def FunctionDecl.record (decl : FunctionDecl) : FunctionRecord :=
  (functionRecord decl.head.name decl).value

/-- The finding on a class whose name is taken. -/
def ClassDecl.clash (decl : ClassDecl) : Finding := ⟨decl.span.start, .duplicateClass decl.name⟩

/-- The finding on an interface whose name is taken. -/
def InterfaceDecl.clash (decl : InterfaceDecl) : Finding :=
  ⟨decl.span.start, .duplicateInterface decl.name⟩

/-- The finding on a function whose name is taken. -/
def FunctionDecl.clash (decl : FunctionDecl) : Finding :=
  ⟨decl.head.span.start, .duplicateFunction decl.head.name⟩

/-- A global variable or a member of an enumeration, with the problem that its
name is taken. -/
structure GlobalDecl where
  entity : Variable
  problem : Problem
  clashes : problem.clash? = some .globals

/-- The finding on a global variable or member whose name is taken. -/
def GlobalDecl.clash (decl : GlobalDecl) : Finding := ⟨decl.entity.position, decl.problem⟩

namespace Item

/-- The class that an item declares. -/
def classDecls : Item → List ClassDecl
  | classDecl decl => [decl]
  | _ => []

/-- The interface that an item declares. -/
def interfaceDecls : Item → List InterfaceDecl
  | interface decl => [decl]
  | _ => []

/-- The function that an item declares. -/
def functionDecls : Item → List FunctionDecl
  | function decl => [decl]
  | _ => []

/-- The global variables that an item declares, the members of an enumeration
among them. -/
def globalDecls : Item → List GlobalDecl
  | enumeration decl => decl.members.map fun member =>
      ⟨EnumDecl.memberEntry member, .duplicateEnumMember member.1 decl.name, rfl⟩
  | globalVariable decl => [⟨unslotted decl, .duplicateVariable decl.name, rfl⟩]
  | _ => []

end Item

namespace Declarations

/-- Collect a global variable. -/
def enterGlobal (model : SymbolModel) (decl : GlobalDecl) : Reported SymbolModel := do
  let globals ← addEntry model.globals decl.entity decl.entity.position decl.problem
  return { model with globals }

theorem addItem_enumeration (model : SymbolModel) (decl : EnumDecl) :
    addItem model (.enumeration decl) =
      (Item.enumeration decl).globalDecls.foldlM enterGlobal model := by
  rw [Item.globalDecls, List.foldlM_map]
  rfl

theorem value_enterGlobals (model : SymbolModel) (decls : List GlobalDecl) :
    (decls.foldlM enterGlobal model).value =
      { model with globals := (decls.map GlobalDecl.entity).foldl Table.add model.globals } := by
  induction decls generalizing model with
  | nil => rfl
  | cons first rest inductionHypothesis =>
      rw [List.foldlM_cons, Reported.value_bind, inductionHypothesis]
      rfl

/-- What an item leaves in the tables of a model. -/
theorem value_addItem (model : SymbolModel) (item : Item) :
    (addItem model item).value =
      ⟨(item.classDecls.map ClassDecl.record).foldl Table.add model.classes,
        (item.interfaceDecls.map InterfaceDecl.record).foldl Table.add model.interfaces,
        (item.functionDecls.map FunctionDecl.record).foldl Table.add model.functions,
        (item.globalDecls.map GlobalDecl.entity).foldl Table.add model.globals⟩ := by
  cases item with
  | inclusion decl => rfl
  | enumeration decl =>
      rw [addItem_enumeration, value_enterGlobals]
      rfl
  | interface decl =>
      rw [addItem, addInterface]
      split
      · next taken =>
          have same : model.interfaces.add decl.record = model.interfaces :=
            Table.add_of_contains taken
          simp [Item.interfaceDecls, Item.classDecls, Item.functionDecls, Item.globalDecls, same]
      · rfl
  | classDecl decl =>
      rw [addItem, addClass]
      split
      · next taken =>
          have same : model.classes.add decl.record = model.classes := Table.add_of_contains taken
          simp [Item.interfaceDecls, Item.classDecls, Item.functionDecls, Item.globalDecls, same]
      · rfl
  | function decl => rfl
  | globalVariable decl => rfl

theorem entries_foldl_add {α δ : Type} [Named α] (entry : δ → α) (decls : List δ) (table : Table α) :
    ((decls.map entry).foldl Table.add table).entries =
      table.entries ++ (firsts (entryName entry) table.names decls).map entry := by
  have fills : Fills (fun table decl => (pure (table.add (entry decl)) : Reported (Table α)))
      (fun table => table) (fun decl => [decl]) entry :=
    ⟨fun table decl => entries_add table entry decl⟩
  have filled := fills.entries_foldlM decls table
  rw [List.flatMap_singleton', List.foldlM_pure] at filled
  rwa [List.foldl_map]

theorem fills_classes : Fills addItem SymbolModel.classes Item.classDecls ClassDecl.record :=
  ⟨fun model item => by rw [value_addItem, entries_foldl_add]⟩

theorem fills_interfaces :
    Fills addItem SymbolModel.interfaces Item.interfaceDecls InterfaceDecl.record :=
  ⟨fun model item => by rw [value_addItem, entries_foldl_add]⟩

theorem fills_functions :
    Fills addItem SymbolModel.functions Item.functionDecls FunctionDecl.record :=
  ⟨fun model item => by rw [value_addItem, entries_foldl_add]⟩

theorem fills_globals : Fills addItem SymbolModel.globals Item.globalDecls GlobalDecl.entity :=
  ⟨fun model item => by rw [value_addItem, entries_foldl_add]⟩

end Declarations

/-- The clashes that items make in a model, by the table in which names clash.
Members of a class or an interface clash where the class or interface is taken. -/
def SymbolModel.clashesOf (model : SymbolModel) (items : List Item) : TableKind → List Finding
  | .classes =>
      (laters ClassDecl.name model.classes.names (items.flatMap Item.classDecls)).map
        ClassDecl.clash
  | .interfaces =>
      (laters InterfaceDecl.name model.interfaces.names (items.flatMap Item.interfaceDecls)).map
        InterfaceDecl.clash
  | .functions =>
      (laters (fun decl => decl.head.name) model.functions.names
        (items.flatMap Item.functionDecls)).map FunctionDecl.clash
  | .globals =>
      (laters (fun decl => decl.entity.name) model.globals.names
        (items.flatMap Item.globalDecls)).map GlobalDecl.clash
  | .fields =>
      (firsts ClassDecl.name model.classes.names (items.flatMap Item.classDecls)).flatMap
        fun decl => (laters VarDecl.name [] decl.fields).map decl.fieldClash
  | .methods =>
      (firsts ClassDecl.name model.classes.names (items.flatMap Item.classDecls)).flatMap
        fun decl =>
          (laters (fun method => method.head.name) [] decl.methods).map decl.methodClash
  | .heads =>
      (firsts InterfaceDecl.name model.interfaces.names
        (items.flatMap Item.interfaceDecls)).flatMap
        fun decl => (laters FunctionHead.name [] decl.methods).map decl.methodClash

namespace Declarations

theorem clashes_enterGlobals (model : SymbolModel) (decls : List GlobalDecl) (kind : TableKind) :
    (decls.foldlM enterGlobal model).clashes kind =
      if kind = .globals then
        (laters (fun decl => decl.entity.name) model.globals.names decls).map GlobalDecl.clash
      else [] := by
  have fills : Fills enterGlobal SymbolModel.globals (fun decl => [decl]) GlobalDecl.entity :=
    ⟨fun model decl => entries_add model.globals GlobalDecl.entity decl⟩
  have step (model : SymbolModel) (decl : GlobalDecl) :
      (enterGlobal model decl).clashes kind =
        if kind = .globals then
          (laters (entryName GlobalDecl.entity) model.globals.names [decl]).map GlobalDecl.clash
        else [] := by
    have entered := clashes_addEntry model.globals GlobalDecl.entity GlobalDecl.clash decl kind
    have found : (enterGlobal model decl).clashes kind =
        (addEntry model.globals decl.entity decl.clash.position decl.clash.problem).clashes kind :=
      by rw [enterGlobal, Reported.clashes_bind, Reported.clashes_pure, List.append_nil]; rfl
    rw [found, entered, show decl.clash.problem.clash? = _ from decl.clashes]
    by_cases same : kind = .globals
    · simp [same]
    · simp [same, Ne.symm same]
  by_cases same : kind = .globals
  · have all := fills.clashes_foldlM (consecutive_laters GlobalDecl.clash)
      (fun model decl => by rw [step, if_pos same]) decls model
    rw [List.flatMap_singleton'] at all
    rw [if_pos same]
    exact all
  · rw [if_neg same]
    exact fills.clashes_foldlM consecutive_none (fun model decl => by rw [step, if_neg same])
      decls model

theorem clashes_addItem (model : SymbolModel) (item : Item) (kind : TableKind) :
    (addItem model item).clashes kind = model.clashesOf [item] kind := by
  cases item with
  | inclusion decl => cases kind <;> rfl
  | enumeration decl =>
      rw [addItem_enumeration, clashes_enterGlobals]
      cases kind <;> simp [SymbolModel.clashesOf, Item.classDecls, Item.interfaceDecls,
        Item.functionDecls, laters, firsts]
  | interface decl =>
      by_cases taken : model.interfaces.contains decl.name = true
      · cases kind <;> simp [addItem, addInterface, SymbolModel.clashesOf, Item.classDecls,
          Item.interfaceDecls, Item.functionDecls, Item.globalDecls, laters, firsts, mem_names_iff,
          taken, Problem.clash?, InterfaceDecl.clash]
      · cases kind <;> simp [addItem, addInterface, SymbolModel.clashesOf, Item.classDecls,
          Item.interfaceDecls, Item.functionDecls, Item.globalDecls, laters, firsts, mem_names_iff,
          taken, InterfaceDecl.clashes_headTable]
  | classDecl decl =>
      by_cases taken : model.classes.contains decl.name = true
      · cases kind <;> simp [addItem, addClass, SymbolModel.clashesOf, Item.classDecls,
          Item.interfaceDecls, Item.functionDecls, Item.globalDecls, laters, firsts, mem_names_iff,
          taken, Problem.clash?, ClassDecl.clash]
      · cases kind <;> simp [addItem, addClass, SymbolModel.clashesOf, Item.classDecls,
          Item.interfaceDecls, Item.functionDecls, Item.globalDecls, laters, firsts, mem_names_iff,
          taken, ClassDecl.clashes_fieldTable, ClassDecl.clashes_methodTable]
  | function decl =>
      have entered := clashes_addEntry model.functions FunctionDecl.record FunctionDecl.clash decl
        kind
      have found : (addItem model (.function decl)).clashes kind =
          (addEntry model.functions decl.record decl.clash.position decl.clash.problem).clashes
            kind := by
        let entered := addEntry model.functions decl.record decl.clash.position decl.clash.problem
        calc
          (addItem model (.function decl)).clashes kind =
              (functionRecord decl.head.name decl).clashes kind ++ (entered.clashes kind ++ []) := by
            rw [addItem, Reported.clashes_bind, Reported.clashes_bind, Reported.clashes_pure]
            rfl
          _ = entered.clashes kind := by
            rw [clashes_functionRecord, List.append_nil, List.nil_append]
      have named : entryName FunctionDecl.record = fun decl => decl.head.name := rfl
      rw [found, entered, named]
      cases kind <;> simp [SymbolModel.clashesOf, Item.classDecls, Item.interfaceDecls,
        Item.functionDecls, Item.globalDecls, laters, firsts, FunctionDecl.clash, Problem.clash?]
  | globalVariable decl =>
      have entered := clashes_enterGlobals model (Item.globalVariable decl).globalDecls kind
      have same : addItem model (.globalVariable decl) =
          (Item.globalVariable decl).globalDecls.foldlM enterGlobal model := by
        simp only [Item.globalDecls, List.foldlM_cons, List.foldlM_nil, bind_pure]
        rfl
      rw [same, entered]
      cases kind <;> simp [SymbolModel.clashesOf, Item.classDecls, Item.interfaceDecls,
        Item.functionDecls, laters, firsts]

/-- What each item reports as a clash, the pass reports of all items. -/
theorem clashes_addItems (model : SymbolModel) (items : List Item) (kind : TableKind) :
    (items.foldlM addItem model).clashes kind = model.clashesOf items kind := by
  have step (model : SymbolModel) (item : Item) := clashes_addItem model item kind
  cases kind <;> simp only [SymbolModel.clashesOf, List.flatMap_singleton] at step ⊢
  case classes =>
    exact fills_classes.clashes_foldlM (consecutive_laters ClassDecl.clash) step items model
  case interfaces =>
    exact fills_interfaces.clashes_foldlM (consecutive_laters InterfaceDecl.clash) step items model
  case functions =>
    exact fills_functions.clashes_foldlM (consecutive_laters FunctionDecl.clash) step items model
  case globals =>
    exact fills_globals.clashes_foldlM (consecutive_laters GlobalDecl.clash) step items model
  case fields =>
    exact fills_classes.clashes_foldlM (consecutive_firsts fun decl =>
      (laters VarDecl.name [] decl.fields).map decl.fieldClash) step items model
  case methods =>
    exact fills_classes.clashes_foldlM (consecutive_firsts fun decl =>
      (laters (fun method => method.head.name) [] decl.methods).map decl.methodClash)
      step items model
  case heads =>
    exact fills_interfaces.clashes_foldlM (consecutive_firsts fun decl =>
      (laters FunctionHead.name [] decl.methods).map decl.methodClash) step items model

theorem clashes_cycleFindings (model : SymbolModel) (kind : TableKind) :
    (⟨model, cycleFindings model⟩ : Reported SymbolModel).clashes kind = [] :=
  Reported.clashes_of_lacks (lacks_cycleFindings model (fun _ => rfl) fun _ => rfl)

theorem foldl_add_of_taken {α δ : Type} [Named α] {entry : δ → α} {decls : List δ}
    {table : Table α} (taken : ∀ decl ∈ decls, entryName entry decl ∈ table.names) :
    (decls.map entry).foldl Table.add table = table := by
  induction decls with
  | nil => rfl
  | cons first rest inductionHypothesis =>
      have contained := mem_names_iff.mp (taken first List.mem_cons_self)
      rw [List.map_cons, List.foldl_cons, Table.add_of_contains contained]
      exact inductionHypothesis fun decl member => taken decl (List.mem_cons_of_mem _ member)

end Declarations

/-- Whether all names that an item declares are taken in the tables of a model. -/
structure Item.TakenIn (item : Item) (model : SymbolModel) : Prop where
  classes : ∀ decl ∈ item.classDecls, decl.name ∈ model.classes.names
  interfaces : ∀ decl ∈ item.interfaceDecls, decl.name ∈ model.interfaces.names
  functions : ∀ decl ∈ item.functionDecls, decl.head.name ∈ model.functions.names
  globals : ∀ decl ∈ item.globalDecls, decl.entity.name ∈ model.globals.names

/-- A declaration of a name that is taken leaves the tables as they are. -/
theorem Item.TakenIn.value_addItem {item : Item} {model : SymbolModel} (taken : item.TakenIn model) :
    (addItem model item).value = model := by
  rw [Declarations.value_addItem, foldl_add_of_taken taken.classes,
    foldl_add_of_taken taken.interfaces, foldl_add_of_taken taken.functions,
    foldl_add_of_taken taken.globals]

/-- A model and findings are those of the first declarations of each name. -/
structure SymbolModel.TakesFirst (items : List Item) (collected : Reported SymbolModel) : Prop where
  classes : collected.value.classes.entries =
    (firsts ClassDecl.name [] (items.flatMap Item.classDecls)).map ClassDecl.record
  interfaces : collected.value.interfaces.entries =
    (firsts InterfaceDecl.name [] (items.flatMap Item.interfaceDecls)).map InterfaceDecl.record
  functions : collected.value.functions.entries = Builtin.all.map Builtin.record ++
    (firsts (fun decl => decl.head.name) (Builtin.all.map Builtin.name)
      (items.flatMap Item.functionDecls)).map FunctionDecl.record
  globals : collected.value.globals.entries =
    (firsts (fun decl => decl.entity.name) [] (items.flatMap Item.globalDecls)).map
      GlobalDecl.entity
  clashes : ∀ kind, collected.clashes kind = SymbolModel.withBuiltins.clashesOf items kind

theorem SymbolModel.takesFirst_ofPrograms (programs : List Program) :
    TakesFirst (programs.flatMap Program.items) (ofPrograms programs) := by
  rw [ofPrograms_eq]
  constructor
  · exact fills_classes.entries_foldlM _ withBuiltins
  · exact fills_interfaces.entries_foldlM _ withBuiltins
  · exact fills_functions.entries_foldlM _ withBuiltins
  · exact fills_globals.entries_foldlM _ withBuiltins
  · intro kind
    have declared := clashes_addItems withBuiltins (programs.flatMap Program.items) kind
    rw [Reported.clashes_bind, declared, clashes_cycleFindings, List.append_nil]

/-- The first declaration of a name is taken and each later one reported once,
in the tables of all files and in those of every class and interface; and what
declares taken names only leaves the tables as they are. -/
theorem SymbolModel.first_declaration_wins (programs : List Program) :
    TakesFirst (programs.flatMap Program.items) (ofPrograms programs) ∧
      (∀ (decl : ClassDecl),
        decl.record.fields.entries = (firsts VarDecl.name [] decl.fields).map unslotted ∧
        decl.record.methods.entries =
          (firsts (fun method => method.head.name) [] decl.methods).map decl.methodRecord) ∧
      (∀ (decl : InterfaceDecl), decl.record.methods.entries =
        (firsts FunctionHead.name [] decl.methods).map FunctionHead.record) ∧
      ∀ (model : SymbolModel) (item : Item), item.TakenIn model →
        (addItem model item).value = model :=
  ⟨takesFirst_ofPrograms programs, fun decl => ⟨decl.entries_fields, decl.entries_methods⟩,
    fun decl => decl.entries_methods, fun _ _ taken => taken.value_addItem⟩

/-- A file in which a name clashes in every table of the model. -/
def clashingFile : SourceFile :=
  ⟨"clash.kn", "class C \x7b int x; bool x; \x7d interface I \x7b fn m(): int; fn m(): void; \x7d " ++
    "enum E \x7b a, b, a \x7d int b; class C \x7b int y; int y; \x7d fn print(): void \x7b \x7d"⟩

/-- Each later declaration of the file is reported once, but for the field of
the class that is not taken; and a function of the name of a builtin one leaves
the model as it is. -/
theorem SymbolModel.first_declaration_wins_clashingFile :
    (∃ programs, readFiles [clashingFile] = .ok programs ∧
      TakesFirst (programs.flatMap Program.items) (ofPrograms programs) ∧
      (ofPrograms programs).findings.map Finding.problem =
        [.duplicateField "x" "C", .duplicateInterfaceMethod "m" "I", .duplicateEnumMember "a" "E",
          .duplicateVariable "b", .duplicateClass "C", .duplicateFunction "print"]) ∧
    (∀ decl : FunctionDecl, decl.head.name = "print" →
      (addItem withBuiltins (.function decl)).value = withBuiltins) := by
  have found : readWith (fun programs => (ofPrograms programs).findings.map Finding.problem =
      [.duplicateField "x" "C", .duplicateInterfaceMethod "m" "I", .duplicateEnumMember "a" "E",
        .duplicateVariable "b", .duplicateClass "C", .duplicateFunction "print"])
      [clashingFile] = true :=
    readWith_of_letters (.cons (.append .literal .literal) .nil) (by decide +kernel)
  rcases exists_of_readWith found with ⟨programs, read, problems⟩
  simp only [decide_eq_true_eq] at problems
  rcases first_declaration_wins programs with ⟨takes, -, -, unchanged⟩
  refine ⟨⟨programs, read, takes, problems⟩, fun decl named => ?_⟩
  have taken : decl.head.name ∈ withBuiltins.functions.names := by
    rw [named]
    decide +kernel
  refine unchanged withBuiltins (.function decl) ?_
  constructor <;> simp [Item.classDecls, Item.interfaceDecls, Item.functionDecls, Item.globalDecls,
    taken]

end KnightFront
