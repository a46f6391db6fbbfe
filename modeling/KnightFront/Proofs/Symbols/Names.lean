import KnightFront.Proofs.Symbols.Closed

namespace KnightFront

/-!
# Names that are declared

The names that a file declares, wherever they are in reach, and what the first
pass takes of them: every name in a symbol model is declared in a file or is
that of a builtin function.  A name that no file declares is found nowhere.
-/

namespace Stmt

mutual

/-- The names of the locals in a statement. -/
def declaredNames : Stmt → List String
  | varDecl _ decl => [decl.name]
  | ifThen _ _ body => declaredNames body
  | ifElse _ _ body alternative => declaredNames body ++ declaredNames alternative
  | whileLoop _ _ body => declaredNames body
  | forLoop _ init _ _ body _ => init.name :: declaredNames body
  | block _ stmts _ => declaredNamesOfList stmts
  | assign _ | fieldAssign .. | call .. | ret .. => []

/-- The names of the locals in statements. -/
def declaredNamesOfList : List Stmt → List String
  | [] => []
  | first :: rest => declaredNames first ++ declaredNamesOfList rest

end

end Stmt

/-- The names that a head declares. -/
def FunctionHead.declaredNames (head : FunctionHead) : List String :=
  head.name :: head.params.map Param.name

/-- The names that a function declares, inside and outside. -/
def FunctionDecl.declaredNames (decl : FunctionDecl) : List String :=
  decl.head.declaredNames ++ Stmt.declaredNamesOfList decl.body

/-- The names that a declaration declares, inside and outside. -/
def Item.declaredNames : Item → List String
  | inclusion _ => []
  | enumeration decl => decl.name :: decl.members.map Prod.fst
  | interface decl => decl.name :: decl.methods.flatMap FunctionHead.declaredNames
  | classDecl decl =>
      decl.name :: decl.fields.map VarDecl.name ++ decl.methods.flatMap FunctionDecl.declaredNames
  | function decl => decl.declaredNames
  | globalVariable decl => [decl.name]

/-- The names that a file declares. -/
def Program.declaredNames (program : Program) : List String :=
  program.items.flatMap Item.declaredNames

/-- The names in a model, other than those of parameters and locals, are among
some names. -/
structure SymbolModel.Names (allowed : String → Prop) (model : SymbolModel) : Prop where
  classes : ∀ record ∈ model.classes.entries, allowed record.name
  fields : ∀ record ∈ model.classes.entries, ∀ entity ∈ record.fields.entries, allowed entity.name
  methods : ∀ record ∈ model.classes.entries, ∀ method ∈ record.methods.entries,
    allowed method.name
  interfaces : ∀ record ∈ model.interfaces.entries, allowed record.name
  interfaceMethods : ∀ record ∈ model.interfaces.entries, ∀ method ∈ record.methods.entries,
    allowed method.name
  functions : ∀ record ∈ model.functions.entries, allowed record.name
  globals : ∀ entity ∈ model.globals.entries, allowed entity.name

variable {allowed : String → Prop}

/-- A table of other names does not find a name. -/
theorem Table.find?_eq_none_of_names {α : Type} [Named α] {table : Table α} {name : String}
    (names : ∀ entry ∈ table.entries, allowed (Named.nameOf entry)) (unknown : ¬ allowed name) :
    table.find? name = none := by
  cases found : table.find? name with
  | none => rfl
  | some entry =>
      exact absurd (nameOf_of_find? found ▸ names entry (mem_of_find? found)) unknown

theorem Table.contains_eq_false_of_names {α : Type} [Named α] {table : Table α} {name : String}
    (names : ∀ entry ∈ table.entries, allowed (Named.nameOf entry)) (unknown : ¬ allowed name) :
    table.contains name = false := by
  rw [contains, find?_eq_none_of_names names unknown]
  rfl

namespace SymbolModel.Names

variable {model : SymbolModel} {name : String}

/-- Owners whose members have other names have no member of a name. -/
private theorem findSome?_eq_none {α β : Type} [Named β] {owners : List α} {members : α → Table β}
    (names : ∀ owner ∈ owners, ∀ entry ∈ (members owner).entries, allowed (Named.nameOf entry))
    (unknown : ¬ allowed name) :
    (owners.findSome? fun owner => ((members owner).find? name).map fun entry => (owner, entry)) =
      none := by
  refine List.findSome?_eq_none_iff.mpr fun owner member => ?_
  rw [Table.find?_eq_none_of_names (names owner member) unknown, Option.map_none]

/-- No class has a field of an unknown name, not even from an ancestor. -/
theorem findField? (names : model.Names allowed) (unknown : ¬ allowed name) (owner : String) :
    model.findField? owner name = none :=
  findSome?_eq_none (fun record inChain => names.fields record (mem_chainWithin _ _ inChain)) unknown

/-- No class has a method of an unknown name, not even from an ancestor. -/
theorem findMethod? (names : model.Names allowed) (unknown : ¬ allowed name) (owner : String) :
    model.findMethod? owner name = none :=
  findSome?_eq_none (fun record inChain => names.methods record (mem_chainWithin _ _ inChain)) unknown

/-- No interface has a method of an unknown name, not even from one that it
extends. -/
theorem findInterfaceMethod? (names : model.Names allowed) (unknown : ¬ allowed name)
    (owner : String) : model.findInterfaceMethod? owner name = none :=
  findSome?_eq_none
    (fun record inClosure => names.interfaceMethods record (mem_closureWithin _ _ inClosure)) unknown

end SymbolModel.Names

namespace Declarations

variable {model : SymbolModel}

/-- Folding entries into a table adds their names only. -/
theorem names_foldlM {α β : Type} [Named α] {pass : Table α → β → Reported (Table α)}
    {parts : List β} (step : ∀ table, ∀ part ∈ parts, ∃ entry, (pass table part).value =
      table.add entry ∧ allowed (Named.nameOf entry)) :
    ∀ entry ∈ (parts.foldlM pass .empty).value.entries, allowed (Named.nameOf entry) := by
  apply Reported.value_foldlM_of_invariant
    (fun table : Table α => ∀ entry ∈ table.entries, allowed (Named.nameOf entry))
  · exact nofun
  · intro table holds part member entry present
    rcases step table part member with ⟨added, isAdded, fine⟩
    rw [isAdded] at present
    rcases mem_entries_add present with same | old
    · exact same ▸ fine
    · exact holds entry old

theorem names_addClass {decl : ClassDecl} (names : model.Names allowed)
    (declared : ∀ name ∈ (Item.classDecl decl).declaredNames, allowed name) :
    (addClass model decl).value.Names allowed := by
  unfold addClass
  split
  next => exact names
  next =>
    refine { names with classes := ?_, fields := ?_, methods := ?_ }
    · intro record member
      rcases mem_entries_add member with rfl | old
      · exact declared _ List.mem_cons_self
      · exact names.classes record old
    · intro record member
      rcases mem_entries_add member with rfl | old
      · refine names_foldlM fun table field listed => ⟨_, rfl, declared _ ?_⟩
        exact List.mem_append_left _ (List.mem_cons_of_mem _ (List.mem_map_of_mem listed))
      · exact names.fields record old
    · intro record member
      rcases mem_entries_add member with rfl | old
      · refine names_foldlM fun table method listed => ⟨_, rfl, declared _ ?_⟩
        exact List.mem_append_right _ (List.mem_flatMap.mpr ⟨method, listed, List.mem_cons_self⟩)
      · exact names.methods record old

theorem names_addInterface {decl : InterfaceDecl} (names : model.Names allowed)
    (declared : ∀ name ∈ (Item.interface decl).declaredNames, allowed name) :
    (addInterface model decl).value.Names allowed := by
  unfold addInterface
  split
  next => exact names
  next =>
    refine { names with interfaces := ?_, interfaceMethods := ?_ }
    · intro record member
      rcases mem_entries_add member with rfl | old
      · exact declared _ List.mem_cons_self
      · exact names.interfaces record old
    · intro record member
      rcases mem_entries_add member with rfl | old
      · refine names_foldlM fun table head listed => ⟨_, rfl, declared _ ?_⟩
        exact List.mem_cons_of_mem _ (List.mem_flatMap.mpr ⟨head, listed, List.mem_cons_self⟩)
      · exact names.interfaceMethods record old

theorem names_addGlobal {entity : Variable} (names : model.Names allowed)
    (declared : allowed entity.name) : (model.addGlobal entity).Names allowed := by
  refine { names with globals := fun other member => ?_ }
  rcases mem_entries_add member with rfl | old
  · exact declared
  · exact names.globals other old

theorem names_addFunction {record : FunctionRecord} (names : model.Names allowed)
    (declared : allowed record.name) : (model.addFunction record).Names allowed := by
  refine { names with functions := fun other member => ?_ }
  rcases mem_entries_add member with rfl | old
  · exact declared
  · exact names.functions other old

/-- A declaration adds the names that it declares. -/
theorem names_addItem {item : Item} (names : model.Names allowed)
    (declared : ∀ name ∈ item.declaredNames, allowed name) :
    (addItem model item).value.Names allowed := by
  cases item with
  | inclusion => exact names
  | enumeration decl =>
      refine Reported.value_foldlM_of_invariant (SymbolModel.Names allowed) names
        fun model names member listed => names_addGlobal names (declared _ ?_)
      exact List.mem_cons_of_mem _ (List.mem_map_of_mem listed)
  | interface decl => exact names_addInterface names declared
  | classDecl decl => exact names_addClass names declared
  | function decl => exact names_addFunction names (declared _ List.mem_cons_self)
  | globalVariable decl => exact names_addGlobal names (declared _ (List.mem_singleton_self _))

end Declarations

/-- The names in the model of files are those of builtin functions and those
that the files declare. -/
theorem SymbolModel.names_ofPrograms {programs : List Program}
    (builtin : ∀ builtin ∈ Builtin.all, allowed builtin.name)
    (declared : ∀ program ∈ programs, ∀ name ∈ program.declaredNames, allowed name) :
    (ofPrograms programs).value.Names allowed := by
  have start : withBuiltins.Names allowed := by
    have listed : withBuiltins.functions.entries = Builtin.all.map Builtin.record := rfl
    refine ⟨nofun, nofun, nofun, nofun, nofun, fun record member => ?_, nofun⟩
    rw [listed] at member
    rcases List.mem_map.mp member with ⟨entry, isBuiltin, rfl⟩
    exact builtin entry isBuiltin
  refine ofPrograms_of_invariant (Names allowed) start ?_
  intro model names program inFiles item member
  refine Declarations.names_addItem names fun name isName => declared program inFiles name ?_
  exact List.mem_flatMap.mpr ⟨item, member, isName⟩

end KnightFront
