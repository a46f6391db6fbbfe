import KnightFront.Analysis.Declarations
import KnightFront.Proofs.Diagnostics.Absence

namespace KnightFront

/-!
# Closed symbol models

A symbol model speaks of types by name.  It is closed if every class or
interface type in it is declared in it too, and if no type in it is one that a
declaration cannot have.  The lookups in a closed model, whatever they find,
find declared types.

The first pass does not make a model closed: a file may declare a function of
an unknown type.  What a model holds comes from the heads, fields and global
variables of the files, so it is closed as soon as the types there are
declared.
-/

/-- A type that a declaration can have among the given declarations. -/
def Ty.Declared (known : SymbolModel) : Ty → Prop
  | named name => known.isTypeName name = true
  | function => False
  | error => False
  | _ => True

/-- A signature of declared types. -/
structure Signature.Declared (known : SymbolModel) (signature : Signature) : Prop where
  parameters : ∀ ty ∈ signature.parameterTys, ty.Declared known
  returnTy : signature.returnTy.Declared known

/-- A binding whose types are declared. -/
def Binding.Declared (known : SymbolModel) : Binding → Prop
  | localVariable entity => entity.ty.Declared known
  | parameter entity => entity.ty.Declared known
  | field _ entity => entity.ty.Declared known
  | globalVariable entity => entity.ty.Declared known
  | function _ _ signature => signature.Declared known
  | classType name => known.isTypeName name = true
  | interfaceType name => known.isTypeName name = true

/-- A model that speaks of declared types only.  The declarations are those of
another model, so that the property can be carried through the first pass. -/
structure SymbolModel.Within (known model : SymbolModel) : Prop where
  fields : ∀ record ∈ model.classes.entries, ∀ entity ∈ record.fields.entries,
    entity.ty.Declared known
  methods : ∀ record ∈ model.classes.entries, ∀ method ∈ record.methods.entries,
    method.signature.Declared known
  interfaceMethods : ∀ record ∈ model.interfaces.entries, ∀ method ∈ record.methods.entries,
    method.signature.Declared known
  functions : ∀ record ∈ model.functions.entries, record.signature.Declared known
  globals : ∀ entity ∈ model.globals.entries, entity.ty.Declared known

/-- A model that speaks only of types that it declares. -/
def SymbolModel.Closed (model : SymbolModel) : Prop := model.Within model

namespace SymbolModel

/-- The walk along parents meets declared classes. -/
theorem mem_chainWithin {record : ClassRecord} (unvisited : List ClassRecord) (name : String)
    (member : record ∈ chainWithin unvisited name) : record ∈ unvisited := by
  fun_induction chainWithin unvisited name with
  | case1 => simp at member
  | case2 unvisited name first found inductionHypothesis =>
      rcases List.mem_cons.mp member with same | behind
      · exact same ▸ List.mem_of_find?_eq_some found
      · cases hasParent : first.parent with
        | none => simp [hasParent] at behind
        | some parent =>
            rw [hasParent] at behind
            exact (List.mem_filter.mp (inductionHypothesis parent behind)).1

/-- The walk along extended interfaces meets declared interfaces. -/
theorem mem_closureWithin {record : InterfaceRecord} (unvisited : List InterfaceRecord)
    (pending : List String) (member : record ∈ closureWithin unvisited pending) :
    record ∈ unvisited := by
  fun_induction closureWithin unvisited pending with
  | case1 => simp at member
  | case2 unvisited name later missing inductionHypothesis => exact inductionHypothesis member
  | case3 unvisited name later first found inductionHypothesis =>
      rcases List.mem_cons.mp member with same | behind
      · exact same ▸ List.mem_of_find?_eq_some found
      · exact (List.mem_filter.mp (inductionHypothesis behind)).1

variable {model : SymbolModel} {name member : String}

/-- A field that is found belongs to a declared class. -/
theorem exists_of_findField? {owner : ClassRecord} {entity : Variable}
    (found : model.findField? name member = some (owner, entity)) :
    owner ∈ model.classes.entries ∧ entity ∈ owner.fields.entries := by
  rcases List.exists_of_findSome?_eq_some found with ⟨record, inChain, foundThere⟩
  rcases Option.map_eq_some_iff.mp foundThere with ⟨field, foundField, same⟩
  cases same
  exact ⟨mem_chainWithin _ _ inChain, Table.mem_of_find? foundField⟩

/-- A method that is found on a class belongs to a declared class. -/
theorem exists_of_findMethod? {owner : ClassRecord} {method : FunctionRecord}
    (found : model.findMethod? name member = some (owner, method)) :
    owner ∈ model.classes.entries ∧ method ∈ owner.methods.entries := by
  rcases List.exists_of_findSome?_eq_some found with ⟨record, inChain, foundThere⟩
  rcases Option.map_eq_some_iff.mp foundThere with ⟨found, foundMethod, same⟩
  cases same
  exact ⟨mem_chainWithin _ _ inChain, Table.mem_of_find? foundMethod⟩

/-- A method that is found on an interface belongs to a declared interface. -/
theorem exists_of_findInterfaceMethod? {owner : InterfaceRecord} {method : FunctionRecord}
    (found : model.findInterfaceMethod? name member = some (owner, method)) :
    owner ∈ model.interfaces.entries ∧ method ∈ owner.methods.entries := by
  rcases List.exists_of_findSome?_eq_some found with ⟨record, inClosure, foundThere⟩
  rcases Option.map_eq_some_iff.mp foundThere with ⟨found, foundMethod, same⟩
  cases same
  exact ⟨mem_closureWithin _ _ inClosure, Table.mem_of_find? foundMethod⟩

end SymbolModel

/-- The types in the head of a function. -/
def FunctionHead.tys (head : FunctionHead) : List Ty :=
  head.returnTy :: head.params.map Param.ty

/-- The types that a declaration brings into the model. -/
def Item.tys : Item → List Ty
  | inclusion _ => []
  | enumeration _ => []
  | interface decl => decl.methods.flatMap FunctionHead.tys
  | classDecl decl =>
      decl.fields.map VarDecl.ty ++ decl.methods.flatMap fun method => method.head.tys
  | function decl => decl.head.tys
  | globalVariable decl => [decl.ty]

namespace Declarations

variable {known model : SymbolModel}

/-- A signature has the types of its head. -/
theorem declared_signature {head : FunctionHead} (declared : ∀ ty ∈ head.tys, ty.Declared known) :
    (signature head).Declared known := by
  rw [FunctionHead.tys, List.forall_mem_cons] at declared
  refine ⟨?_, declared.1⟩
  simpa [Signature.parameterTys, signature] using declared.2

/-- What a table holds after adding to it is the new entry or an old one. -/
theorem mem_entries_add {α : Type} [Named α] {table : Table α} {entry member : α}
    (present : member ∈ (table.add entry).entries) : member = entry ∨ member ∈ table.entries := by
  cases taken : table.contains (Named.nameOf entry) with
  | true =>
      rw [Table.add_of_contains taken] at present
      exact Or.inr present
  | false =>
      rw [Table.entries_add_of_not_contains taken] at present
      rcases List.mem_append.mp present with old | new
      · exact Or.inr old
      · exact Or.inl (List.mem_singleton.mp new)

/-- The fields of a class have the types of their declarations. -/
theorem declared_fieldTable {decl : ClassDecl}
    (declared : ∀ field ∈ decl.fields, field.ty.Declared known) :
    ∀ entity ∈ (fieldTable decl).value.entries, entity.ty.Declared known := by
  apply Reported.value_foldlM_of_invariant
    (fun table : Table Variable => ∀ entity ∈ table.entries, entity.ty.Declared known)
  · intro entity member
    cases member
  · intro table holds field member entity present
    rcases mem_entries_add present with same | old
    · subst same
      exact declared field member
    · exact holds entity old

/-- The methods of a class have the signatures of their heads. -/
theorem declared_methodTable {decl : ClassDecl}
    (declared : ∀ method ∈ decl.methods, ∀ ty ∈ method.head.tys, ty.Declared known) :
    ∀ method ∈ (methodTable decl).value.entries, method.signature.Declared known := by
  apply Reported.value_foldlM_of_invariant
    (fun table : Table FunctionRecord => ∀ method ∈ table.entries, method.signature.Declared known)
  · intro method member
    cases member
  · intro table holds method member record present
    rcases mem_entries_add present with same | old
    · subst same
      exact declared_signature (declared method member)
    · exact holds record old

/-- The methods of an interface have the signatures of their heads. -/
theorem declared_headTable {decl : InterfaceDecl}
    (declared : ∀ head ∈ decl.methods, ∀ ty ∈ head.tys, ty.Declared known) :
    ∀ method ∈ (headTable decl).value.entries, method.signature.Declared known := by
  apply Reported.value_foldlM_of_invariant
    (fun table : Table FunctionRecord => ∀ method ∈ table.entries, method.signature.Declared known)
  · intro method member
    cases member
  · intro table holds head member record present
    rcases mem_entries_add present with same | old
    · subst same
      exact declared_signature (declared head member)
    · exact holds record old

/-- A class that is collected keeps a model within the declared types. -/
theorem within_addClass {decl : ClassDecl} (within : known.Within model)
    (declared : ∀ ty ∈ (Item.classDecl decl).tys, ty.Declared known) :
    known.Within (addClass model decl).value := by
  simp only [Item.tys, List.mem_append, List.mem_map, List.mem_flatMap] at declared
  unfold addClass
  split
  next => exact within
  next =>
    refine ⟨?_, ?_, within.interfaceMethods, within.functions, within.globals⟩
    · intro record member
      rcases mem_entries_add member with same | old
      · subst same
        exact declared_fieldTable fun field listed => declared _ (Or.inl ⟨field, listed, rfl⟩)
      · exact within.fields record old
    · intro record member
      rcases mem_entries_add member with same | old
      · subst same
        exact declared_methodTable fun method listed ty inHead =>
          declared ty (Or.inr ⟨method, listed, inHead⟩)
      · exact within.methods record old

/-- An interface that is collected keeps a model within the declared types. -/
theorem within_addInterface {decl : InterfaceDecl} (within : known.Within model)
    (declared : ∀ ty ∈ (Item.interface decl).tys, ty.Declared known) :
    known.Within (addInterface model decl).value := by
  simp only [Item.tys, List.mem_flatMap] at declared
  unfold addInterface
  split
  next => exact within
  next =>
    refine ⟨within.fields, within.methods, ?_, within.functions, within.globals⟩
    intro record member
    rcases mem_entries_add member with same | old
    · subst same
      exact declared_headTable fun head listed ty inHead => declared ty ⟨head, listed, inHead⟩
    · exact within.interfaceMethods record old

/-- A global variable of a declared type keeps a model within the declared
types. -/
theorem within_addGlobal {entity : Variable} (within : known.Within model)
    (declared : entity.ty.Declared known) : known.Within (model.addGlobal entity) := by
  refine ⟨within.fields, within.methods, within.interfaceMethods, within.functions, ?_⟩
  intro other member
  rcases mem_entries_add member with same | old
  · exact same ▸ declared
  · exact within.globals other old

/-- A function of a declared signature keeps a model within the declared
types. -/
theorem within_addFunction {record : FunctionRecord} (within : known.Within model)
    (declared : record.signature.Declared known) : known.Within (model.addFunction record) := by
  refine ⟨within.fields, within.methods, within.interfaceMethods, ?_, within.globals⟩
  intro other member
  rcases mem_entries_add member with same | old
  · exact same ▸ declared
  · exact within.functions other old

/-- A declaration of declared types keeps a model within them. -/
theorem within_addItem {item : Item} (within : known.Within model)
    (declared : ∀ ty ∈ item.tys, ty.Declared known) : known.Within (addItem model item).value := by
  cases item with
  | inclusion => exact within
  | enumeration decl =>
      exact Reported.value_foldlM_of_invariant (fun model => known.Within model) within
        fun model within member _ => within_addGlobal within trivial
  | interface decl => exact within_addInterface within declared
  | classDecl decl => exact within_addClass within declared
  | function decl => exact within_addFunction within (declared_signature declared)
  | globalVariable decl => exact within_addGlobal within (declared _ (List.mem_singleton_self _))

end Declarations

/-- The first pass takes the declarations of all files one after another, and
cycles come last. -/
theorem SymbolModel.ofPrograms_eq (programs : List Program) :
    ofPrograms programs =
      (programs.flatMap Program.items).foldlM Declarations.addItem withBuiltins >>= fun model =>
        ⟨model, Declarations.cycleFindings model⟩ := by
  have reads (files : List Program) : ∀ pass : DeclarationPass,
      let after := files.foldl DeclarationPass.read pass
      let collected := (files.flatMap Program.items).foldlM Declarations.addItem pass.model
      after.model = collected.value ∧ after.findings = pass.findings ++ collected.findings := by
    induction files with
    | nil => exact fun pass => ⟨rfl, (List.append_nil _).symm⟩
    | cons first rest inductionHypothesis =>
        intro pass
        dsimp only
        rw [List.foldl_cons, List.flatMap_cons, List.foldlM_append]
        rcases inductionHypothesis (pass.read first) with ⟨model, findings⟩
        exact ⟨model, findings.trans (List.append_assoc _ _ _)⟩
  rcases reads programs .start with ⟨model, findings⟩
  refine Reported.ext model ?_
  rw [Reported.findings_bind, ofPrograms, DeclarationPass.result, model, findings]
  rfl

/-- The findings behind all declarations are cycles. -/
theorem Declarations.lacks_cycleFindings (model : SymbolModel) {kind : Problem → Bool}
    (classes : ∀ name, kind (.cyclicInheritance name) = false)
    (interfaces : ∀ name, kind (.cyclicExtension name) = false) :
    (⟨model, cycleFindings model⟩ : Reported SymbolModel).Lacks kind := by
  intro finding member
  rcases List.mem_append.mp member with ofClass | ofInterface
  · rcases List.mem_map.mp ofClass with ⟨record, -, rfl⟩
    exact classes record.name
  · rcases List.mem_map.mp ofInterface with ⟨record, -, rfl⟩
    exact interfaces record.name

/-- What every declaration preserves holds of the model of files. -/
theorem SymbolModel.ofPrograms_of_invariant (invariant : SymbolModel → Prop)
    {programs : List Program} (holds : invariant withBuiltins)
    (preserved : ∀ model, invariant model → ∀ program ∈ programs, ∀ item ∈ program.items,
      invariant (Declarations.addItem model item).value) :
    invariant (ofPrograms programs).value := by
  rw [ofPrograms_eq]
  refine Reported.value_foldlM_of_invariant invariant holds fun model kept item member => ?_
  rcases List.mem_flatMap.mp member with ⟨program, inFiles, declares⟩
  exact preserved model kept program inFiles item declares

variable {known : SymbolModel}

/-- The builtin functions have declared types everywhere. -/
theorem SymbolModel.within_withBuiltins : known.Within .withBuiltins := by
  have builtins : ∀ record ∈ withBuiltins.functions.entries,
      record.signature.Declared known := by
    have listed : withBuiltins.functions.entries = Builtin.all.map Builtin.record := rfl
    intro record member
    rw [listed] at member
    rcases List.mem_map.mp member with ⟨builtin, isBuiltin, same⟩
    subst same
    simp only [Builtin.all, List.mem_cons, List.not_mem_nil, or_false] at isBuiltin
    rcases isBuiltin with rfl | rfl | rfl | rfl | rfl <;> constructor <;>
      simp [Builtin.record, Signature.parameterTys, Ty.Declared]
  refine ⟨?_, ?_, ?_, builtins, ?_⟩ <;> intro record member <;> cases member

/-- Files of declared types make a closed model. -/
theorem SymbolModel.closed_ofPrograms {programs : List Program}
    (declared : ∀ program ∈ programs, ∀ item ∈ program.items, ∀ ty ∈ item.tys,
      ty.Declared (ofPrograms programs).value) : (ofPrograms programs).value.Closed := by
  let known := (ofPrograms programs).value
  refine ofPrograms_of_invariant (fun model => known.Within model) within_withBuiltins ?_
  intro model within program inFiles item member
  exact Declarations.within_addItem within (declared program inFiles item member)

end KnightFront
