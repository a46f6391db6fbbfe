import KnightFront.Proofs.Relabelling.Apart

namespace KnightFront

/-!
# What files find in a model with other declarations

Files that speak of some names declare nothing else, so what they make of the
builtin functions of these names is a model that speaks of these names only.  In
every model that agrees with it on the names, lookups on behalf of the files find
what they find in the small model: if all other names are moved out of the way,
nothing else can be found.
-/

variable {names : List String} {move : String → String}

/-- A list stays if each of its members does. -/
theorem map_eq_self {α : Type} {step : α → α} {list : List α}
    (stays : ∀ member ∈ list, step member = member) : list.map step = list := by
  rw [List.map_congr_left stays, List.map_id']

/-- The relabelling that changes names and nothing else. -/
def Relabelling.ofNames (move : String → String) : Relabelling := ⟨move, id, id, id⟩

/-- The relabelling that changes names and drops the hidden ones. -/
def Relabelling.veiled (move : String → String) : Relabelling := ⟨move, fun _ => "", id, id⟩

theorem Relabelling.lawful_ofNames (injective : Function.Injective move) :
    (ofNames move).Lawful := ⟨injective, fun _ => rfl⟩

theorem Relabelling.lawful_veiled (injective : Function.Injective move) :
    (veiled move).Lawful := ⟨injective, fun _ => rfl⟩

@[simp]
theorem Relabelling.mask_ofNames : (ofNames move).mask = identity := rfl

theorem Ty.relabel_veiled : Ty.relabel (.veiled move) = Ty.relabel (.ofNames move) := by
  funext ty
  cases ty <;> rfl

theorem Variable.relabel_veiled :
    Variable.relabel (.veiled move) = Variable.relabel (.ofNames move) := by
  funext entity
  rw [relabel, Ty.relabel_veiled]
  rfl

/-- A record that corresponds to itself when hidden names are dropped has no other
names in it, so it corresponds to itself with its hidden names. -/
theorem FunctionRecord.Alike.unveiled {record : FunctionRecord}
    (alike : record.Alike (.veiled move) record) : record.Alike (.ofNames move) record where
  name := alike.name
  signature := by
    obtain ⟨parameters, returns⟩ := Signature.types_of_masked alike.signature
    have each : ∀ parameter ∈ record.signature.parameters,
        parameter.2.relabel (.ofNames move) = parameter.2 := by
      rw [Signature.parameterTys, List.map_map, List.map_inj_left] at parameters
      exact fun parameter member => (Ty.relabel_veiled ▸ parameters parameter member).symm
    rw [Ty.relabel_veiled] at returns
    have types : record.signature.parameters.map (fun parameter =>
        (parameter.1, parameter.2.relabel (.ofNames move))) = record.signature.parameters :=
      map_eq_self fun parameter member => Prod.ext rfl (each parameter member)
    rw [Relabelling.mask_ofNames, Signature.relabel_identity]
    exact (congrArg₂ Signature.mk types returns.symm).symm

theorem FunctionRecord.Moved.unveiled {record : FunctionRecord}
    (moved : record.Moved (.veiled move) record) : record.Moved (.ofNames move) record :=
  ⟨moved.toAlike.unveiled, rfl⟩

theorem ClassRecord.Alike.unveiled {record : ClassRecord}
    (alike : record.Alike (.veiled move) record) : record.Alike (.ofNames move) record where
  name := alike.name
  owner := rfl
  parent := alike.parent
  fields := Variable.relabel_veiled ▸ alike.fields
  methods := List.forall₂_same.mpr fun method member =>
    (List.forall₂_same.mp alike.methods method member).unveiled
  position := rfl

theorem InterfaceRecord.Alike.unveiled {record : InterfaceRecord}
    (alike : record.Alike (.veiled move) record) : record.Alike (.ofNames move) record where
  name := alike.name
  owner := rfl
  methods := List.forall₂_same.mpr fun method member =>
    (List.forall₂_same.mp alike.methods method member).unveiled
  bases := alike.bases
  position := rfl

/-- An interface whose bases are among those that are kept has them in the same
order. -/
theorem InterfaceRecord.Alike.ordered_of_avoids {record : InterfaceRecord} {avoided : List String}
    (alike : record.Alike (.veiled move) record) (moves : MovesApart names avoided move)
    (listed : record.bases.names ⊆ avoided) : record.Ordered (.ofNames move) record where
  toAlike := alike.unveiled
  orderedBases := by
    refine (map_eq_self fun base member => moves.keeps base (moves.mem_kept ?_)).symm
    exact listed ((alike.bases _).mpr ⟨base, member, rfl⟩)
  orderedMethods := by
    refine List.forall₂_same.mpr fun method member => ?_
    exact List.forall₂_same.mp alike.unveiled.methods method (List.mem_mergeSort.mp member)

/-- Options are related by a function if the second one is the image. -/
theorem eq_map_of_rel {α β : Type} {image : α → β} {option : Option α} {other : Option β}
    (rel : Option.Rel (fun value partner => partner = image value) option other) :
    other = option.map image := by
  cases rel with
  | none => rfl
  | some same => exact congrArg some same

/-- The names of a model's entries and of the interfaces that are extended are on a
list. -/
structure SymbolModel.ListedIn (listed : List String) (model : SymbolModel) : Prop where
  classes : ∀ record ∈ model.classes.entries, record.name ∈ listed
  interfaces : ∀ record ∈ model.interfaces.entries, record.name ∈ listed
  functions : ∀ record ∈ model.functions.entries, record.name ∈ listed
  globals : ∀ entity ∈ model.globals.entries, entity.name ∈ listed
  bases : ∀ record ∈ model.interfaces.entries, record.bases.names ⊆ listed

theorem SymbolModel.ListedIn.mono {listed more : List String} {model : SymbolModel}
    (names : model.ListedIn listed) (subset : listed ⊆ more) : model.ListedIn more where
  classes := fun record member => subset (names.classes record member)
  interfaces := fun record member => subset (names.interfaces record member)
  functions := fun record member => subset (names.functions record member)
  globals := fun entity member => subset (names.globals entity member)
  bases := fun record member _ extended => subset (names.bases record member extended)

theorem SymbolModel.exists_listedIn (model : SymbolModel) : ∃ listed, model.ListedIn listed := by
  refine ⟨model.classes.entries.map ClassRecord.name ++
    (model.interfaces.entries.map InterfaceRecord.name ++
      (model.functions.entries.map FunctionRecord.name ++
        (model.globals.entries.map Variable.name ++
          model.interfaces.entries.flatMap fun record => record.bases.names))), ?_⟩
  constructor <;> grind [List.Subset]

/-- What is found in one model is found in another, whatever becomes of other
names. -/
structure SymbolModel.FoundIn (change : Relabelling) (model other : SymbolModel) : Prop where
  alike : model.Alike change other
  interfaces : FindsAlike change (InterfaceRecord.Ordered change) model.interfaces.entries
    other.interfaces.entries

/-- A table of some names finds what a table finds that agrees with it, if other
names are moved out of the way. -/
theorem Table.findsAlike_of_agrees {α : Type} [Named α] {related : α → α → Prop}
    {table other : Table α} {avoided : List String} (moves : MovesApart names avoided move)
    (only : Table.empty.AgreesOn (· ∉ names) table) (agrees : table.AgreesOn (· ∈ names) other)
    (listed : ∀ entry ∈ other.entries, Named.nameOf entry ∈ avoided)
    (related_self : ∀ entry ∈ table.entries, entry ∈ other.entries → related entry entry) :
    FindsAlike (.ofNames move) related table.entries other.entries := by
  intro name
  change Option.Rel related (table.find? name) (other.find? (move name))
  by_cases isKept : name ∈ names
  · have same := agrees name isKept
    rw [moves.keeps name isKept, same]
    cases found : table.find? name with
    | none => exact .none
    | some entry =>
        exact .some (related_self entry (mem_of_find? found) (mem_of_find? (same.trans found)))
  · have missing : other.find? (move name) = none := by
      cases found : other.find? (move name) with
      | none => rfl
      | some entry =>
          refine absurd (moves.mem_kept ?_) isKept
          exact nameOf_of_find? found ▸ listed entry (mem_of_find? found)
    rw [only name isKept, missing]
    exact .none

/-- A model that speaks of some names only is found in every model that agrees with
it on these. -/
theorem SymbolModel.foundIn_of_agrees {model other : SymbolModel} {avoided : List String}
    (moves : MovesApart names avoided move) (listed : other.ListedIn avoided)
    (corresponds : model.Corresponds (.veiled move) model)
    (only : SymbolModel.empty.AgreesOn (· ∉ names) model)
    (agrees : model.AgreesOn (· ∈ names) other) : model.FoundIn (.ofNames move) other := by
  have classes : FindsAlike (.ofNames move) (ClassRecord.Alike (.ofNames move))
      model.classes.entries other.classes.entries :=
    Table.findsAlike_of_agrees moves only.classes agrees.classes listed.classes
      fun record member _ => (List.forall₂_same.mp corresponds.classes record member).unveiled
  have interfaces : FindsAlike (.ofNames move) (InterfaceRecord.Ordered (.ofNames move))
      model.interfaces.entries other.interfaces.entries :=
    Table.findsAlike_of_agrees moves only.interfaces agrees.interfaces listed.interfaces
      fun record member present =>
        (List.forall₂_same.mp corresponds.interfaces record member).ordered_of_avoids moves
          (listed.bases record present)
  have functions : FindsAlike (.ofNames move) (FunctionRecord.Alike (.ofNames move))
      model.functions.entries other.functions.entries :=
    Table.findsAlike_of_agrees moves only.functions agrees.functions listed.functions
      fun record member _ => (List.forall₂_same.mp corresponds.functions record member).unveiled
  have globals : FindsAlike (.ofNames move)
      (fun entity partner => partner = entity.relabel (.ofNames move)) model.globals.entries
      other.globals.entries := by
    refine Table.findsAlike_of_agrees moves only.globals agrees.globals listed.globals
      fun entity member _ => ?_
    have stays := forall₂_eq_map.mpr (Variable.relabel_veiled ▸ corresponds.globals)
    exact List.forall₂_same.mp stays entity member
  exact {
    alike := {
      classes := classes
      interfaces := fun name => isSome_eq_of_rel (interfaces name)
      interfaceMethods := inheritsAlong moves.injective interfaces
      functions := functions
      globals := fun name => eq_map_of_rel (globals name) }
    interfaces }

namespace SymbolModel

/-- The builtin functions of some names. -/
def builtinsAmong (names : List String) : SymbolModel :=
  { empty with functions := withBuiltins.functions.among names }

theorem agreesOn_builtinsAmong (names : List String) :
    (builtinsAmong names).AgreesOn (· ∈ names) withBuiltins :=
  ⟨.refl _, .refl _, .among names _, .refl _⟩

theorem empty_agreesOn_builtinsAmong (names : List String) :
    empty.AgreesOn (· ∉ names) (builtinsAmong names) :=
  ⟨.refl _, .refl _, .empty_among names _, .refl _⟩

/-- The builtin functions of names that stay correspond to themselves. -/
theorem corresponds_builtinsAmong {change : Relabelling}
    (keeps : ∀ name ∈ names, change.name name = name) :
    (builtinsAmong names).Corresponds change (builtinsAmong names) := by
  refine ⟨.nil, .nil, List.forall₂_same.mpr fun record member => ?_, rfl⟩
  obtain ⟨listed, isKept⟩ := List.mem_filter.mp member
  rw [entries_withBuiltins] at listed
  obtain ⟨builtin, isBuiltin, rfl⟩ := List.mem_map.mp listed
  exact builtin.alike_record isBuiltin (keeps _ (of_decide_eq_true isKept))

/-- What files make of the builtin functions of some names. -/
def confined (names : List String) (programs : List Program) : SymbolModel :=
  ((programs.flatMap Program.items).foldlM Declarations.addItem (builtinsAmong names)).value

section Confined

variable {programs : List Program} (speaks : ∀ program ∈ programs, program.SpeaksOf names)

include speaks

theorem topNames_mem {item : Item} (member : item ∈ programs.flatMap Program.items) :
    ∀ name ∈ item.topNames, name ∈ names := by
  obtain ⟨program, inFiles, declares⟩ := List.mem_flatMap.mp member
  intro name isName
  exact (speaks program inFiles).topNames_subset (List.mem_flatMap.mpr ⟨item, declares, isName⟩)

/-- What files that speak of some names declare speaks of these names only. -/
theorem corresponds_confined {avoided : List String} (moves : MovesApart names avoided move) :
    (confined names programs).Corresponds (.veiled move) (confined names programs) := by
  have stays : programs.map (Program.relabel (.veiled move)) = programs :=
    map_eq_self fun program member => speaks program member _ ⟨moves.keeps, rfl, rfl⟩
  have collected := (alike_addItems (Relabelling.lawful_veiled moves.injective)
    (Relabelling.discreet_of_hidden fun _ => rfl) (corresponds_builtinsAmong moves.keeps)
    programs).value
  rw [stays] at collected
  exact collected

theorem empty_agreesOn_confined : empty.AgreesOn (· ∉ names) (confined names programs) :=
  (empty_agreesOn_builtinsAmong names).trans <|
    Declarations.agreesOn_addItems _ fun _ member name isName =>
      not_not_intro (topNames_mem speaks member name isName)

/-- Beginning with all builtin functions makes no difference to the names. -/
theorem confined_agreesOn : (confined names programs).AgreesOn (· ∈ names)
    ((programs.flatMap Program.items).foldlM Declarations.addItem withBuiltins).value :=
  (Declarations.alike_addItems_of_agrees (agreesOn_builtinsAmong names)
    fun _ member => topNames_mem speaks member).value

/-- Names can be moved so that what files declare is found in two models that agree
with it on the names. -/
theorem exists_foundIn {first second : SymbolModel}
    (agrees : (confined names programs).AgreesOn (· ∈ names) first)
    (further : first.AgreesOn (· ∈ names) second) :
    ∃ move, Function.Injective move ∧ (Relabelling.ofNames move).Keeps names ∧
      (confined names programs).FoundIn (.ofNames move) first ∧
      (confined names programs).FoundIn (.ofNames move) second := by
  obtain ⟨listed, isListed⟩ := first.exists_listedIn
  obtain ⟨listed', isListed'⟩ := second.exists_listedIn
  obtain ⟨move, moves⟩ := exists_movesApart names (listed ++ listed')
  have corresponds := corresponds_confined speaks moves
  have only := empty_agreesOn_confined speaks
  refine ⟨move, moves.injective, ⟨moves.keeps, rfl, rfl⟩, ?_, ?_⟩
  · exact foundIn_of_agrees moves (isListed.mono (List.subset_append_left _ _)) corresponds only
      agrees
  · exact foundIn_of_agrees moves (isListed'.mono (List.subset_append_right _ _)) corresponds only
      (agrees.trans further)

end Confined

end SymbolModel

end KnightFront
