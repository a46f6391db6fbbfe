import KnightFront.Proofs.Relabelling.Models
import KnightFront.Proofs.Symbols.Closed

namespace KnightFront

/-!
# Declarations in relabelled programs

What relabelled programs declare corresponds entry by entry to what the
programs declare, and the findings are the same behind a mask.  Messages show
names of methods together with their class, and a relabelling must hide these or
leave them alone.
-/

variable {change : Relabelling}

/-- What a relabelling hides does not show whether names have been changed, not
even in the display name of a method. -/
structure Relabelling.Discreet (change : Relabelling) : Prop where
  name : ∀ name, change.hidden (change.name name) = change.hidden name
  method : ∀ owner name, change.hidden (change.name owner ++ "." ++ change.name name) =
    change.hidden (owner ++ "." ++ name)

/-- A relabelling that leaves names alone is discreet. -/
theorem Relabelling.discreet_of_name (unchanged : change.name = id) : change.Discreet :=
  ⟨fun _ => by rw [unchanged]; rfl, fun _ _ => by rw [unchanged]; rfl⟩

/-- A relabelling that drops all hidden names is discreet. -/
theorem Relabelling.discreet_of_hidden (dropped : ∀ name, change.hidden name = "") :
    change.Discreet :=
  ⟨fun _ => by rw [dropped, dropped], fun _ _ => by rw [dropped, dropped]⟩

/-- An interface with the relabelled name, methods and bases of another one.  The
bases are a set, and their order may change. -/
structure InterfaceRecord.Alike (change : Relabelling) (record other : InterfaceRecord) : Prop where
  name : other.name = change.name record.name
  owner : change.hidden other.name = change.hidden record.name
  methods : List.Forall₂ (FunctionRecord.Moved change) record.methods.entries other.methods.entries
  bases : ∀ base, base ∈ other.bases.names ↔ ∃ name ∈ record.bases.names, change.name name = base
  position : other.position = change.start record.position

/-- A model in which every entry of another one is relabelled, in the same
order. -/
structure SymbolModel.Corresponds (change : Relabelling) (model other : SymbolModel) : Prop where
  classes : List.Forall₂ (ClassRecord.Alike change) model.classes.entries other.classes.entries
  interfaces : List.Forall₂ (InterfaceRecord.Alike change) model.interfaces.entries
    other.interfaces.entries
  functions : List.Forall₂ (FunctionRecord.Alike change) model.functions.entries
    other.functions.entries
  globals : other.globals.entries = model.globals.entries.map (Variable.relabel change)

/-- Lists whose entries are images one by one. -/
theorem forall₂_eq_map {α β : Type} {image : α → β} {list : List α} {others : List β} :
    List.Forall₂ (fun entry other => other = image entry) list others ↔
      others = list.map image := by
  induction list generalizing others with
  | nil => simp
  | cons first rest inductionHypothesis => cases others <;> simp [inductionHypothesis]

namespace Table

variable {α : Type} [Named α] {related : α → α → Prop} {table other : Table α}
  (injective : Function.Injective change.name)
  (named : ∀ entry partner, related entry partner →
    Named.nameOf partner = change.name (Named.nameOf entry))
  (entries : List.Forall₂ related table.entries other.entries)

include injective named entries

theorem contains_relabel (name : String) :
    other.contains (change.name name) = table.contains name :=
  isSome_eq_of_rel (findsAlike_of_forall₂ injective named entries name)

/-- Adding corresponding entries keeps tables corresponding. -/
theorem forall₂_add {entry partner : α} (holds : related entry partner) :
    List.Forall₂ related (table.add entry).entries (other.add partner).entries := by
  have taken := contains_relabel injective named entries (Named.nameOf entry)
  rw [← named _ _ holds] at taken
  cases free : table.contains (Named.nameOf entry) with
  | true =>
      rw [add_of_contains free, add_of_contains (taken.trans free)]
      exact entries
  | false =>
      rw [entries_add_of_not_contains free, entries_add_of_not_contains (taken.trans free)]
      exact List.rel_append entries (.cons holds .nil)

end Table

namespace Declarations

open Reported (Alike alike_pure report reportIf)

section Reports

variable {position otherPosition : Position} {problem otherProblem : Problem}
  (moved : otherPosition = change.start position)
  (same : otherProblem.relabel change.mask = problem.relabel change)

include moved same

theorem alike_report :
    Alike (RelabelledBehind change) (fun _ _ => True) (report position problem)
      (report otherPosition otherProblem) :=
  ⟨trivial, by simp [RelabelledBehind, report, Finding.relabel, moved, same]⟩

theorem alike_reportIf {condition other : Bool} (conditions : other = condition) :
    Alike (RelabelledBehind change) (fun _ _ => True) (reportIf condition position problem)
      (reportIf other otherPosition otherProblem) := by
  subst conditions
  cases other with
  | false => exact alike_pure trivial
  | true => exact alike_report moved same

end Reports

/-- Adding corresponding entries to corresponding tables reports the same. -/
theorem alike_addEntry {α : Type} [Named α] {related : α → α → Prop} {table other : Table α}
    (injective : Function.Injective change.name)
    (named : ∀ entry partner, related entry partner →
      Named.nameOf partner = change.name (Named.nameOf entry))
    (entries : List.Forall₂ related table.entries other.entries) {entry partner : α}
    (holds : related entry partner) {position otherPosition : Position}
    {problem otherProblem : Problem} (moved : otherPosition = change.start position)
    (same : otherProblem.relabel change.mask = problem.relabel change) :
    Alike (RelabelledBehind change)
      (fun table other => List.Forall₂ related table.entries other.entries)
      (addEntry table entry position problem)
      (addEntry other partner otherPosition otherProblem) := by
  have taken := Table.contains_relabel injective named entries (Named.nameOf entry)
  rw [← named _ _ holds] at taken
  exact (alike_reportIf moved same taken).returns (Table.forall₂_add injective named entries holds)

/-- Folding relabelled parts goes on with corresponding states. -/
theorem alike_foldlM_map {σ τ α β : Type} {tally : List Finding → List Finding → Prop} [Tally tally]
    {related : σ → τ → Prop} {pass : σ → α → Reported σ} {passOther : τ → β → Reported τ}
    {relabel : α → β}
    (each : ∀ state other, related state other → ∀ part,
      Alike tally related (pass state part) (passOther other (relabel part)))
    (parts : List α) {state : σ} {other : τ} (states : related state other) :
    Alike tally related (parts.foldlM pass state) ((parts.map relabel).foldlM passOther other) := by
  rw [List.foldlM_map]
  exact Reported.alike_foldlM (fun state other states part _ => each state other states part) states

section Functions

variable (injective : Function.Injective change.name)

include injective

theorem contains_map_name (names : List String) (name : String) :
    (names.map change.name).contains (change.name name) = names.contains name := by
  rw [Bool.eq_iff_iff, List.contains_iff_mem, List.contains_iff_mem,
    List.mem_map_of_injective injective]

variable {display otherDisplay : String}
  (displays : change.hidden otherDisplay = change.hidden display)

include displays

theorem alike_reportRepeatedParams (seen : List String) (params : List Param) :
    Alike (RelabelledBehind change) (fun _ _ => True) (reportRepeatedParams display seen params)
      (reportRepeatedParams otherDisplay (seen.map change.name)
        (params.map (Param.relabel change))) := by
  induction params generalizing seen with
  | nil => exact alike_pure trivial
  | cons first rest inductionHypothesis =>
      refine (alike_reportIf rfl ?_ ?_).andThen (inductionHypothesis (first.name :: seen))
      · simp [Problem.relabel, Param.relabel, displays]
      · exact contains_map_name injective seen first.name

/-- The names that a block has declared, relabelled.  What else is known of the
locals makes no difference to findings. -/
abbrev DeclaredAlike (change : Relabelling) :
    List String × LocalState → List String × LocalState → Prop :=
  fun found other => other.1 = found.1.map change.name

theorem alike_declareLocal (declared : List String) (state other : LocalState) (decl : VarDecl) :
    Alike (RelabelledBehind change) (DeclaredAlike change)
      (declareLocal display declared state decl)
      (declareLocal otherDisplay (declared.map change.name) other (decl.relabel change)) := by
  have taken : (declared.map change.name).contains (decl.relabel change).name =
      declared.contains decl.name := contains_map_name injective declared decl.name
  unfold declareLocal
  rw [taken]
  split
  · refine (alike_report rfl ?_).returns rfl
    simp [Problem.relabel, VarDecl.relabel, displays]
  · exact alike_pure rfl

end Functions

mutual

theorem alike_collectLocals (injective : Function.Injective change.name)
    {display otherDisplay : String}
    (displays : change.hidden otherDisplay = change.hidden display) (declared : List String)
    (state other : LocalState) : ∀ (stmt : Stmt),
    Alike (RelabelledBehind change) (DeclaredAlike change)
      (collectLocals display declared state stmt)
      (collectLocals otherDisplay (declared.map change.name) other (stmt.relabel change))
  | .varDecl _ decl => alike_declareLocal injective displays declared state other decl
  | .ifThen _ _ body | .whileLoop _ _ body => by
      have inside := alike_collectLocals injective displays [] state other body
      refine inside.bind fun found partner _ => ?_
      exact alike_pure rfl
  | .ifElse _ _ body alternative => by
      have inside := alike_collectLocals injective displays [] state other body
      refine inside.bind fun found partner _ => ?_
      have otherwise := alike_collectLocals injective displays [] found.2 partner.2 alternative
      refine otherwise.bind fun last lastPartner _ => ?_
      exact alike_pure rfl
  | .forLoop _ init _ _ body _ => by
      have declared := alike_declareLocal injective displays [] state other init
      refine declared.bind fun found partner _ => ?_
      have inside := alike_collectLocals injective displays [] found.2 partner.2 body
      refine inside.bind fun last lastPartner _ => ?_
      exact alike_pure rfl
  | .block _ stmts _ => by
      have inside := alike_collectLocalsOfList injective displays [] state other stmts
      refine inside.bind fun found partner _ => ?_
      exact alike_pure rfl
  | .assign _ | .fieldAssign .. | .call .. | .ret .. => alike_pure rfl

theorem alike_collectLocalsOfList (injective : Function.Injective change.name)
    {display otherDisplay : String}
    (displays : change.hidden otherDisplay = change.hidden display) (declared : List String)
    (state other : LocalState) : ∀ (stmts : List Stmt),
    Alike (RelabelledBehind change) (DeclaredAlike change)
      (collectLocalsOfList display declared state stmts)
      (collectLocalsOfList otherDisplay (declared.map change.name) other
        (Stmt.relabelList change stmts))
  | [] => alike_pure rfl
  | first :: rest => by
      refine (alike_collectLocals injective displays declared state other first).bind ?_
      rintro ⟨declared, state⟩ ⟨_, other⟩ rfl
      exact alike_collectLocalsOfList injective displays declared state other rest

end

section Records

variable (lawful : change.Lawful) (discreet : change.Discreet)

include discreet

/-- The signature of a relabelled head. -/
theorem signature_relabel (head : FunctionHead) :
    (signature (head.relabel change)).relabel change.mask = (signature head).relabel change := by
  simp [signature, FunctionHead.relabel, Param.relabel, Signature.relabel, discreet.name,
    Function.comp_def]

include lawful

theorem alike_functionRecord {display otherDisplay : String}
    (displays : change.hidden otherDisplay = change.hidden display) (decl : FunctionDecl) :
    Alike (RelabelledBehind change) (FunctionRecord.Moved change) (functionRecord display decl)
      (functionRecord otherDisplay (decl.relabel change)) := by
  refine (alike_reportRepeatedParams lawful.injective displays [] decl.head.params).andThen ?_
  have names : ((decl.head.params.map (Param.relabel change)).mapIdx paramVariable).map
      Variable.name =
      ((decl.head.params.mapIdx paramVariable).map Variable.name).map change.name := by
    refine List.ext_getElem? fun index => ?_
    cases found : decl.head.params[index]? <;> simp [found, paramVariable, Param.relabel]
  have locals (state other : LocalState) := alike_collectLocalsOfList lawful.injective displays
    ((decl.head.params.mapIdx paramVariable).map Variable.name) state other decl.body
  rw [← names] at locals
  refine Alike.bind (locals _ _) ?_
  rintro ⟨_, state⟩ ⟨_, other⟩ _
  exact alike_pure ⟨⟨rfl, signature_relabel discreet decl.head⟩, rfl⟩

omit discreet in
theorem alike_fieldTable (decl : ClassDecl) :
    Alike (RelabelledBehind change)
      (fun table other => List.Forall₂ (fun entity partner => partner = entity.relabel change)
        table.entries other.entries)
      (fieldTable decl) (fieldTable (decl.relabel change)) := by
  refine alike_foldlM_map (fun table other tables field => ?_) decl.fields .nil
  refine alike_addEntry lawful.injective ?_ tables rfl rfl rfl
  rintro entity _ rfl
  rfl

theorem alike_methodTable (decl : ClassDecl) :
    Alike (RelabelledBehind change)
      (fun table other => List.Forall₂ (FunctionRecord.Moved change) table.entries other.entries)
      (methodTable decl) (methodTable (decl.relabel change)) := by
  refine alike_foldlM_map (fun table other tables method => ?_) decl.methods .nil
  refine (alike_functionRecord lawful discreet (discreet.method _ _) method).bind
    fun record partner moved => ?_
  exact alike_addEntry lawful.injective (fun _ _ moved => moved.name) tables moved rfl rfl

theorem alike_headTable (decl : InterfaceDecl) :
    Alike (RelabelledBehind change)
      (fun table other => List.Forall₂ (FunctionRecord.Moved change) table.entries other.entries)
      (headTable decl) (headTable (decl.relabel change)) := by
  refine alike_foldlM_map (fun table other tables head => ?_) decl.methods .nil
  refine (alike_reportRepeatedParams lawful.injective (discreet.name _) [] head.params).andThen ?_
  exact alike_addEntry lawful.injective (fun _ _ moved => moved.name) tables
    ⟨⟨rfl, signature_relabel discreet head⟩, rfl⟩ rfl rfl

variable {model other : SymbolModel} (models : model.Corresponds change other)

include models

theorem alike_addClass (decl : ClassDecl) :
    Alike (RelabelledBehind change) (SymbolModel.Corresponds change) (addClass model decl)
      (addClass other (decl.relabel change)) := by
  have taken : other.classes.contains (decl.relabel change).name =
      model.classes.contains decl.name :=
    Table.contains_relabel lawful.injective (fun _ _ alike => alike.name) models.classes decl.name
  unfold addClass
  rw [taken]
  split
  · exact (alike_report rfl rfl).returns models
  · refine (alike_fieldTable lawful decl).bind fun fields otherFields fieldsAlike => ?_
    refine (alike_methodTable lawful discreet decl).bind fun methods otherMethods methodsAlike => ?_
    refine alike_pure { models with classes := ?_ }
    refine Table.forall₂_add lawful.injective (fun _ _ alike => alike.name) models.classes ?_
    exact {
      name := rfl
      owner := discreet.name _
      parent := by cases parent : decl.parent <;> simp [ClassDecl.relabel, NameUse.relabel, parent]
      fields := forall₂_eq_map.mp fieldsAlike
      methods := methodsAlike
      position := rfl }

theorem alike_addInterface (decl : InterfaceDecl) :
    Alike (RelabelledBehind change) (SymbolModel.Corresponds change) (addInterface model decl)
      (addInterface other (decl.relabel change)) := by
  have taken : other.interfaces.contains (decl.relabel change).name =
      model.interfaces.contains decl.name :=
    Table.contains_relabel lawful.injective (fun _ _ alike => alike.name) models.interfaces
      decl.name
  unfold addInterface
  rw [taken]
  split
  · exact (alike_report rfl rfl).returns models
  · refine (alike_headTable lawful discreet decl).bind fun methods otherMethods methodsAlike => ?_
    refine alike_pure { models with interfaces := ?_ }
    refine Table.forall₂_add lawful.injective (fun _ _ alike => alike.name) models.interfaces ?_
    exact {
      name := rfl
      owner := discreet.name _
      methods := methodsAlike
      bases := by simp [NameSet.mem_ofList, InterfaceDecl.relabel, NameUse.relabel]
      position := rfl }

omit discreet in
theorem alike_addGlobal (entity : Variable) {problem otherProblem : Problem}
    (same : otherProblem.relabel change.mask = problem.relabel change) :
    Alike (RelabelledBehind change) (SymbolModel.Corresponds change)
      (do return { model with
            globals := ← addEntry model.globals entity entity.position problem })
      (do return { other with
            globals := ← addEntry other.globals (entity.relabel change)
              (entity.relabel change).position otherProblem }) := by
  have entries : List.Forall₂ (fun entity partner => partner = entity.relabel change)
      model.globals.entries other.globals.entries := forall₂_eq_map.mpr models.globals
  refine (alike_addEntry lawful.injective (fun _ _ moved => moved ▸ rfl) entries rfl rfl
    same).bind fun globals others globalsAlike => alike_pure { models with globals := ?_ }
  exact forall₂_eq_map.mp globalsAlike

theorem alike_addItem (item : Item) :
    Alike (RelabelledBehind change) (SymbolModel.Corresponds change) (addItem model item)
      (addItem other (item.relabel change)) := by
  cases item with
  | inclusion => exact alike_pure models
  | enumeration decl =>
      refine alike_foldlM_map (fun model other models member => ?_) decl.members models
      exact alike_addGlobal lawful models ⟨member.1, .int, none, member.2.start⟩ rfl
  | interface decl => exact alike_addInterface lawful discreet models decl
  | classDecl decl => exact alike_addClass lawful discreet models decl
  | function decl =>
      refine (alike_functionRecord lawful discreet (discreet.name _) decl).bind
        fun record partner moved => ?_
      refine (alike_addEntry lawful.injective (fun _ _ alike => alike.name) models.functions
        moved.toAlike rfl rfl).bind fun functions others functionsAlike => ?_
      exact alike_pure { models with functions := functionsAlike }
  | globalVariable decl => exact alike_addGlobal lawful models (unslotted decl) rfl

end Records

end Declarations

end KnightFront
