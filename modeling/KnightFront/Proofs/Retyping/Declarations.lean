import KnightFront.Proofs.Relabelling.Passes
import KnightFront.Proofs.Retyping.Models
import KnightFront.Proofs.Retyping.Trees

namespace KnightFront

/-!
# Declarations with an unknown type

The first pass does not look at the types of variables.  Of programs in which
variables have been retyped it finds the same, and it collects a model that is
the same but for the types of variables.
-/

open Reported (Alike alike_pure report reportIf)

/-- The findings are the same. -/
def SameFindings (findings others : List Finding) : Prop := others = findings

instance : Tally SameFindings where
  nil := rfl
  append := by
    rintro findings others _ _ rfl rfl
    rfl

/-- A pass makes the findings that it makes. -/
theorem Reported.same_refl {α : Type} (pass : Reported α) :
    Alike SameFindings (fun value other => other = value) pass pass :=
  ⟨rfl, rfl⟩

variable {unknown : String}

namespace Declarations

section Tables

variable {α : Type} [Named α] {related : α → α → Prop} {table other : Table α}
  (named : ∀ entry partner, related entry partner → Named.nameOf partner = Named.nameOf entry)
  (entries : List.Forall₂ related table.entries other.entries)

include named entries

/-- An entry of the same name is taken up alike, or reported alike. -/
theorem same_addEntry {entry partner : α} (holds : related entry partner) (position : Position)
    (problem : Problem) :
    Alike SameFindings (fun table other => List.Forall₂ related table.entries other.entries)
      (addEntry table entry position problem) (addEntry other partner position problem) := by
  have taken := Table.contains_of_forall₂ named entries (Named.nameOf entry)
  unfold addEntry
  rw [named _ _ holds, taken]
  refine (Reported.same_refl _).returns ?_
  exact Table.forall₂_add_entry named entries holds

end Tables

/-- Folding related parts goes on with related states. -/
theorem same_foldlM {σ α : Type} {states : σ → σ → Prop} {related : α → α → Prop}
    {pass : σ → α → Reported σ} {parts others : List α}
    (each : ∀ state other, states state other → ∀ part partner, related part partner →
      Alike SameFindings states (pass state part) (pass other partner))
    (lists : List.Forall₂ related parts others) {state other : σ} (start : states state other) :
    Alike SameFindings states (parts.foldlM pass state) (others.foldlM pass other) := by
  induction lists generalizing state other with
  | nil => exact alike_pure start
  | cons head _ inductionHypothesis =>
      rw [List.foldlM_cons, List.foldlM_cons]
      exact (each _ _ start _ _ head).bind fun _ _ after => inductionHypothesis after

section Locals

variable (display : String)

/-- The names that a block has declared are the same.  What else is known of the
locals makes no difference to findings. -/
abbrev SameDeclared : List String × LocalState → List String × LocalState → Prop :=
  fun found other => other.1 = found.1

theorem same_declareLocal (declared : List String) (state other : LocalState)
    {decl decl' : VarDecl} (retyped : decl.Retyped unknown decl') :
    Alike SameFindings SameDeclared (declareLocal display declared state decl)
      (declareLocal display declared other decl') := by
  unfold declareLocal
  rw [retyped.name_eq, retyped.nameSpan_eq]
  split
  · exact (Reported.same_refl _).returns rfl
  · exact alike_pure rfl

mutual

theorem same_collectLocals (declared : List String) (state other : LocalState) :
    ∀ {stmt stmt' : Stmt}, stmt.Retyped unknown stmt' →
      Alike SameFindings SameDeclared (collectLocals display declared state stmt)
        (collectLocals display declared other stmt')
  | _, _, .varDecl declaration => same_declareLocal display declared state other declaration
  | _, _, .ifThen inside | _, _, .whileLoop inside => by
      refine (same_collectLocals [] state other inside).bind fun found partner _ => ?_
      exact alike_pure rfl
  | _, _, .ifElse inside alternative => by
      refine (same_collectLocals [] state other inside).bind fun found partner _ => ?_
      have otherwise := same_collectLocals [] found.2 partner.2 alternative
      refine otherwise.bind fun last lastPartner _ => ?_
      exact alike_pure rfl
  | _, _, .forLoop declaration inside => by
      refine (same_declareLocal display [] state other declaration).bind fun found partner _ => ?_
      refine (same_collectLocals [] found.2 partner.2 inside).bind fun last lastPartner _ => ?_
      exact alike_pure rfl
  | _, _, .block inside => by
      refine (same_collectLocalsOfList [] state other inside).bind fun found partner _ => ?_
      exact alike_pure rfl
  | _, _, .assign | _, _, .fieldAssign | _, _, .call | _, _, .ret => alike_pure rfl

theorem same_collectLocalsOfList (declared : List String) (state other : LocalState) :
    ∀ {stmts stmts' : List Stmt}, Stmt.RetypedList unknown stmts stmts' →
      Alike SameFindings SameDeclared (collectLocalsOfList display declared state stmts)
        (collectLocalsOfList display declared other stmts')
  | _, _, .nil => alike_pure rfl
  | _, _, .cons head tail => by
      refine (same_collectLocals declared state other head).bind ?_
      rintro ⟨declared, state⟩ ⟨_, other⟩ rfl
      exact same_collectLocalsOfList _ state other tail

end

theorem same_functionRecord {decl decl' : FunctionDecl} (retyped : decl.Retyped unknown decl') :
    Alike SameFindings FunctionRecord.SameHead (functionRecord display decl)
      (functionRecord display decl') := by
  cases retyped with
  | body inside =>
      refine (Reported.same_refl _).andThen ?_
      refine (same_collectLocalsOfList display _ _ _ inside).bind fun found partner _ => ?_
      exact alike_pure ⟨rfl, rfl, rfl⟩

end Locals

section Members

variable {decl decl' : ClassDecl} (retyped : decl.Retyped unknown decl')

theorem retyped_unslotted {field field' : VarDecl} (retyped : field.Retyped unknown field') :
    (unslotted field).Retyped unknown (unslotted field') :=
  ⟨retyped.name_eq, retyped.ty⟩

include retyped

theorem same_fieldTable :
    Alike SameFindings
      (fun table other => List.Forall₂ (Variable.Retyped unknown) table.entries other.entries)
      (fieldTable decl) (fieldTable decl') := by
  cases retyped with
  | members fields =>
      refine same_foldlM (fun table other tables field field' retyped => ?_) fields .nil
      rw [retyped.name_eq, retyped.nameSpan_eq]
      exact same_addEntry (fun _ _ same => same.name) tables (retyped_unslotted retyped) _ _

theorem same_methodTable :
    Alike SameFindings
      (fun table other => List.Forall₂ FunctionRecord.SameHead table.entries other.entries)
      (methodTable decl) (methodTable decl') := by
  cases retyped with
  | members _ methods =>
      refine same_foldlM (fun table other tables method method' retyped => ?_) methods .nil
      have head : method'.head = method.head := by
        cases retyped
        rfl
      rw [head]
      refine (same_functionRecord _ retyped).bind fun record partner heads => ?_
      exact same_addEntry (fun _ _ same => same.name) tables heads _ _

end Members

section Items

variable {model other : SymbolModel} (models : model.Retyped unknown other)

include models

theorem same_addClass {decl decl' : ClassDecl} (retyped : decl.Retyped unknown decl') :
    Alike SameFindings (SymbolModel.Retyped unknown) (addClass model decl)
      (addClass other decl') := by
  have name : decl'.name = decl.name := by
    cases retyped
    rfl
  have span : decl'.span = decl.span := by
    cases retyped
    rfl
  have parent : decl'.parent = decl.parent := by
    cases retyped
    rfl
  unfold addClass
  rw [name, span, parent, models.contains_classes]
  split
  · exact (Reported.same_refl _).returns models
  · refine (same_fieldTable retyped).bind fun fields otherFields fieldsRetyped => ?_
    refine (same_methodTable retyped).bind fun methods otherMethods heads => ?_
    refine alike_pure { models with classes := ?_ }
    exact Table.forall₂_add_entry (fun _ _ same => same.name) models.classes
      ⟨rfl, rfl, fieldsRetyped, heads, rfl⟩

theorem same_addInterface (decl : InterfaceDecl) :
    Alike SameFindings (SymbolModel.Retyped unknown) (addInterface model decl)
      (addInterface other decl) := by
  unfold addInterface
  rw [models.interfaces]
  split
  · exact (Reported.same_refl _).returns models
  · refine (Reported.same_refl _).bind ?_
    rintro methods _ rfl
    refine alike_pure { models with interfaces := ?_ }
    rw [SymbolModel.addInterface, SymbolModel.addInterface, models.interfaces]

theorem same_addGlobal {entity partner : Variable} (retyped : entity.Retyped unknown partner)
    (position : Position) (problem : Problem) :
    Alike SameFindings (SymbolModel.Retyped unknown)
      (do return { model with globals := ← addEntry model.globals entity position problem })
      (do return { other with globals := ← addEntry other.globals partner position problem }) :=
  (same_addEntry (fun _ _ same => same.name) models.globals retyped position problem).bind
    fun _ _ globals => alike_pure { models with globals }

theorem same_addItem {item item' : Item} (retyped : item.Retyped unknown item') :
    Alike SameFindings (SymbolModel.Retyped unknown) (addItem model item)
      (addItem other item') := by
  cases retyped with
  | inclusion => exact alike_pure models
  | enumeration decl =>
      refine Reported.alike_foldlM (fun model other models member _ => ?_) models
      exact same_addGlobal models ⟨rfl, .same _⟩ _ _
  | interface decl => exact same_addInterface models decl
  | classDecl retyped => exact same_addClass models retyped
  | @function decl decl' retyped =>
      have head : decl'.head = decl.head := by
        cases retyped
        rfl
      rw [addItem, addItem, head]
      refine (same_functionRecord _ retyped).bind fun record partner heads => ?_
      refine (same_addEntry (fun _ _ same => same.name) models.functions heads _ _).bind
        fun _ _ functions => ?_
      exact alike_pure { models with functions }
  | globalVariable retyped =>
      rw [addItem, addItem, retyped.name_eq, retyped.nameSpan_eq]
      exact same_addGlobal models (retyped_unslotted retyped) _ _

end Items

end Declarations

namespace SymbolModel

/-- The builtin functions are what they are. -/
theorem retyped_withBuiltins : withBuiltins.Retyped unknown withBuiltins :=
  ⟨.nil, rfl, List.forall₂_same.mpr fun record _ => .refl record, .nil⟩

/-- Cycles are found in both models or in none. -/
theorem Retyped.sameVerdict_cycleFindings {model other : SymbolModel}
    (retyped : model.Retyped unknown other) :
    SameVerdict (Declarations.cycleFindings model) (Declarations.cycleFindings other) := by
  have classes : (other.classes.entries.any fun record => other.hasCyclicInheritance record.name) =
      model.classes.entries.any fun record => model.hasCyclicInheritance record.name :=
    any_eq_of_forall₂ retyped.classes fun record partner same => by
      rw [same.name, retyped.hasCyclicInheritance_eq]
  have interfaces :
      (other.interfaces.entries.any fun record => other.hasCyclicExtension record.name) =
        model.interfaces.entries.any fun record => model.hasCyclicExtension record.name := by
    rw [retyped.interfaces]
    simp only [retyped.hasCyclicExtension_eq]
  calc
    (Declarations.cycleFindings other).any Finding.isError =
        ((other.classes.entries.any fun record => other.hasCyclicInheritance record.name) ||
          other.interfaces.entries.any fun record => other.hasCyclicExtension record.name) :=
      Declarations.any_isError_cycleFindings other
    _ = ((model.classes.entries.any fun record => model.hasCyclicInheritance record.name) ||
          model.interfaces.entries.any fun record => model.hasCyclicExtension record.name) := by
      rw [classes, interfaces]
    _ = (Declarations.cycleFindings model).any Finding.isError :=
      (Declarations.any_isError_cycleFindings model).symm

variable {programs programs' : List Program}

/-- The declarations of retyped programs are the same but for the types of
variables, and they make an error if those of the programs do. -/
theorem same_ofPrograms (retyped : List.Forall₂ (Program.Retyped unknown) programs programs') :
    (ofPrograms programs).value.Retyped unknown (ofPrograms programs').value ∧
      SameVerdict (ofPrograms programs).findings (ofPrograms programs').findings := by
  have items : List.Forall₂ (Item.Retyped unknown) (programs.flatMap Program.items)
      (programs'.flatMap Program.items) := by
    induction retyped with
    | nil => exact .nil
    | cons head _ inductionHypothesis =>
        rw [List.flatMap_cons, List.flatMap_cons]
        cases head with
        | items inside => exact List.rel_append inside inductionHypothesis
  have collected : Reported.Alike SameFindings (Retyped unknown)
      ((programs.flatMap Program.items).foldlM Declarations.addItem withBuiltins)
      ((programs'.flatMap Program.items).foldlM Declarations.addItem withBuiltins) := by
    refine Declarations.same_foldlM (fun model other models item item' retyped => ?_) items
      retyped_withBuiltins
    exact Declarations.same_addItem models retyped
  rw [ofPrograms_eq, ofPrograms_eq]
  refine ⟨collected.value, ?_⟩
  rw [Reported.findings_bind, Reported.findings_bind]
  refine Tally.append ?_ collected.value.sameVerdict_cycleFindings
  rw [collected.findings]
  rfl

end SymbolModel

end KnightFront
