import KnightFront.Proofs.Analysis.Verdict
import KnightFront.Proofs.Relabelling.Interfaces
import KnightFront.Proofs.Relabelling.Resolution
import KnightFront.Proofs.Symbols.Collected

namespace KnightFront

/-!
# Analysis of relabelled programs

The three passes over relabelled programs, put together.  Each pass finds
behind a mask what it finds in the programs themselves.  The findings may be
compared one by one or by the verdict; the ways differ only in what they require
of the order of names and of places.
-/

variable {change : Relabelling}

/-- Hidden names stay hidden. -/
theorem Problem.relabel_mask_relabel (lawful : change.Lawful) (problem : Problem) :
    (problem.relabel change).relabel change.mask = problem.relabel change := by
  cases problem <;> simp [relabel, lawful.hidden_hidden]

theorem Finding.relabel_mask_comp (lawful : change.Lawful) :
    Finding.relabel change.mask ∘ Finding.relabel change = Finding.relabel change := by
  funext finding
  simp [relabel, Problem.relabel_mask_relabel lawful]

/-- A way to compare findings that does not look behind the mask. -/
class MaskedTally (change : Relabelling) (tally : List Finding → List Finding → Prop) : Prop
    extends Tally tally where
  behind {findings others : List Finding} :
    RelabelledBehind change findings others → tally findings others
  masked {findings others : List Finding} :
    tally findings (others.map (Finding.relabel change.mask)) → tally findings others

/-- Findings that are the same behind a mask can be compared one by one. -/
theorem maskedTally_relabelledBehind (lawful : change.Lawful) :
    MaskedTally change (RelabelledBehind change) where
  behind := id
  masked same := by
    have idempotent := Finding.relabel_mask_comp lawful.mask
    rw [RelabelledBehind, List.map_map] at same
    rw [RelabelledBehind, ← same]
    exact congrArg (List.map · _) idempotent.symm

instance : MaskedTally change SameVerdict where
  behind := RelabelledBehind.sameVerdict
  masked same := by
    rw [SameVerdict, Finding.any_isError_map_relabel] at same
    exact same

/-- Relabelled findings are the same behind the mask. -/
theorem Relabelled.behind (lawful : change.Lawful) {findings others : List Finding}
    (same : Relabelled change findings others) : RelabelledBehind change findings others := by
  rw [RelabelledBehind, same, List.map_map, Finding.relabel_mask_comp lawful]

/-- A relabelling that leaves the names of builtin functions alone. -/
def Relabelling.FixesBuiltins (change : Relabelling) : Prop :=
  ∀ builtin ∈ Builtin.all, change.name builtin.name = builtin.name

/-- There is a cycle if something that is declared comes back to itself, in
whatever order cycles are listed. -/
theorem Declarations.any_isError_cycleFindings (model : SymbolModel) :
    (cycleFindings model).any Finding.isError =
      ((model.classes.entries.any fun record => model.hasCyclicInheritance record.name) ||
        model.interfaces.entries.any fun record => model.hasCyclicExtension record.name) := by
  have isError (position : Position) (name : String) :
      Finding.isError ⟨position, .cyclicInheritance name⟩ = true ∧
        Finding.isError ⟨position, .cyclicExtension name⟩ = true := ⟨rfl, rfl⟩
  simp [cycleFindings, List.any_filter, Function.comp_def, isError, Table.sorted,
    (List.mergeSort_perm _ _).any_eq]

/-- The verdict on programs, found without listing anything in order. -/
theorem hasErrors_analyse_eq (options : Options) (programs : List Program) :
    (analyse options programs).hasErrors =
      let declared := (programs.flatMap Program.items).foldlM Declarations.addItem .withBuiltins
      let model := declared.value
      (declared.findings.any Finding.isError ||
        ((model.classes.entries.any fun record => model.hasCyclicInheritance record.name) ||
          model.interfaces.entries.any fun record => model.hasCyclicExtension record.name) ||
        (resolveAll programs).findings.any Finding.isError ||
        (checkAll programs).findings.any Finding.isError) := by
  have findings : (findingsOf true programs).any Finding.isError =
      ((SymbolModel.ofPrograms programs).findings.any Finding.isError ||
        (resolveAll programs).findings.any Finding.isError ||
        (checkAll programs).findings.any Finding.isError) := by
    simp [findingsOf, Bool.or_assoc]
  calc
    (analyse options programs).hasErrors = (findingsOf true programs).any Finding.isError :=
      hasErrors_analyse options programs
    _ = ((SymbolModel.ofPrograms programs).findings.any Finding.isError ||
          (resolveAll programs).findings.any Finding.isError ||
          (checkAll programs).findings.any Finding.isError) := findings
    _ = _ := by
      rw [SymbolModel.ofPrograms_eq, Reported.findings_bind, List.any_append,
        Declarations.any_isError_cycleFindings]

/-- A builtin function of a name that stays corresponds to itself. -/
theorem Builtin.alike_record {builtin : Builtin} (member : builtin ∈ Builtin.all)
    (fixed : change.name builtin.name = builtin.name) :
    builtin.record.Alike change builtin.record := by
  have types : ∀ builtin ∈ Builtin.all,
      (∀ ty ∈ builtin.parameterTys, ty.relabel change = ty) ∧
        builtin.returnTy.relabel change = builtin.returnTy := by
    simp [Builtin.all, Ty.relabel]
  obtain ⟨parameters, returns⟩ := types builtin member
  refine ⟨fixed.symm, ?_⟩
  simp only [Builtin.record, Signature.relabel, returns, Ty.relabel_mask, id]
  congr 1
  refine List.ext_getElem (by simp) fun index _ inside => ?_
  simp [parameters _ (List.getElem_mem _)]

namespace SymbolModel

theorem entries_withBuiltins : withBuiltins.functions.entries = Builtin.all.map Builtin.record :=
  rfl

/-- The builtin functions correspond to themselves. -/
theorem corresponds_withBuiltins (fixes : change.FixesBuiltins) :
    withBuiltins.Corresponds change withBuiltins := by
  refine ⟨.nil, .nil, ?_, rfl⟩
  rw [entries_withBuiltins, List.forall₂_same, List.forall_mem_map]
  exact fun builtin member => builtin.alike_record member (fixes builtin member)

/-- The declarations of relabelled programs correspond. -/
theorem alike_addItems (lawful : change.Lawful) (discreet : change.Discreet)
    {model other : SymbolModel} (models : model.Corresponds change other) (programs : List Program) :
    Reported.Alike (RelabelledBehind change) (Corresponds change)
      ((programs.flatMap Program.items).foldlM Declarations.addItem model)
      (((programs.map (Program.relabel change)).flatMap Program.items).foldlM Declarations.addItem
        other) := by
  have items : (programs.map (Program.relabel change)).flatMap Program.items =
      (programs.flatMap Program.items).map (Item.relabel change) := by
    rw [List.flatMap_map, List.map_flatMap]
    rfl
  rw [items]
  exact Declarations.alike_foldlM_map
    (fun _ _ models item => Declarations.alike_addItem lawful discreet models item) _ models

namespace Corresponds

variable {model other : SymbolModel} (corresponds : model.Corresponds change other)
  (injective : Function.Injective change.name)

include corresponds injective

theorem rel_class? (name : String) :
    Option.Rel (ClassRecord.Alike change) (model.class? name)
      (other.class? (change.name name)) :=
  findsAlike_of_forall₂ injective (fun _ _ alike => alike.name) corresponds.classes name

theorem findsInterfaces :
    FindsAlike change (InterfaceRecord.Alike change) model.interfaces.entries
      other.interfaces.entries :=
  findsAlike_of_forall₂ injective (fun _ _ alike => alike.name) corresponds.interfaces

/-- Models that correspond are alike as far as methods of interfaces are. -/
theorem alike (interfaceMethods : model.InheritsAlong change other) :
    model.Alike change other where
  classes := corresponds.rel_class? injective
  interfaces := Table.contains_relabel injective (fun _ _ alike => alike.name)
    corresponds.interfaces
  interfaceMethods := interfaceMethods
  functions := findsAlike_of_forall₂ injective (fun _ _ alike => alike.name) corresponds.functions
  globals := Table.find?_map_relabel injective corresponds.globals

/-- Cycles are found in both models or in none. -/
theorem sameVerdict_cycleFindings :
    SameVerdict (Declarations.cycleFindings model) (Declarations.cycleFindings other) := by
  have classes : (other.classes.entries.any fun record => other.hasCyclicInheritance record.name) =
      model.classes.entries.any fun record => model.hasCyclicInheritance record.name :=
    any_eq_of_forall₂ corresponds.classes fun record partner alike => by
      rw [alike.name, hasCyclicInheritance_relabel injective (corresponds.rel_class? injective)]
  have interfaces :
      (other.interfaces.entries.any fun record => other.hasCyclicExtension record.name) =
        model.interfaces.entries.any fun record => model.hasCyclicExtension record.name :=
    any_eq_of_forall₂ corresponds.interfaces fun record partner alike => by
      rw [alike.name, hasCyclicExtension_relabel injective (corresponds.findsInterfaces injective)]
  calc
    (Declarations.cycleFindings other).any Finding.isError =
        ((other.classes.entries.any fun record => other.hasCyclicInheritance record.name) ||
          other.interfaces.entries.any fun record => other.hasCyclicExtension record.name) :=
      Declarations.any_isError_cycleFindings other
    _ = ((model.classes.entries.any fun record => model.hasCyclicInheritance record.name) ||
          model.interfaces.entries.any fun record => model.hasCyclicExtension record.name) := by
      rw [classes, interfaces]
    _ = (Declarations.cycleFindings model).any Finding.isError :=
      (Declarations.any_isError_cycleFindings model).symm

/-- Where names stay, interfaces are found with bases and methods in the same
order. -/
theorem findsOrdered (unchanged : change.name = id) :
    FindsAlike change (InterfaceRecord.Ordered change) model.interfaces.entries
      other.interfaces.entries :=
  findsAlike_of_forall₂ injective (fun _ _ ordered => ordered.name)
    (corresponds.interfaces.imp fun _ _ alike => alike.ordered unchanged)

/-- Where names stay, cycles are found in the same order. -/
theorem relabelled_cycleFindings (unchanged : change.name = id) :
    Relabelled change (Declarations.cycleFindings model) (Declarations.cycleFindings other) := by
  have classes := forall₂_filter
    (Table.forall₂_sorted corresponds.classes fun _ _ alike =>
      alike.name.trans (congrFun unchanged _))
    fun _ _ alike => alike.name ▸
      hasCyclicInheritance_relabel injective (corresponds.rel_class? injective) _
  have interfaces := forall₂_filter
    (Table.forall₂_sorted corresponds.interfaces fun _ _ alike =>
      alike.name.trans (congrFun unchanged _))
    fun _ _ alike => alike.name ▸
      hasCyclicExtension_relabel injective (corresponds.findsInterfaces injective) _
  unfold Declarations.cycleFindings
  simp only [List.map_eq_flatMap]
  refine Tally.append (tally_flatMap classes ?_) (tally_flatMap interfaces ?_)
  · intro record partner alike
    simp [Relabelled, Finding.relabel, Problem.relabel, alike.name, alike.position]
  · intro record partner alike
    simp [Relabelled, Finding.relabel, Problem.relabel, alike.name, alike.position]

end Corresponds

end SymbolModel

/-! ## Resolution and types -/

section Passes

variable {model other : SymbolModel}

/-- Resolving relabelled files that have no scopes yet comes to files that
correspond. -/
theorem follows_resolveAll (lawful : change.Lawful) (models : model.Alike change other)
    {programs : List Program} (fresh : ∀ program ∈ programs, program.scopes = []) :
    Reported.Follows change (List.Forall₂ (Program.Alike change))
      (programs.mapM (Program.resolve model))
      ((programs.map (Program.relabel change)).mapM (Program.resolve other)) := by
  have pairs : List.Forall₂
      (fun program relabelled => relabelled = program.relabel change ∧ program.scopes = [])
      programs (programs.map (Program.relabel change)) :=
    List.forall₂_map_right_iff.mpr (List.forall₂_same.mpr fun program member =>
      ⟨rfl, fresh program member⟩)
  refine Reported.alike_mapM pairs ?_
  rintro program _ ⟨rfl, fresh⟩
  exact Program.follows_resolve lawful models fresh

/-- Records are what they are behind the mask. -/
theorem ClassRecord.alike_mask (record : ClassRecord) : record.Alike change.mask record where
  name := rfl
  owner := rfl
  parent := by simp
  fields := by simp
  methods := List.forall₂_same.mpr fun _ _ => ⟨⟨rfl, rfl⟩, rfl⟩
  position := rfl

theorem InterfaceRecord.alike_mask (record : InterfaceRecord) : record.Alike change.mask record where
  name := rfl
  owner := rfl
  methods := List.forall₂_same.mpr fun _ _ => ⟨⟨rfl, rfl⟩, rfl⟩
  bases := by simp
  position := rfl

/-- What is found about a class and its interfaces is the same behind the
mask. -/
theorem relabelled_conformanceFindings_mask (decl : ClassDecl) :
    Relabelled change.mask (Typing.conformanceFindings other decl)
      (Typing.conformanceFindings other (decl.relabel change.mask)) := by
  refine Typing.relabelled_conformanceFindings Function.injective_id
    (findsAlike_of_forall₂ Function.injective_id (fun _ _ alike => alike.name)
      (List.forall₂_same.mpr fun record _ => record.alike_mask))
    Function.injective_id
    (findsAlike_of_forall₂ Function.injective_id (fun _ _ ordered => ordered.name)
      (List.forall₂_same.mpr fun record _ => record.alike_mask.ordered rfl)) decl

/-- Checking a file reads nothing but its declarations. -/
theorem Program.check_of_items {first second : Program} (same : first.items = second.items)
    (model : SymbolModel) :
    (first.check model).value.items = (second.check model).value.items ∧
      (first.check model).findings = (second.check model).findings := by
  unfold check
  rw [same]
  exact ⟨rfl, rfl⟩

/-- Checking a file that corresponds to a resolved one comes to a file that
corresponds. -/
theorem Program.alike_check_behind {tally : List Finding → List Finding → Prop}
    [MaskedTally change tally] (lawful : change.Lawful) (assigns : model.AssignsAlike change other)
    {program partner : Program} (resolved : program.Alike change partner)
    (conforms : ∀ decl, .classDecl decl ∈ program.items →
      tally (Typing.conformanceFindings model decl)
        (Typing.conformanceFindings other (decl.relabel change))) :
    Reported.Alike tally (Alike change) (program.check model) (partner.check other) := by
  have forth := Program.alike_check
    (fun findings others same => MaskedTally.behind (Relabelled.behind lawful same))
    lawful.injective assigns conforms
  have back : Reported.Follows change.mask (Typing.Trees (Program.relabel change.mask))
      (partner.check other) ((partner.relabel change.mask).check other) :=
    Program.alike_check (fun _ _ same => same) Function.injective_id (fun _ _ => by simp)
      fun decl _ => relabelled_conformanceFindings_mask decl
  have same : (partner.relabel change.mask).items = (program.relabel change).items := resolved.items
  obtain ⟨items, findings⟩ := Program.check_of_items same other
  rw [back.value, forth.value] at items
  rw [back.findings] at findings
  exact ⟨⟨resolved.file, items, resolved.scopes⟩, MaskedTally.masked (findings ▸ forth.findings)⟩

/-- Checking files that correspond to resolved ones comes to files that
correspond. -/
theorem alike_checkAll {tally : List Finding → List Finding → Prop} [MaskedTally change tally]
    (lawful : change.Lawful) (assigns : model.AssignsAlike change other)
    {programs partners : List Program} (resolved : List.Forall₂ (Program.Alike change) programs partners)
    (conforms : ∀ program ∈ programs, ∀ decl, .classDecl decl ∈ program.items →
      tally (Typing.conformanceFindings model decl)
        (Typing.conformanceFindings other (decl.relabel change))) :
    Reported.Alike tally (List.Forall₂ (Program.Alike change)) (programs.mapM (Program.check model))
      (partners.mapM (Program.check other)) := by
  have pairs : List.Forall₂ (fun program partner => program ∈ programs ∧
      program.Alike change partner) programs partners :=
    (List.forall₂_and_left _ _).mpr ⟨fun _ member => member, resolved⟩
  refine Reported.alike_mapM pairs ?_
  rintro program partner ⟨member, alike⟩
  exact Program.alike_check_behind lawful assigns alike (conforms program member)

end Passes

/-- Resolution leaves the names and places of classes alone. -/
theorem exists_written_of_mem_resolveItems {model : SymbolModel} {decl : ClassDecl}
    {items : List Item} {scopes : List Scope}
    (member : .classDecl decl ∈ (Resolution.resolveItems model scopes items).value.1) :
    ∃ written, .classDecl written ∈ items ∧ decl.name = written.name ∧
      decl.span = written.span := by
  induction items generalizing scopes with
  | nil => cases member
  | cons item rest inductionHypothesis =>
      rcases List.mem_cons.mp member with same | later
      · cases item with
        | classDecl written =>
            cases same
            exact ⟨written, List.mem_cons_self, rfl, rfl⟩
        | _ => cases same
      · obtain ⟨written, listed, names⟩ := inductionHypothesis later
        exact ⟨written, List.mem_cons_of_mem _ listed, names⟩

/-- That a name is declared again is an error. -/
theorem Problem.isRedeclaration_of_isError {problem : Problem} (clean : problem.isError = false) :
    problem.isRedeclaration = false := by
  cases problem <;> first | rfl | cases clean

/-- Where no name is declared again, every class is the one that is taken up. -/
theorem taken_of_clean {programs : List Program}
    (clean : (SymbolModel.ofPrograms programs).findings.any Finding.isError = false) :
    ∀ program ∈ (resolveAll programs).value, ∀ decl, .classDecl decl ∈ program.items →
      ∀ record, (SymbolModel.ofPrograms programs).value.class? decl.name = some record →
        record.position = decl.span.start := by
  have lacks : (SymbolModel.ofPrograms programs).Lacks Problem.isRedeclaration :=
    fun finding member => Problem.isRedeclaration_of_isError <|
      Bool.not_eq_true _ ▸ List.any_eq_false.mp clean finding member
  rw [SymbolModel.lacks_ofPrograms_iff] at lacks
  obtain ⟨model, extended⟩ := Declarations.exists_extendedBy_of_addItems lacks
  have collected : (SymbolModel.ofPrograms programs).value = model := by
    rw [SymbolModel.ofPrograms_eq, Declarations.addItems_of_extendedBy extended]
    rfl
  rw [resolveAll, collected, Reported.value_mapM]
  intro program inFiles decl declares record found
  obtain ⟨file, isFile, rfl⟩ := List.mem_map.mp inFiles
  obtain ⟨written, listed, name, span⟩ := exists_written_of_mem_resolveItems declares
  have entry : written.record ∈ model.classes.entries := by
    rw [extended.classes]
    refine List.mem_append_right _ (List.mem_flatMap.mpr ⟨.classDecl written, ?_, ?_⟩)
    · exact List.mem_flatMap.mpr ⟨file, isFile, listed⟩
    · exact List.mem_singleton_self _
  have own : model.class? decl.name = some written.record :=
    name ▸ Table.find?_of_mem entry
  rw [own] at found
  cases found
  rw [span]
  rfl

/-- What all passes find can be compared if what each of them finds can. -/
theorem tally_findingsOf {tally : List Finding → List Finding → Prop} [Tally tally]
    (verdict : ∀ findings others, tally findings others → SameVerdict findings others)
    {programs others : List Program}
    (declared : tally (SymbolModel.ofPrograms programs).findings
      (SymbolModel.ofPrograms others).findings)
    (resolved : tally (resolveAll programs).findings (resolveAll others).findings)
    (checked : tally (checkAll programs).findings (checkAll others).findings)
    (continueAfterErrors : Bool) :
    tally (findingsOf continueAfterErrors programs) (findingsOf continueAfterErrors others) := by
  have both := Tally.append declared resolved
  unfold findingsOf
  dsimp only
  rw [verdict _ _ declared, verdict _ _ both]
  split
  · exact declared
  · split
    · exact both
    · exact Tally.append both checked

section Analyses

variable (lawful : change.Lawful) (discreet : change.Discreet) (fixes : change.FixesBuiltins)
  {programs : List Program} (fresh : ∀ program ∈ programs, program.scopes = [])

include lawful discreet fixes

/-- The first pass over relabelled programs. -/
theorem alike_ofPrograms (programs : List Program) {tally : List Finding → List Finding → Prop}
    [MaskedTally change tally]
    (cycles : ∀ model other, SymbolModel.Corresponds change model other →
      tally (Declarations.cycleFindings model) (Declarations.cycleFindings other)) :
    Reported.Alike tally (SymbolModel.Corresponds change) (SymbolModel.ofPrograms programs)
      (SymbolModel.ofPrograms (programs.map (Program.relabel change))) := by
  rw [SymbolModel.ofPrograms_eq, SymbolModel.ofPrograms_eq]
  have start := SymbolModel.corresponds_withBuiltins fixes
  refine ((SymbolModel.alike_addItems lawful discreet start programs).mono fun _ _ same =>
    MaskedTally.behind same).bind fun model other corresponds => ?_
  exact ⟨corresponds, cycles model other corresponds⟩

include fresh

/-- If names stay and places do not fall together, every finding is
relabelled. -/
theorem relabelledBehind_findingsOf (unchanged : change.name = id)
    (places : Function.Injective change.start) (continueAfterErrors : Bool) :
    RelabelledBehind change (findingsOf continueAfterErrors programs)
      (findingsOf continueAfterErrors (programs.map (Program.relabel change))) := by
  have injective := lawful.injective
  have := maskedTally_relabelledBehind lawful
  have declared := alike_ofPrograms lawful discreet fixes programs
    fun model other corresponds =>
      (corresponds.relabelled_cycleFindings injective unchanged).behind lawful
  have interfaces := declared.value.findsOrdered injective unchanged
  have models := declared.value.alike injective (SymbolModel.inheritsAlong injective interfaces)
  have resolved := follows_resolveAll lawful models fresh
  have checked := alike_checkAll lawful (SymbolModel.assignsAlike injective models.classes)
    resolved.value fun program _ decl _ => Relabelled.behind lawful <|
      Typing.relabelled_conformanceFindings injective models.classes places interfaces decl
  exact tally_findingsOf (fun _ _ same => same.sameVerdict) declared.findings
    (resolved.findings.behind lawful) checked.findings _

/-- Where the order of names does not change the methods of interfaces, the
verdict is the same. -/
theorem sameVerdict_findingsOf
    (methods : (SymbolModel.ofPrograms programs).value.InheritsAlong change
      (SymbolModel.ofPrograms (programs.map (Program.relabel change))).value) :
    SameVerdict (findingsOf true programs)
      (findingsOf true (programs.map (Program.relabel change))) := by
  have injective := lawful.injective
  have declared := alike_ofPrograms lawful discreet fixes programs
    fun model other corresponds => corresponds.sameVerdict_cycleFindings injective
  have models := declared.value.alike injective methods
  have resolved := follows_resolveAll lawful models fresh
  by_cases clean : (SymbolModel.ofPrograms programs).findings.any Finding.isError = true
  · have stained : ∀ {programs : List Program},
        (SymbolModel.ofPrograms programs).findings.any Finding.isError = true →
          (findingsOf true programs).any Finding.isError = true := by
      intro programs found
      simp [findingsOf, found]
    exact (stained (declared.findings.trans clean)).trans (stained clean).symm
  · have taken := taken_of_clean (Bool.not_eq_true _ ▸ clean)
    have checked := alike_checkAll lawful (SymbolModel.assignsAlike injective models.classes)
      resolved.value fun program member decl declares =>
        Typing.sameVerdict_conformanceFindings injective models.classes
          (declared.value.findsInterfaces injective) (taken program member decl declares)
    exact tally_findingsOf (fun _ _ same => same) declared.findings resolved.findings.sameVerdict
      checked.findings true

end Analyses

end KnightFront
