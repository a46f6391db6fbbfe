import KnightFront.Proofs.Relabelling.Confined
import Mathlib.Data.List.Flatten
import Mathlib.Data.List.Perm.Subperm

namespace KnightFront

/-!
# Unrelated files

A file that takes up no name of other files changes nothing for these.  All files
share one symbol model, but whatever is looked up on behalf of a file is an
identifier in it or comes from a declaration of such names, so a declaration of
other names is never found.  Each tree is annotated as without the additional
file, and the report without it is a part of the report with it.
-/

variable {names : List String} {move : String → String}

/-- Scopes that hold the same relabelled variables are the same. -/
theorem Scope.Alike.unique {change : Relabelling} {scope first second : Scope}
    (alike : scope.Alike change first) (likewise : scope.Alike change second) : first = second := by
  cases first
  cases second
  cases alike.parent.trans likewise.parent.symm
  cases alike.kind.trans likewise.kind.symm
  cases Table.ext_entries (alike.entries.trans likewise.entries.symm)
  rfl

/-- Where nothing is hidden, a file corresponds to one file only. -/
theorem Program.Alike.unique {program first second : Program}
    (alike : program.Alike (.ofNames move) first) (likewise : program.Alike (.ofNames move) second) :
    first = second := by
  have items := alike.items.trans likewise.items.symm
  rw [Relabelling.mask_ofNames, Item.relabel_identity, List.map_id, List.map_id] at items
  have unique : Relator.RightUnique (Scope.Alike (.ofNames move)) := fun _ _ _ => Scope.Alike.unique
  cases first
  cases second
  cases alike.file.trans likewise.file.symm
  cases items
  cases unique.forall₂ alike.scopes likewise.scopes
  rfl

/-- What follows a pass without hiding anything is determined by it. -/
theorem Reported.Follows.unique {pass first second : Reported Program}
    (follows : Follows (.ofNames move) (Program.Alike (.ofNames move)) pass first)
    (likewise : Follows (.ofNames move) (Program.Alike (.ofNames move)) pass second) :
    first = second :=
  ext (follows.value.unique likewise.value) (follows.findings.trans likewise.findings.symm)

namespace SymbolModel

section Found

variable {model first second : SymbolModel} (injective : Function.Injective move)
  (found : model.FoundIn (.ofNames move) first) (likewise : model.FoundIn (.ofNames move) second)

include injective

/-- In a model in which another one is found, a file that corresponds to a resolved one
is checked alike. -/
theorem FoundIn.follows_check (found : model.FoundIn (.ofNames move) first)
    {program partner : Program} (alike : program.Alike (.ofNames move) partner) :
    Reported.Follows (.ofNames move) (Program.Alike (.ofNames move)) (program.check model)
      (partner.check first) := by
  have lawful := Relabelling.lawful_ofNames injective
  have := maskedTally_relabelledBehind lawful
  have checked := Program.alike_check_behind lawful (assignsAlike injective found.alike.classes) alike
    fun decl _ => Relabelled.behind lawful <| Typing.relabelled_conformanceFindings injective
      found.alike.classes Function.injective_id found.interfaces decl
  exact checked.mono fun _ _ same => same.relabelled rfl

include found likewise

/-- A file that speaks of names that are kept is annotated alike in two models in
which one model is found. -/
theorem annotated_alike {program : Program} (stays : program.relabel (.ofNames move) = program)
    (fresh : program.scopes = []) :
    program.resolve first = program.resolve second ∧
      (program.resolve first).value.check first = (program.resolve second).value.check second := by
  have lawful := Relabelling.lawful_ofNames injective
  have resolved := Program.follows_resolve lawful found.alike fresh
  have resolved' := Program.follows_resolve lawful likewise.alike fresh
  rw [stays] at resolved resolved'
  exact ⟨resolved.unique resolved', (found.follows_check injective resolved.value).unique
    (likewise.follows_check injective resolved'.value)⟩

/-- Names that are kept come back to themselves in both models or in none. -/
theorem cycles_alike {name : String} (kept : move name = name) :
    second.hasCyclicInheritance name = first.hasCyclicInheritance name ∧
      second.hasCyclicExtension name = first.hasCyclicExtension name := by
  have classes {other : SymbolModel} (found : model.FoundIn (.ofNames move) other) :
      other.hasCyclicInheritance (move name) = model.hasCyclicInheritance name :=
    hasCyclicInheritance_relabel injective found.alike.classes name
  have interfaces {other : SymbolModel} (found : model.FoundIn (.ofNames move) other) :
      other.hasCyclicExtension (move name) = model.hasCyclicExtension name :=
    hasCyclicExtension_relabel injective (found.interfaces.imp fun _ _ alike => alike.toAlike) name
  rw [kept] at classes interfaces
  exact ⟨(classes likewise).trans (classes found).symm,
    (interfaces likewise).trans (interfaces found).symm⟩

end Found

end SymbolModel

/-- What is made of a part is a part of what is made of the whole. -/
theorem subperm_map {α β : Type} (step : α → β) {list whole : List α} (part : list.Subperm whole) :
    (list.map step).Subperm (whole.map step) := by
  obtain ⟨middle, perm, sublist⟩ := part
  exact ⟨middle.map step, perm.map step, sublist.map step⟩

/-- A table of some names is a part of every table that agrees with it on these. -/
theorem Table.subperm_sorted_filter {α : Type} [Named α] {table other : Table α}
    (agrees : table.AgreesOn (· ∈ names) other) (only : empty.AgreesOn (· ∉ names) table)
    {test testOther : α → Bool}
    (same : ∀ entry, Named.nameOf entry ∈ names → testOther entry = test entry) :
    (table.sorted.filter test).Subperm (other.sorted.filter testOther) := by
  have distinct : table.sorted.Nodup :=
    (List.mergeSort_perm _ _).nodup_iff.mpr (table.distinct.of_map Named.nameOf)
  refine List.subperm_of_subset (distinct.filter test) fun entry member => ?_
  obtain ⟨listed, passes⟩ := List.mem_filter.mp member
  have found := find?_of_mem (List.mem_mergeSort.mp listed)
  have isKept : Named.nameOf entry ∈ names := by
    by_contra isOther
    rw [only _ isOther] at found
    cases found
  refine List.mem_filter.mpr ⟨List.mem_mergeSort.mpr ?_, (same entry isKept).trans passes⟩
  exact mem_of_find? ((agrees _ isKept).trans found)

/-- Cycles among some names are a part of the cycles in every model that agrees on
these. -/
theorem Declarations.subperm_cycleFindings {first second : SymbolModel}
    (agrees : first.AgreesOn (· ∈ names) second)
    (only : SymbolModel.withBuiltins.AgreesOn (· ∉ names) first)
    (cycles : ∀ name ∈ names, second.hasCyclicInheritance name = first.hasCyclicInheritance name ∧
      second.hasCyclicExtension name = first.hasCyclicExtension name) :
    (cycleFindings first).Subperm (cycleFindings second) := by
  have classes := Table.subperm_sorted_filter agrees.classes only.classes
    fun record isKept => (cycles record.name isKept).1
  have interfaces := Table.subperm_sorted_filter agrees.interfaces only.interfaces
    fun record isKept => (cycles record.name isKept).2
  exact (subperm_map _ classes).append (subperm_map _ interfaces)

section Files

variable {front back : List Program} {added : Program}
  (speaks : ∀ program ∈ front ++ back, program.SpeaksOf names)
  (apart : ∀ name ∈ added.topNames, name ∉ names)

include speaks apart

/-- Collecting one more file that takes up other names finds more, and what is
collected agrees on the names. -/
theorem SymbolModel.alike_withAdded :
    Reported.Alike List.Sublist (SymbolModel.AgreesOn (· ∈ names))
      (((front ++ back).flatMap Program.items).foldlM Declarations.addItem withBuiltins)
      (((front ++ added :: back).flatMap Program.items).foldlM Declarations.addItem
        withBuiltins) := by
  have behind (model : SymbolModel) :
      Reported.Alike (· = ·) (SymbolModel.AgreesOn (· ∈ names))
        ((back.flatMap Program.items).foldlM Declarations.addItem model)
        ((back.flatMap Program.items).foldlM Declarations.addItem
          (added.items.foldlM Declarations.addItem model).value) := by
    refine Declarations.alike_addItems_of_agrees ?_ fun item member =>
      topNames_mem (fun program inBack => speaks program (List.mem_append_right _ inBack)) member
    exact Declarations.agreesOn_addItems model fun item declares name isName =>
      apart name (List.mem_flatMap.mpr ⟨item, declares, isName⟩)
  simp only [List.flatMap_append, List.flatMap_cons, List.foldlM_append]
  refine ⟨(behind _).value, ?_⟩
  simp only [Reported.findings_bind, ← (behind _).findings]
  exact (List.sublist_append_right _ _).append_left _

end Files

/-- The tree of a file after resolution and type checking. -/
def Program.annotated (model : SymbolModel) (program : Program) : Program :=
  ((program.resolve model).value.check model).value

/-- Analysis that goes on behind errors annotates every file. -/
theorem programs_analyse {options : Options} (goesOn : options.continueAfterErrors = true)
    (programs : List Program) :
    (analyse options programs).programs =
      programs.map (Program.annotated (SymbolModel.ofPrograms programs).value) := by
  have never (log : DiagnosticLog) : options.stopsAfter log = false := by
    simp [Options.stopsAfter, goesOn]
  simp [analyse, never, Program.annotated, Function.comp_def]

/-- Everything that is found: about declarations, about names and about types. -/
theorem findingsOf_true (programs : List Program) :
    let model := (SymbolModel.ofPrograms programs).value
    findingsOf true programs = (SymbolModel.ofPrograms programs).findings ++
      programs.flatMap (fun program => (program.resolve model).findings) ++
        programs.flatMap fun program => ((program.resolve model).value.check model).findings := by
  simp [findingsOf, resolveAll, checkAll, Reported.findings_mapM]

/-- A file more finds more about the files, if it makes no difference to them. -/
theorem sublist_flatMap_withAdded {α : Type} {front back : List Program} (added : Program)
    {find findOther : Program → List α}
    (same : ∀ program ∈ front ++ back, find program = findOther program) :
    ((front ++ back).flatMap find).Sublist ((front ++ added :: back).flatMap findOther) := by
  rw [List.flatMap_congr same]
  exact ((List.sublist_cons_self added back).append_left front).flatMap findOther

/-- Part of what is found is part of what is reported. -/
theorem DiagnosticLog.subperm_record {findings more : List Finding} (log : DiagnosticLog)
    (part : findings.Subperm more) :
    (log.record findings).sorted.entries.Subperm (log.record more).sorted.entries := by
  have taken := List.Subperm.append (List.Subperm.refl log.entries)
    ((subperm_map Finding.diagnostic part).filter log.accepts)
  exact ((List.mergeSort_perm _ _).subperm.trans taken).trans (List.mergeSort_perm _ _).symm.subperm

/-- Files are annotated as without an additional file of other names, and what is
found without it is part of what is found with it. -/
theorem annotated_withAdded {front back : List Program} {added : Program}
    (speaks : ∀ program ∈ front ++ back, program.SpeaksOf names)
    (fresh : ∀ program ∈ front ++ back, program.scopes = [])
    (apart : ∀ name ∈ added.topNames, name ∉ names) :
    (∀ program ∈ front ++ back,
      program.annotated (SymbolModel.ofPrograms (front ++ added :: back)).value =
        program.annotated (SymbolModel.ofPrograms (front ++ back)).value) ∧
    (findingsOf true (front ++ back)).Subperm (findingsOf true (front ++ added :: back)) := by
  have collected := SymbolModel.alike_withAdded speaks apart
  obtain ⟨move, injective, keeps, found, found'⟩ :=
    SymbolModel.exists_foundIn speaks (SymbolModel.confined_agreesOn speaks) collected.value
  have alike (program : Program) (member : program ∈ front ++ back) :=
    SymbolModel.annotated_alike injective found found' (speaks program member _ keeps)
      (fresh program member)
  have cycles := Declarations.subperm_cycleFindings collected.value
    (Declarations.agreesOn_addItems _ fun item member name isName =>
      not_not_intro (SymbolModel.topNames_mem speaks member name isName))
    fun name isKept => SymbolModel.cycles_alike injective found found' (keeps.name name isKept)
  rw [findingsOf_true, findingsOf_true, SymbolModel.ofPrograms_eq, SymbolModel.ofPrograms_eq]
  simp only [Reported.value_bind, Reported.findings_bind]
  refine ⟨fun program member => ?_, ?_⟩
  · exact congrArg Reported.value (alike program member).2.symm
  · refine ((collected.findings.subperm.append cycles).append ?_).append ?_
    · exact (sublist_flatMap_withAdded added fun program member =>
        congrArg Reported.findings (alike program member).1).subperm
    · exact (sublist_flatMap_withAdded added fun program member =>
        congrArg Reported.findings (alike program member).2).subperm

/-- Files in a row are read one part after the other. -/
theorem readFiles_append_iff {front back : List SourceFile} {programs : List Program} :
    readFiles (front ++ back) = .ok programs ↔
      ∃ first second, readFiles front = .ok first ∧ readFiles back = .ok second ∧
        programs = first ++ second := by
  unfold readFiles
  rw [List.mapM_append]
  cases front.mapM fun file => Program.ofSource file.name file.text <;>
    cases back.mapM fun file => Program.ofSource file.name file.text <;>
      simp [bind, Except.bind, pure, Except.pure, eq_comm]

theorem readFiles_cons_of_ofSource {file : SourceFile} {rest : List SourceFile} {program : Program}
    {programs : List Program} (read : Program.ofSource file.name file.text = .ok program)
    (readRest : readFiles rest = .ok programs) : readFiles (file :: rest) = .ok (program :: programs) := by
  unfold readFiles at readRest ⊢
  rw [List.mapM_cons, read, readRest]
  rfl

/-- An unrelated file only adds to the report.  Where files can be read, and one more
file takes up no name at the top level that is an identifier in one of them, it
can be inserted anywhere: every other file gets the same tree, with the same
bindings, scopes and types, and what is reported without the file is a part of
what is reported with it.  The file may be at odds with itself or declare a
builtin function again. -/
theorem compile_of_unrelated {front back : List SourceFile} {file : SourceFile}
    {programs : List Program} {added : Program} (read : readFiles (front ++ back) = .ok programs)
    (readAdded : Program.ofSource file.name file.text = .ok added)
    (unrelated : ∀ name ∈ added.topNames, ∀ other ∈ front ++ back, name ∉ other.identifiers) :
    ∃ first second, compile {} (front ++ back) = .ok first ∧
      compile {} (front ++ file :: back) = .ok second ∧
      (∃ treesFront tree treesBack, treesFront.length = front.length ∧
        treesBack.length = back.length ∧ first.programs = treesFront ++ treesBack ∧
        second.programs = treesFront ++ tree :: treesBack) ∧
      first.log.entries.Subperm second.log.entries := by
  obtain ⟨frontTrees, backTrees, readFront, readBack, rfl⟩ := readFiles_append_iff.mp read
  have readAll : readFiles (front ++ file :: back) = .ok (frontTrees ++ added :: backTrees) :=
    readFiles_append_iff.mpr
      ⟨frontTrees, _, readFront, readFiles_cons_of_ofSource readAdded readBack, rfl⟩
  let names := (front ++ back).flatMap SourceFile.identifiers
  have speaks : ∀ program ∈ frontTrees ++ backTrees, program.SpeaksOf names := by
    intro program member
    obtain ⟨source, inFiles, accepted⟩ := exists_of_mem_forall₂ (forall₂_of_readFiles read) member
    exact (Program.speaksOf_identifiers accepted).mono fun name used =>
      List.mem_flatMap.mpr ⟨source, inFiles, used⟩
  have apart : ∀ name ∈ added.topNames, name ∉ names := by
    intro name isName member
    obtain ⟨source, inFiles, isIdentifier⟩ := List.mem_flatMap.mp member
    exact unrelated name isName source inFiles isIdentifier
  obtain ⟨trees, findings⟩ := annotated_withAdded speaks
    (forall_of_readFiles read Program.scopes_ofSource) apart
  let first := (SymbolModel.ofPrograms (frontTrees ++ backTrees)).value
  let second := (SymbolModel.ofPrograms (frontTrees ++ added :: backTrees)).value
  refine ⟨analyse {} (frontTrees ++ backTrees), analyse {} (frontTrees ++ added :: backTrees),
    by rw [compile, read]; rfl, by rw [compile, readAll]; rfl,
    ⟨frontTrees.map (Program.annotated first), added.annotated second,
      backTrees.map (Program.annotated first), ?_, ?_, ?_, ?_⟩, ?_⟩
  · rw [List.length_map, (forall₂_of_readFiles readFront).length_eq]
  · rw [List.length_map, (forall₂_of_readFiles readBack).length_eq]
  · rw [programs_analyse rfl, List.map_append]
  · rw [programs_analyse rfl, List.map_append, List.map_cons]
    congr 1
    · exact List.map_congr_left fun program member =>
        trees program (List.mem_append_left _ member)
    · congr 1
      exact List.map_congr_left fun program member =>
        trees program (List.mem_append_right _ member)
  · rw [log_analyse, log_analyse]
    exact DiagnosticLog.subperm_record _ findings

/-- A file whose class extends one that no file declares, and a file that declares
what the first one uses. -/
def relyingFile : SourceFile :=
  ⟨"relying.knight", "class A ext Missing use I \x7b \x7d int a = absent;"⟩

@[inherit_doc relyingFile]
def reliedFile : SourceFile :=
  ⟨"relied.knight", "interface I \x7b fn m(): int; \x7d fn f(A a): Missing \x7b ret a.m(); \x7d"⟩

/-- A file that uses a class of another one and has cycles of its own. -/
def strangeFile : SourceFile :=
  ⟨"strange.knight", "class C ext D use J \x7b \x7d class D ext C \x7b A c; \x7d " ++
    "interface J ext J, I \x7b \x7d enum E \x7b X, X \x7d string g = 1;"⟩

/-- The file with cycles makes no difference to the files around it. -/
theorem compile_strangeFile_of_unrelated :
    ∃ programs added, readFiles ([relyingFile] ++ [reliedFile]) = .ok programs ∧
      Program.ofSource strangeFile.name strangeFile.text = .ok added ∧
      (∀ name ∈ added.topNames, ∀ other ∈ [relyingFile] ++ [reliedFile],
        name ∉ other.identifiers) ∧
      ∃ first second, compile {} ([relyingFile] ++ [reliedFile]) = .ok first ∧
        compile {} ([relyingFile] ++ strangeFile :: [reliedFile]) = .ok second ∧
        (∃ treesFront tree treesBack, treesFront.length = [relyingFile].length ∧
          treesBack.length = [reliedFile].length ∧ first.programs = treesFront ++ treesBack ∧
          second.programs = treesFront ++ tree :: treesBack) ∧
        first.log.entries.Subperm second.log.entries := by
  have readable : readWith (fun _ => true) ([relyingFile] ++ [reliedFile]) = true :=
    readWith_of_letters (.cons .literal (.cons .literal .nil)) (by decide +kernel)
  have declares : readWith (fun programs => decide (∀ program ∈ programs,
      program.topNames = ["C", "D", "J", "X", "X", "g"])) [strangeFile] = true :=
    readWith_of_letters (.cons (.append .literal .literal) .nil) (by decide +kernel)
  have relying : relyingFile.identifiers = ["A", "Missing", "I", "a", "absent"] :=
    (SourceFile.identifiers_of_letters .literal).trans (by decide +kernel)
  have relied : reliedFile.identifiers = ["I", "m", "f", "A", "a", "Missing", "a", "m"] :=
    (SourceFile.identifiers_of_letters .literal).trans (by decide +kernel)
  obtain ⟨programs, read, -⟩ := exists_of_readWith readable
  obtain ⟨_, readAdded, declared⟩ := exists_of_readWith declares
  cases forall₂_of_readFiles readAdded with
  | @cons _ added _ _ accepted =>
      have unrelated : ∀ name ∈ added.topNames, ∀ other ∈ [relyingFile] ++ [reliedFile],
          name ∉ other.identifiers := by
        rw [of_decide_eq_true declared added List.mem_cons_self]
        simp [relying, relied]
      exact ⟨programs, added, read, accepted, unrelated,
        compile_of_unrelated read accepted unrelated⟩

end KnightFront
