import KnightFront.Proofs.Analysis.Reading
import KnightFront.Proofs.Diagnostics.Wording
import KnightFront.Proofs.Symbols.Chains
import KnightFront.Proofs.Symbols.FirstDeclared
import KnightFront.Proofs.Symbols.Reached

namespace KnightFront

/-!
# Reports of cycles

While files are read, nothing is said about cycles, since a file that is still to
come may close one or take away a name.  When the result of the first pass is
taken, each class that inherits from itself is reported once, where it is
declared, and each interface that extends itself.  What only leads into a cycle is
not reported, and neither is what ends at a name that nothing declares.

The pass can be used again after its result has been taken.  It starts over
without findings, so every later result is as exact as the first.
-/

namespace Declarations

theorem lacks_addClass (model : SymbolModel) (decl : ClassDecl) :
    (addClass model decl).Lacks Problem.isCycle := by
  have fields : (fieldTable decl).Lacks Problem.isCycle :=
    Reported.lacks_foldlM (fun table field => by simp [addEntry, Problem.isCycle]) _ _
  have methods : (methodTable decl).Lacks Problem.isCycle := by
    refine Reported.lacks_foldlM (fun table method => ?_) _ _
    have record : (functionRecord (decl.name ++ "." ++ method.head.name) method).Lacks
        Problem.isCycle := lacks_functionRecord (fun _ _ => rfl) (fun _ _ => rfl) _ method
    simp [addEntry, Problem.isCycle, record]
  rw [addClass]
  split <;> simp [fields, methods, Problem.isCycle]

theorem lacks_addInterface (model : SymbolModel) (decl : InterfaceDecl) :
    (addInterface model decl).Lacks Problem.isCycle := by
  have heads : (headTable decl).Lacks Problem.isCycle := by
    refine Reported.lacks_foldlM (fun table head => ?_) _ _
    have params : (reportRepeatedParams head.name [] head.params).Lacks Problem.isCycle :=
      lacks_reportRepeatedParams (fun _ _ => rfl) head.name [] head.params
    simp [addEntry, Problem.isCycle, params]
  rw [addInterface]
  split <;> simp [heads, Problem.isCycle]

/-- A declaration is not looked at for cycles. -/
theorem lacks_addItem (model : SymbolModel) (item : Item) :
    (addItem model item).Lacks Problem.isCycle := by
  cases item with
  | inclusion decl => exact Reported.lacks_pure model
  | enumeration decl =>
      refine Reported.lacks_foldlM (fun model member => ?_) decl.members model
      simp [addEntry, Problem.isCycle]
  | interface decl => exact lacks_addInterface model decl
  | classDecl decl => exact lacks_addClass model decl
  | function decl =>
      have record : (functionRecord decl.head.name decl).Lacks Problem.isCycle :=
        lacks_functionRecord (fun _ _ => rfl) (fun _ _ => rfl) decl.head.name decl
      simp [addItem, addEntry, Problem.isCycle, record]
  | globalVariable decl => simp [addItem, addEntry, Problem.isCycle]

end Declarations

namespace DeclarationPass

/-- A pass has not reported any cycle so far. -/
def WithoutCycles (pass : DeclarationPass) : Prop :=
  ∀ finding ∈ pass.findings, finding.problem.isCycle = false

theorem WithoutCycles.read {pass : DeclarationPass} (without : pass.WithoutCycles)
    (program : Program) : (pass.read program).WithoutCycles := by
  intro finding member
  rcases List.mem_append.mp member with earlier | added
  · exact without finding earlier
  · exact Reported.lacks_foldlM Declarations.lacks_addItem program.items pass.model finding added

theorem WithoutCycles.reads {pass : DeclarationPass} (without : pass.WithoutCycles)
    (programs : List Program) : (programs.foldl DeclarationPass.read pass).WithoutCycles := by
  induction programs generalizing pass with
  | nil => exact without
  | cons first rest inductionHypothesis => exact inductionHypothesis (without.read first)

/-- The pass behind some rounds, in each of which files were read and the result
was taken, and behind the files that have been read since. -/
def behind (rounds : List (List Program)) (programs : List Program) : DeclarationPass :=
  programs.foldl read (rounds.foldl (fun pass round => (round.foldl read pass).emptied) start)

theorem withoutCycles_behind (rounds : List (List Program)) (programs : List Program) :
    (behind rounds programs).WithoutCycles := by
  have restarted : (rounds.foldl (fun pass round => (round.foldl read pass).emptied)
      start).WithoutCycles := by
    rcases List.eq_nil_or_concat rounds with rfl | ⟨earlier, last, rfl⟩
    · exact fun finding member => nomatch member
    · rw [List.concat_eq_append, List.foldl_append]
      exact fun finding member => nomatch member
  exact restarted.reads programs

end DeclarationPass

/-- Among entries of distinct names, those of one name are the first of it. -/
theorem filter_nameOf {α : Type} [Named α] {entries : List α}
    (distinct : (entries.map Named.nameOf).Nodup) (name : String) :
    entries.filter (fun entry => Named.nameOf entry == name) =
      (entries.find? fun entry => Named.nameOf entry == name).toList := by
  induction entries with
  | nil => rfl
  | cons first rest inductionHypothesis =>
      rw [List.map_cons, List.nodup_cons] at distinct
      by_cases same : Named.nameOf first = name
      · have others : rest.filter (fun entry => Named.nameOf entry == name) = [] := by
          refine List.filter_eq_nil_iff.mpr fun entry listed named => distinct.1 ?_
          exact List.mem_map.mpr ⟨entry, listed, (beq_iff_eq.mp named).trans same.symm⟩
        simp [same, others]
      · simp [same, inductionHypothesis distinct.2]

/-- A sorted table has the entry of a name once. -/
theorem Table.filter_sorted {α : Type} [Named α] (table : Table α) (name : String) :
    table.sorted.filter (fun entry => Named.nameOf entry == name) = (table.find? name).toList := by
  have sorted : table.sorted.Perm table.entries := List.mergeSort_perm _ _
  have once := sorted.filter fun entry => Named.nameOf entry == name
  rw [filter_nameOf table.distinct] at once
  cases found : table.entries.find? fun entry => Named.nameOf entry == name with
  | none =>
      rw [found] at once
      rw [once.eq_nil, Table.find?, found]
      rfl
  | some entry =>
      rw [found] at once
      rw [List.perm_singleton.mp once, Table.find?, found]
      rfl

namespace Finding

variable {problem : Problem} {findings : List Finding}

/-- The places at which findings have a problem. -/
def placesOf (problem : Problem) (findings : List Finding) : List Position :=
  (findings.filter fun finding => finding.problem = problem).map position

@[simp]
theorem placesOf_append (front back : List Finding) :
    placesOf problem (front ++ back) = placesOf problem front ++ placesOf problem back := by
  simp [placesOf]

theorem placesOf_eq_nil (lack : ∀ finding ∈ findings, finding.problem ≠ problem) :
    placesOf problem findings = [] := by
  simpa [placesOf, List.filter_eq_nil_iff] using lack

/-- Of findings about the entries of a sorted table that a test picks, those about
one entry stand once, where the entry does. -/
theorem placesOf_sorted {α : Type} [Named α] (table : Table α) (test : String → Bool)
    {wording : String → Problem} (injective : Function.Injective wording) (place : α → Position)
    (name : String) :
    placesOf (wording name) ((table.sorted.filter fun entry => test (Named.nameOf entry)).map
        fun entry => ⟨place entry, wording (Named.nameOf entry)⟩) =
      if test name then ((table.find? name).map place).toList else [] := by
  have ofName (entry : α) : (decide (wording (Named.nameOf entry) = wording name) &&
      test (Named.nameOf entry)) = (Named.nameOf entry == name && test name) := by
    by_cases same : Named.nameOf entry = name
    · simp [same]
    · simp [same, injective.ne same]
  rw [placesOf, List.filter_map, List.map_map, List.filter_filter]
  simp only [Function.comp_def, ofName]
  cases test name with
  | false => simp
  | true =>
      simp only [Bool.and_true, if_true, table.filter_sorted name]
      cases table.find? name <;> rfl

end Finding

/-- The result of a pass reports each class and interface on a cycle once, where
it is declared, and nothing else as a cycle. -/
structure Reported.ReportsCycles (collected : Reported SymbolModel) : Prop where
  inheritance : ∀ name record, collected.value.class? name = some record →
    collected.value.InheritsFromItself name →
      Finding.placesOf (.cyclicInheritance name) collected.findings = [record.position]
  noInheritance : ∀ name, ¬ collected.value.InheritsFromItself name →
    Finding.placesOf (.cyclicInheritance name) collected.findings = []
  extension : ∀ name record, collected.value.interface? name = some record →
    collected.value.ExtendsItself name →
      Finding.placesOf (.cyclicExtension name) collected.findings = [record.position]
  noExtension : ∀ name, ¬ collected.value.ExtendsItself name →
    Finding.placesOf (.cyclicExtension name) collected.findings = []

namespace DeclarationPass

open Declarations

variable {pass : DeclarationPass}

/-- A cycle is reported behind all other findings only. -/
theorem WithoutCycles.placesOf_result (without : pass.WithoutCycles) {problem : Problem}
    (cycle : problem.isCycle = true) :
    Finding.placesOf problem pass.result.findings =
      Finding.placesOf problem (cycleFindings pass.model) := by
  have earlier : Finding.placesOf problem pass.findings = [] := by
    refine Finding.placesOf_eq_nil fun finding member same => ?_
    rw [← same, without finding member] at cycle
    cases cycle
  rw [result, Finding.placesOf_append, earlier, List.nil_append]

/-- A class is reported as part of a cycle where it is declared, if the test for
cycles says so. -/
theorem WithoutCycles.placesOf_cyclicInheritance (without : pass.WithoutCycles) (name : String) :
    Finding.placesOf (.cyclicInheritance name) pass.result.findings =
      if pass.model.hasCyclicInheritance name then
        ((pass.model.class? name).map ClassRecord.position).toList
      else [] := by
  have classes := Finding.placesOf_sorted pass.model.classes pass.model.hasCyclicInheritance
    (fun _ _ => Problem.cyclicInheritance.inj) ClassRecord.position name
  have interfaces : Finding.placesOf (.cyclicInheritance name)
      ((pass.model.interfaces.sorted.filter fun record =>
        pass.model.hasCyclicExtension record.name).map fun record =>
          ⟨record.position, .cyclicExtension record.name⟩) = [] := by
    refine Finding.placesOf_eq_nil fun finding member => ?_
    rcases List.mem_map.mp member with ⟨record, -, rfl⟩
    exact Problem.noConfusion
  rw [without.placesOf_result rfl, cycleFindings, Finding.placesOf_append]
  rw [interfaces, List.append_nil]
  exact classes

/-- An interface is reported as part of a cycle where it is declared, if the test
for cycles says so. -/
theorem WithoutCycles.placesOf_cyclicExtension (without : pass.WithoutCycles) (name : String) :
    Finding.placesOf (.cyclicExtension name) pass.result.findings =
      if pass.model.hasCyclicExtension name then
        ((pass.model.interface? name).map InterfaceRecord.position).toList
      else [] := by
  have classes : Finding.placesOf (.cyclicExtension name)
      ((pass.model.classes.sorted.filter fun record =>
        pass.model.hasCyclicInheritance record.name).map fun record =>
          ⟨record.position, .cyclicInheritance record.name⟩) = [] := by
    refine Finding.placesOf_eq_nil fun finding member => ?_
    rcases List.mem_map.mp member with ⟨record, -, rfl⟩
    exact Problem.noConfusion
  have interfaces := Finding.placesOf_sorted pass.model.interfaces pass.model.hasCyclicExtension
    (fun _ _ => Problem.cyclicExtension.inj) InterfaceRecord.position name
  rw [without.placesOf_result rfl, cycleFindings, Finding.placesOf_append]
  rw [classes, List.nil_append]
  exact interfaces

/-- A pass that has not reported any cycle so far reports each of them once with
its result. -/
theorem WithoutCycles.reportsCycles (without : pass.WithoutCycles) :
    pass.result.ReportsCycles := by
  constructor
  · intro name record found inherits
    have cyclic : pass.model.hasCyclicInheritance name = true :=
      (pass.model.hasCyclicInheritance_iff name).mpr inherits
    have declared : pass.model.class? name = some record := found
    rw [without.placesOf_cyclicInheritance, if_pos cyclic, declared]
    rfl
  · intro name acyclic
    rw [without.placesOf_cyclicInheritance, if_neg]
    exact mt (pass.model.hasCyclicInheritance_iff name).mp acyclic
  · intro name record found comesBack
    have cyclic : pass.model.hasCyclicExtension name = true :=
      (pass.model.hasCyclicExtension_iff name).mpr comesBack
    have declared : pass.model.interface? name = some record := found
    rw [without.placesOf_cyclicExtension, if_pos cyclic, declared]
    rfl
  · intro name acyclic
    rw [without.placesOf_cyclicExtension, if_neg]
    exact mt (pass.model.hasCyclicExtension_iff name).mp acyclic

/-- Whatever files are read, and however often the pass has been used before, its
result reports exactly the classes that inherit from themselves and the interfaces
that extend themselves. -/
theorem cycles_reported_once (rounds : List (List Program)) (programs : List Program) :
    (behind rounds programs).result.ReportsCycles :=
  (withoutCycles_behind rounds programs).reportsCycles

end DeclarationPass

/-- A file with cycles, with declarations that lead into them, and with some that
end at unknown names. -/
def circlingFile : SourceFile :=
  ⟨"circles.kn", "class A ext B \x7b \x7d class B ext A \x7b \x7d class Tail ext A \x7b \x7d " ++
    "class Lost ext X \x7b \x7d interface I ext J, K, X \x7b \x7d interface J ext K \x7b \x7d " ++
    "interface K ext J, K \x7b \x7d"⟩

/-- Where the file is read once more after a result has been taken, its circles are
reported once, and nothing that only leads into them or to an unknown name. -/
theorem DeclarationPass.cycles_reported_once_circlingFile :
    ∃ programs, readFiles [circlingFile] = .ok programs ∧
      let again := (behind [programs] programs).result
      (∃ record, again.value.class? "A" = some record ∧
        Finding.placesOf (.cyclicInheritance "A") again.findings = [record.position]) ∧
      Finding.placesOf (.cyclicInheritance "Tail") again.findings = [] ∧
      Finding.placesOf (.cyclicInheritance "Lost") again.findings = [] ∧
      (∃ record, again.value.interface? "J" = some record ∧
        Finding.placesOf (.cyclicExtension "J") again.findings = [record.position]) ∧
      Finding.placesOf (.cyclicExtension "I") again.findings = [] := by
  have circling : readWith (fun programs =>
      let model := (behind [programs] programs).model
      model.hasCyclicInheritance "A" && !model.hasCyclicInheritance "Tail" &&
        !model.hasCyclicInheritance "Lost" && model.hasCyclicExtension "J" &&
        !model.hasCyclicExtension "I") [circlingFile] = true :=
    readWith_of_letters (.cons (.append (.append .literal .literal) .literal) .nil)
      (by decide +kernel)
  rcases exists_of_readWith circling with ⟨programs, read, circles⟩
  simp only [Bool.and_eq_true, Bool.not_eq_true', ← Bool.not_eq_true,
    SymbolModel.hasCyclicInheritance_iff, SymbolModel.hasCyclicExtension_iff] at circles
  rcases circles with ⟨⟨⟨⟨first, tail⟩, lost⟩, second⟩, top⟩
  have exactly := cycles_reported_once [programs] programs
  have ⟨record, _, isRecord, _⟩ := first
  have ⟨interface, _, isInterface, _⟩ := second
  exact ⟨programs, read, ⟨record, isRecord, exactly.inheritance _ _ isRecord first⟩,
    exactly.noInheritance _ tail, exactly.noInheritance _ lost,
    ⟨interface, isInterface, exactly.extension _ _ isInterface second⟩, exactly.noExtension _ top⟩

end KnightFront
