import KnightFront.Proofs.Analysis.Reading
import KnightFront.Proofs.Analysis.RoomDeclared
import KnightFront.Proofs.Parse.SpentItem
import KnightFront.Proofs.Token.Places

namespace KnightFront

/-!
# What is reported once

Files of different names have no places in common, and within a file no two tokens
begin at one place.  So all that the three passes may report on has different places,
and each place has room for one report of a diagnostic.  What remains are the
conversions of numbers, one for every concatenation at a place.
-/

/-- The places of a file are in this file, and none is listed twice. -/
theorem Program.count_marks_le {file source : String} {program : Program}
    (accepted : ofSource file source = .ok program) (place : Position) :
    program.marks.count place ≤ if place.file = file then 1 else 0 := by
  rcases (anchored_and_count_marks accepted).2 with ⟨tokens, tokenized, spent⟩
  refine Nat.le_trans (spent place) ?_
  have inOrder := inOrder_tokensFrom tokenized
  have distinct : (tokens.map fun token => token.span.start).Nodup :=
    List.pairwise_map.mpr (inOrder.ordered.imp fun before => before.ne)
  split
  · exact List.nodup_iff_count_le_one.mp distinct place
  · next elsewhere =>
      refine Nat.le_of_eq (List.count_eq_zero.mpr fun member => elsewhere ?_)
      rcases List.mem_map.mp member with ⟨token, inFile, rfl⟩
      exact inOrder.begins token inFile

/-- The places of files of different names are different. -/
theorem count_marks_le_one {files : List SourceFile} {programs : List Program}
    (distinct : (files.map SourceFile.name).Nodup) (read : readFiles files = .ok programs)
    (place : Position) : (programs.flatMap Program.marks).count place ≤ 1 := by
  have counted : (programs.flatMap Program.marks).count place ≤
      (files.map SourceFile.name).count place.file := by
    have related := forall₂_of_readFiles read
    clear read distinct
    induction related with
    | nil => exact Nat.le_refl _
    | @cons file program rest others accepted _ inductionHypothesis =>
        have here := Program.count_marks_le accepted place
        rw [List.flatMap_cons, List.count_append, List.map_cons, List.count_cons]
        simp only [beq_iff_eq, eq_comm (a := file.name)]
        omega
  exact Nat.le_trans counted (List.nodup_iff_count_le_one.mp distinct place.file)

/-- In all three passes together, files are reported on at most once for every place,
once for every conversion, and once on a cycle. -/
theorem times_passes {diagnostic : Diagnostic} (other : diagnostic.OfNoMismatchedMethod)
    {programs : List Program} (written : ∀ program ∈ programs, program.Written)
    (anchored : ∀ program ∈ programs, ∀ item ∈ program.items, ∀ expr ∈ item.exprs,
      expr.Anchored) :
    (SymbolModel.ofPrograms programs).tally diagnostic.tells +
    (resolveAll programs).tally diagnostic.tells +
        (checkAll programs).tally diagnostic.tells ≤
      diagnostic.rooms (programs.flatMap Program.marks) +
        diagnostic.conversions (programs.flatMap Program.nodes) +
          if diagnostic.isCycle then 1 else 0 := by
  have declared := times_ofPrograms diagnostic programs
  have resolved := times_resolveAll_add_checkAll other written anchored
  have marks : diagnostic.rooms (programs.flatMap Program.marks) =
      ((programs.flatMap Program.items).map fun item => diagnostic.rooms item.declares).sum +
        ((programs.flatMap Program.items).map fun item => diagnostic.rooms item.mentions).sum := by
    rw [← List.sum_map_add]
    simp only [← diagnostic.rooms_append]
    rw [← diagnostic.rooms_flatMap, List.flatMap_assoc]
    rfl
  have nodes : diagnostic.conversions (programs.flatMap Program.nodes) =
      ((programs.flatMap Program.items).map fun item =>
        diagnostic.conversions (item.exprs.flatMap Expr.nodes)).sum := by
    have inItems : Program.nodes = fun program =>
        program.items.flatMap fun item => item.exprs.flatMap Expr.nodes :=
      funext fun _ => List.flatMap_assoc
    rw [← diagnostic.conversions_flatMap, List.flatMap_assoc, inItems]
  unfold Diagnostic.share at resolved
  rw [List.sum_map_add, List.sum_map_add] at resolved
  omega

namespace DiagnosticLog

theorem count_map_diagnostic {α : Type} (pass : Reported α) (diagnostic : Diagnostic) :
    (pass.findings.map Finding.diagnostic).count diagnostic = pass.tally diagnostic.tells := by
  rw [List.count, List.countP_map]
  rfl

/-- A pass adds a diagnostic to a log at most as often as it reports it. -/
theorem count_record_le {α : Type} (log : DiagnosticLog) (pass : Reported α)
    (diagnostic : Diagnostic) :
    (log.record pass.findings).entries.count diagnostic ≤
      log.entries.count diagnostic + pass.tally diagnostic.tells := by
  let reported := pass.findings.map Finding.diagnostic
  calc
    (log.record pass.findings).entries.count diagnostic =
        log.entries.count diagnostic + (reported.filter log.accepts).count diagnostic :=
      List.count_append
    _ ≤ log.entries.count diagnostic + reported.count diagnostic :=
      Nat.add_le_add_left (List.filter_sublist.count_le _) _
    _ = log.entries.count diagnostic + pass.tally diagnostic.tells := by
      rw [count_map_diagnostic]

/-- A log that takes warnings takes a diagnostic as often as a pass reports it. -/
theorem count_record {α : Type} {log : DiagnosticLog} (warns : log.warnings = true)
    (pass : Reported α) (diagnostic : Diagnostic) :
    (log.record pass.findings).entries.count diagnostic =
      log.entries.count diagnostic + pass.tally diagnostic.tells := by
  let reported := pass.findings.map Finding.diagnostic
  have all : reported.filter log.accepts = reported :=
    List.filter_eq_self.mpr fun _ _ => by rw [accepts, warns, Bool.true_or]
  calc
    (log.record pass.findings).entries.count diagnostic =
        log.entries.count diagnostic + (reported.filter log.accepts).count diagnostic :=
      List.count_append
    _ = log.entries.count diagnostic + pass.tally diagnostic.tells := by
      rw [all, count_map_diagnostic]

@[simp]
theorem count_sorted (log : DiagnosticLog) (diagnostic : Diagnostic) :
    log.sorted.entries.count diagnostic = log.entries.count diagnostic :=
  (List.mergeSort_perm log.entries _).count_eq _

end DiagnosticLog

/-- A log holds a diagnostic at most as often as the three passes report it. -/
theorem count_analyse_le (options : Options) (programs : List Program)
    (diagnostic : Diagnostic) :
    (analyse options programs).log.entries.count diagnostic ≤
      (SymbolModel.ofPrograms programs).tally diagnostic.tells +
      (resolveAll programs).tally diagnostic.tells +
        (checkAll programs).tally diagnostic.tells := by
  let declaredLog := (DiagnosticLog.empty.withWarnings options.warnings).record
    (SymbolModel.ofPrograms programs).findings
  let resolvedLog := declaredLog.record (resolveAll programs).findings
  have declared : declaredLog.entries.count diagnostic ≤ 0 + _ :=
    DiagnosticLog.count_record_le _ _ diagnostic
  have resolved : resolvedLog.entries.count diagnostic ≤ _ :=
    DiagnosticLog.count_record_le _ (resolveAll programs) diagnostic
  have checked := DiagnosticLog.count_record_le resolvedLog (checkAll programs) diagnostic
  unfold analyse
  dsimp only
  split
  · rw [DiagnosticLog.count_sorted]
    change declaredLog.entries.count diagnostic ≤ _
    omega
  · split
    · rw [DiagnosticLog.count_sorted]
      change resolvedLog.entries.count diagnostic ≤ _
      omega
    · rw [DiagnosticLog.count_sorted]
      change (resolvedLog.record (checkAll programs).findings).entries.count diagnostic ≤ _
      omega

/-- If later passes run after errors and warnings are taken, a log holds a diagnostic
as often as the three passes report it. -/
theorem count_analyse {options : Options} (goesOn : options.continueAfterErrors = true)
    (warns : options.warnings = true) (programs : List Program) (diagnostic : Diagnostic) :
    (analyse options programs).log.entries.count diagnostic =
      (SymbolModel.ofPrograms programs).tally diagnostic.tells +
      (resolveAll programs).tally diagnostic.tells +
        (checkAll programs).tally diagnostic.tells := by
  have never (log : DiagnosticLog) : options.stopsAfter log = false := by
    simp [Options.stopsAfter, goesOn]
  let declaredLog := (DiagnosticLog.empty.withWarnings options.warnings).record
    (SymbolModel.ofPrograms programs).findings
  let resolvedLog := declaredLog.record (resolveAll programs).findings
  have declared : declaredLog.entries.count diagnostic = 0 + _ :=
    DiagnosticLog.count_record warns (SymbolModel.ofPrograms programs) diagnostic
  have resolved : resolvedLog.entries.count diagnostic = _ :=
    DiagnosticLog.count_record warns (resolveAll programs) diagnostic
  have checked : (resolvedLog.record (checkAll programs).findings).entries.count diagnostic = _ :=
    DiagnosticLog.count_record warns (checkAll programs) diagnostic
  simp only [analyse, never, Bool.false_eq_true, if_false, DiagnosticLog.count_sorted]
  change (resolvedLog.record (checkAll programs).findings).entries.count diagnostic = _
  omega

/-- Files of different names that can be read are reported on without repetition: no
two diagnostics agree in position, severity and message.  Excepted are the conversions
of numbers, of which there are at most as many at a place as concatenations that begin
there; and nothing is said of methods that do not match their declaration in an
interface. -/
theorem compile_reports_once {files : List SourceFile} {programs : List Program}
    (distinct : (files.map SourceFile.name).Nodup) (read : readFiles files = .ok programs)
    (options : Options) :
    ∃ compilation, compile options files = .ok compilation ∧
      ∀ diagnostic : Diagnostic, diagnostic.OfNoMismatchedMethod →
        compilation.log.entries.count diagnostic ≤
          if diagnostic.message = Problem.implicitConversion.message then
            (programs.flatMap Program.nodes).countP (Expr.isConcatenationAt diagnostic.position)
          else 1 := by
  refine ⟨analyse options programs, by rw [compile, read]; rfl, fun diagnostic other => ?_⟩
  have written := forall_of_readFiles read Program.written_ofSource
  have anchored := forall_of_readFiles read fun accepted =>
    (Program.anchored_and_count_marks accepted).1
  have logged := count_analyse_le options programs diagnostic
  have passes := times_passes other written anchored
  have rooms := diagnostic.rooms_le (programs.flatMap Program.marks)
  have places := count_marks_le_one distinct read diagnostic.position
  rw [diagnostic.conversions_eq] at passes
  by_cases converts : diagnostic.message = Problem.implicitConversion.message
  · have isConversion : diagnostic.isConversion = true := decide_eq_true converts
    have noCycle : diagnostic.isCycle = false := by
      rw [Diagnostic.isCycle, converts, Problem.take_message]
      rfl
    rw [isConversion, noCycle] at rooms passes
    rw [if_pos converts]
    simp only [Bool.or_true, if_true, Bool.false_eq_true, if_false] at rooms passes
    omega
  · have isConversion : diagnostic.isConversion = false := decide_eq_false converts
    rw [isConversion] at rooms passes
    rw [if_neg converts]
    cases cyclic : diagnostic.isCycle
    all_goals
      rw [cyclic] at rooms passes
      simp only [Bool.or_false, if_true, Bool.false_eq_true, if_false] at rooms passes
      omega

/-- Two files with mistakes of several kinds, some of them at one place. -/
def mistakenFiles : List SourceFile :=
  [⟨"base.kn", "interface I \x7b fn m(): int; \x7d class C use I \x7b int x; int x; \x7d " ++
      "fn f(): int \x7b \x7d fn f(int a, int a): void \x7b \x7d"⟩,
    ⟨"main.kn", "fn main(): void \x7b string s = \"a\" + 1 + 1; s = 2; f(y); \x7d"⟩]

/-- Eight errors, and a warning for each of two concatenations at one place. -/
theorem compile_reports_once_mistakenFiles :
    (mistakenFiles.map SourceFile.name).Nodup ∧
      ∃ programs, readFiles mistakenFiles = .ok programs ∧
        ∃ compilation, compile {} mistakenFiles = .ok compilation ∧
          compilation.log.errorCount = 8 ∧
            ∀ diagnostic : Diagnostic, diagnostic.OfNoMismatchedMethod →
              compilation.log.entries.count diagnostic ≤
                if diagnostic.message = Problem.implicitConversion.message then
                  (programs.flatMap Program.nodes).countP
                    (Expr.isConcatenationAt diagnostic.position)
                else 1 := by
  have distinct : (mistakenFiles.map SourceFile.name).Nodup := by decide
  have reported : readWith (fun programs => decide (
      (SymbolModel.ofPrograms programs).tally Finding.isError +
      (resolveAll programs).tally Finding.isError +
      (checkAll programs).tally Finding.isError = 8)) mistakenFiles = true :=
    readWith_of_letters (.cons (.append .literal .literal) (.cons .literal .nil))
      (by decide +kernel)
  obtain ⟨programs, read, counted⟩ := exists_of_readWith reported
  obtain ⟨compilation, compiled, once⟩ := compile_reports_once distinct read {}
  have analysed : compile {} mistakenFiles = .ok (analyse {} programs) := by
    rw [compile, read]
    rfl
  cases compiled.symm.trans analysed
  exact ⟨distinct, programs, read, _, compiled,
    (errorCount_analyse rfl programs).trans (of_decide_eq_true counted), once⟩

/-- Two concatenations that begin at one place convert a number each, and a method
that does not match an interface is reported for every used interface that leads to
it; so there are files that are reported on twice in the same words. -/
theorem compile_reports_twice :
    (∃ compilation, compile {} [⟨"main.knight",
        "fn main(): void \x7b string s = \"a\" + 1 + 1; \x7d"⟩] = .ok compilation ∧
      1 < compilation.log.entries.count
        (Finding.mk ⟨1, 30, "main.knight"⟩ .implicitConversion).diagnostic) ∧
    (∃ compilation, compile {} [⟨"main.knight",
        "interface I \x7b fn m(): int; \x7d interface J ext I \x7b \x7d " ++
          "class C use I, J \x7b fn m(): void \x7b \x7d \x7d"⟩] = .ok compilation ∧
      1 < compilation.log.entries.count
        (Finding.mk ⟨1, 74, "main.knight"⟩ (.mismatchedMethod "C" "m" "I")).diagnostic) := by
  have found {files : List SourceFile} {diagnostic : Diagnostic}
      (reported : readWith (fun programs => decide (1 < (checkAll programs).tally diagnostic.tells))
        files = true) :
      ∃ compilation, compile {} files = .ok compilation ∧
        1 < compilation.log.entries.count diagnostic := by
    obtain ⟨programs, read, twice⟩ := exists_of_readWith reported
    have twice := of_decide_eq_true twice
    refine ⟨analyse {} programs, by rw [compile, read]; rfl, ?_⟩
    rw [count_analyse rfl rfl]
    omega
  exact ⟨found (readWith_of_letters (.cons .literal .nil) (by decide +kernel)),
    found (readWith_of_letters (.cons (.append .literal .literal) .nil) (by decide +kernel))⟩

end KnightFront
