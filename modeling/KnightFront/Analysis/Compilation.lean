import KnightFront.Analysis.Declarations
import KnightFront.Analysis.Resolution
import KnightFront.Analysis.Typing
import KnightFront.Parse.Item

namespace KnightFront

/-!
# Compilations

All files are read first, and a fault in one of them ends everything.  Then
the three passes run over them: declarations of all files are collected before
any file is resolved, so files may refer to each other in any order.  What the
passes find is logged and sorted.
-/

/-- What a user can choose. -/
structure Options where
  /-- Whether warnings are reported. -/
  warnings : Bool := true
  /-- Whether later passes run after an earlier one has found an error. -/
  continueAfterErrors : Bool := true
deriving DecidableEq, Repr, Inhabited

/-- The outcome of analysis. -/
structure Compilation where
  programs : List Program
  model : SymbolModel
  log : DiagnosticLog
deriving Inhabited

namespace Compilation

/-- Whether anything is wrong. -/
def hasErrors (compilation : Compilation) : Bool := compilation.log.hasErrors

/-- Whether the trees can be handed on for code generation. -/
def readyForCode (compilation : Compilation) : Bool := !compilation.hasErrors

end Compilation

/-- A log with the findings of a pass behind its own entries. -/
def DiagnosticLog.record (log : DiagnosticLog) (findings : List Finding) : DiagnosticLog :=
  log.extend (findings.map Finding.diagnostic)

/-- The state after a pass with this log. -/
def PassState.afterLog (log : DiagnosticLog) : PassState :=
  if log.hasErrors then completedWithDiagnostics else completed

/-- What a pass gives for a program: the tree, the log and the state that it ends in. -/
abbrev PassOutcome := Program × DiagnosticLog × PassState

/-- Whether analysis ends after a pass with this log. -/
def Options.stopsAfter (options : Options) (log : DiagnosticLog) : Bool :=
  log.hasErrors && !options.continueAfterErrors

/-- Run the three passes over files that have been read. -/
def analyse (options : Options) (programs : List Program) : Compilation :=
  let declared := SymbolModel.ofPrograms programs
  let model := declared.value
  let log := (DiagnosticLog.empty.withWarnings options.warnings).record declared.findings
  if options.stopsAfter log then ⟨programs, model, log.sorted⟩
  else
    let resolved := programs.mapM (Program.resolve model)
    let log := log.record resolved.findings
    if options.stopsAfter log then ⟨resolved.value, model, log.sorted⟩
    else
      let checked := resolved.value.mapM (Program.check model)
      let log := log.record checked.findings
      ⟨checked.value, model, log.sorted⟩

/-- A source file: its name and its text. -/
structure SourceFile where
  name : String
  text : String
deriving DecidableEq, Repr, Inhabited

/-- The text of the first file of a name, or no text. -/
def textOf (files : List SourceFile) (name : String) : String :=
  match files.find? fun file => file.name == name with
  | none => ""
  | some file => file.text

/-- Read the files in order, up to the first failure. -/
def readFiles (files : List SourceFile) : Except ParseFailure (List Program) :=
  files.mapM fun file => Program.ofSource file.name file.text

/-- Read and analyse files. -/
def compile (options : Options) (files : List SourceFile) : Except ParseFailure Compilation :=
  (readFiles files).map (analyse options)

end KnightFront
