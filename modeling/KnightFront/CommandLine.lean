import KnightFront.Analysis.Compilation
import KnightFront.Report

namespace KnightFront
namespace CommandLine

/-!
# The command line

The command takes the names of source files and two flags, in any order.
Behind `--` every argument is a file name, and so is a lone dash anywhere.
What the command prints and its exit code are functions of its arguments and
of the contents of the files.
-/

/-- What the arguments ask for. -/
structure Request where
  files : List String := []
  noWarnings : Bool := false
  stopOnError : Bool := false
deriving DecidableEq, Repr, Inhabited

/-- Take up the arguments one by one.  A flag may be given once, a file name
is not empty, and nothing else may begin with a dash. -/
def parseArgs (request : Request) : List String → Option Request
  | [] => some request
  | "--" :: names =>
      if names.any String.isEmpty then none
      else some { request with files := request.files ++ names }
  | "--no-warnings" :: rest =>
      if request.noWarnings then none else parseArgs { request with noWarnings := true } rest
  | "--stop-on-error" :: rest =>
      if request.stopOnError then none else parseArgs { request with stopOnError := true } rest
  | argument :: rest =>
      if argument.isEmpty || (argument.startsWith "-" && argument != "-") then none
      else parseArgs { request with files := request.files ++ [argument] } rest

/-- The request that arguments make.  At least one file is named. -/
def request? (args : List String) : Option Request :=
  (parseArgs {} args).filter fun request => !request.files.isEmpty

/-- The options that a request selects. -/
def Request.options (request : Request) : Options where
  warnings := !request.noWarnings
  continueAfterErrors := !request.stopOnError

/-- What the command leaves behind. -/
structure Outcome where
  code : Nat
  output : String
deriving DecidableEq, Repr, Inhabited

/-- The outcome for files that have been read: a report of each diagnostic
with an empty line behind it, then the number of errors if there are any.  A
fault is reported alone. -/
def outcomeOf (options : Options) (files : List SourceFile) : Outcome :=
  match compile options files with
  | .error (.fault fault) =>
      ⟨1, Report.ofFault fault (textOf files fault.position.file) ++ "\n"⟩
  | .error (.defect _) => ⟨101, ""⟩
  | .ok compilation =>
      let reports := compilation.log.entries.map fun diagnostic =>
        Report.ofDiagnostic diagnostic (textOf files diagnostic.position.file) ++ "\n\n"
      let summary :=
        if compilation.hasErrors then
          toString compilation.log.errorCount ++ " error(s) found\n"
        else ""
      ⟨if compilation.hasErrors then 1 else 0, String.join reports ++ summary⟩

/-- The outcome of the command.  `contents` gives the contents of a file that
can be read as UTF-8 text; one that cannot ends the command with code 1, and
wrong arguments end it with code 2. -/
def outcome (contents : String → Option String) (args : List String) : Outcome :=
  match request? args with
  | none => ⟨2, ""⟩
  | some request =>
      match request.files.mapM fun name => (contents name).map (SourceFile.mk name) with
      | none => ⟨1, ""⟩
      | some files => outcomeOf request.options files

end CommandLine
end KnightFront
