import KnightFront.Source.Position

namespace KnightFront

/-!
# Diagnostics

A diagnostic is a message about a place in a source file.  Analysis goes on
after it reports one, so diagnostics are collected in a log.  A log may be set
to drop warnings; what it already holds stays.
-/

/-- How grave a diagnostic is, gravest first. -/
inductive Severity where
  | error
  | warning
  | info
deriving DecidableEq, Repr, Inhabited

namespace Severity

/-- The word for a severity. -/
def name : Severity → String
  | error => "error"
  | warning => "warning"
  | info => "info"

/-- The place of a severity, gravest first. -/
def rank : Severity → Nat
  | error => 0
  | warning => 1
  | info => 2

end Severity

/-- A message about a place. -/
structure Diagnostic where
  position : Position
  message : String
  severity : Severity
deriving DecidableEq, Repr, Inhabited

namespace Diagnostic

/-- Whether a diagnostic is an error. -/
def isError (diagnostic : Diagnostic) : Bool := decide (diagnostic.severity = .error)

/-- The one-line form, with the position in front. -/
def describe (diagnostic : Diagnostic) : String :=
  diagnostic.position.describe ++ ": " ++ diagnostic.severity.name ++ ": " ++ diagnostic.message

/-- The order of a report: by file, line, column and severity.  The message
does not count. -/
def order (first second : Diagnostic) : Ordering :=
  (compare first.position.file second.position.file).then <|
    (compare first.position.line second.position.line).then <|
      (compare first.position.column second.position.column).then <|
        compare first.severity.rank second.severity.rank

end Diagnostic

/-- Diagnostics in the order in which they were reported. -/
structure DiagnosticLog where
  entries : List Diagnostic := []
  warnings : Bool := true
deriving DecidableEq, Repr, Inhabited

namespace DiagnosticLog

/-- The log without entries, which takes warnings. -/
def empty : DiagnosticLog := {}

/-- The same entries, with later warnings taken or dropped. -/
def withWarnings (log : DiagnosticLog) (taken : Bool) : DiagnosticLog :=
  { log with warnings := taken }

/-- Whether a log takes a diagnostic. -/
def accepts (log : DiagnosticLog) (diagnostic : Diagnostic) : Bool :=
  log.warnings || decide (diagnostic.severity ≠ .warning)

/-- The log with the diagnostics of a list behind its own, as far as it takes
them. -/
def extend (log : DiagnosticLog) (diagnostics : List Diagnostic) : DiagnosticLog :=
  { log with entries := log.entries ++ diagnostics.filter log.accepts }

/-- The log with one more diagnostic, if it takes it. -/
def push (log : DiagnosticLog) (diagnostic : Diagnostic) : DiagnosticLog :=
  log.extend [diagnostic]

@[simp]
theorem warnings_extend (log : DiagnosticLog) (diagnostics : List Diagnostic) :
    (log.extend diagnostics).warnings = log.warnings := rfl

@[simp]
theorem extend_append (log : DiagnosticLog) (first second : List Diagnostic) :
    log.extend (first ++ second) = (log.extend first).extend second := by
  have same : ∀ entries, ({ log with entries } : DiagnosticLog).accepts = log.accepts :=
    fun _ => rfl
  simp [extend, same]

/-- Whether a log holds an error. -/
def hasErrors (log : DiagnosticLog) : Bool := log.entries.any Diagnostic.isError

/-- How many errors a log holds. -/
def errorCount (log : DiagnosticLog) : Nat := log.entries.countP Diagnostic.isError

/-- The entries in the order of a report.  Entries that stand at one place
with one severity keep their order. -/
def sorted (log : DiagnosticLog) : DiagnosticLog :=
  { log with
    entries := log.entries.mergeSort fun first second => (first.order second).isLE }

/-- One line for each entry. -/
def describe (log : DiagnosticLog) : String :=
  log.entries.foldr (fun diagnostic rest => diagnostic.describe ++ "\n" ++ rest) ""

end DiagnosticLog

end KnightFront
