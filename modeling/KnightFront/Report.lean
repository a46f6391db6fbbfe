import KnightFront.Diagnostics.Diagnostic
import KnightFront.Source.Text
import KnightFront.SyntaxFault
import KnightFront.Text.Blank

namespace KnightFront
namespace Report

/-!
# Reports

A report shows a message, the file it is about and, if it exists, the line it
points at with a caret below the column.  The line is shown without its
leading spaces and tabs and without trailing blanks; the caret moves left with
it, but not beyond the first column.
-/

/-- Whether a character is removed at the beginning of a shown line. -/
def isIndent (character : Char) : Bool := character == ' ' || character == '\t'

/-- A text pushed to the right end of a width. -/
def padLeft (width : Nat) (fill : Char) (text : String) : String :=
  String.ofList (List.replicate (width - text.length) fill) ++ text

/-- A heading, the file and the line with its caret. -/
def render (heading : String) (position : Position) (source : String) : String :=
  let head := heading ++ "\n-> " ++ position.file
  match lineText? source position.line with
  | none => head ++ ":" ++ toString position.line ++ ":" ++ toString position.column
  | some line =>
      let number := toString position.line
      let bar := padLeft (number.length + 2) ' ' "|"
      let shown := String.ofList (Text.trimBlankEnd (line.dropWhile isIndent))
      let removed := (line.takeWhile isIndent).length
      let caret := padLeft (max (position.column - removed) 1) '-' "^"
      head ++ "\n" ++ bar ++ "\n" ++ number ++ " | " ++ shown ++ "\n" ++ bar ++ " " ++ caret

/-- The report of a fault, headed by its name and its tip. -/
def ofFault (fault : SyntaxFault) (source : String) : String :=
  let tip :=
    match fault.cause.tip? with
    | none => ""
    | some text => " (" ++ text ++ ")"
  render ("Error: " ++ fault.cause.name ++ tip) fault.position source

/-- The report of a diagnostic, headed by its severity and its message. -/
def ofDiagnostic (diagnostic : Diagnostic) (source : String) : String :=
  render (diagnostic.severity.name ++ ": " ++ diagnostic.message) diagnostic.position source

end Report
end KnightFront
