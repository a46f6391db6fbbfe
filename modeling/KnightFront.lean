import KnightFront.Analysis.Compilation
import KnightFront.Analysis.Declarations
import KnightFront.Analysis.NameResolver
import KnightFront.Analysis.Resolution
import KnightFront.Analysis.TypeChecker
import KnightFront.Analysis.Typing
import KnightFront.CommandLine
import KnightFront.Diagnostics.Diagnostic
import KnightFront.Diagnostics.Problem
import KnightFront.Diagnostics.Reported
import KnightFront.Main
import KnightFront.Parse.Cursor
import KnightFront.Parse.Expr
import KnightFront.Parse.Item
import KnightFront.Parse.SharedStacks
import KnightFront.Parse.Stmt
import KnightFront.Parse.TypeName
import KnightFront.Report
import KnightFront.Source.Position
import KnightFront.Source.Text
import KnightFront.Symbols.Binding
import KnightFront.Symbols.Entity
import KnightFront.Symbols.Hierarchy
import KnightFront.Symbols.Model
import KnightFront.Symbols.NameSet
import KnightFront.Symbols.Scope
import KnightFront.Symbols.Table
import KnightFront.SyntaxFault
import KnightFront.Text.Blank
import KnightFront.Text.CodePoints
import KnightFront.Text.Extending
import KnightFront.Text.Printable
import KnightFront.Text.Quoted
import KnightFront.Token.Basic
import KnightFront.Token.Kind
import KnightFront.Token.Lexer
import KnightFront.Token.Stream
import KnightFront.Token.StringLiteral
import KnightFront.Tree.Expr
import KnightFront.Tree.Operator
import KnightFront.Tree.Printer
import KnightFront.Tree.Program
import KnightFront.Tree.StaticTy
import KnightFront.Tree.Stmt
import KnightFront.Ty
import KnightFront.Proofs.Tree.Shape
import KnightFront.Proofs.Token.Contents
import KnightFront.Proofs.Token.Spelling
import KnightFront.Proofs.Token.Lexed
import KnightFront.Proofs.Printing.Tokens
import KnightFront.Proofs.Parse.Rules
import KnightFront.Proofs.Printing.Reread
import KnightFront.Proofs.Parse.Stacks
import KnightFront.Proofs.Printing.ReadExpr
import KnightFront.Proofs.Printing.ReadItem
import KnightFront.Proofs.Parse.ParsedExpr
import KnightFront.Proofs.Parse.ParsedPath
import KnightFront.Proofs.Parse.ParsedStmt
import KnightFront.Proofs.Parse.ParsedItem
import KnightFront.Proofs.Printing.RoundTrip
import KnightFront.Proofs.Diagnostics.Absence
import KnightFront.Proofs.Symbols.Ancestry
import KnightFront.Proofs.Typing.Rules
import KnightFront.Proofs.Symbols.Closed
import KnightFront.Proofs.Resolution.Linked
import KnightFront.Proofs.Resolution.Links
import KnightFront.Proofs.Resolution.Clean
import KnightFront.Proofs.Typing.Operands
import KnightFront.Proofs.Typing.Exprs
import KnightFront.Proofs.Typing.Stmts
import KnightFront.Proofs.Typing.Recorded
import KnightFront.Proofs.Analysis.Reading
import KnightFront.Proofs.Typing.Decides
import KnightFront.Proofs.Analysis.Annotated
import KnightFront.Proofs.Resolution.Arena
import KnightFront.Proofs.Resolution.Uses
import KnightFront.Proofs.Resolution.Lexical
import KnightFront.Proofs.Grammar.Phrases
import KnightFront.Proofs.Grammar.Reading
import KnightFront.Proofs.Grammar.Balance
import KnightFront.Proofs.Grammar.ReadsExpr
import KnightFront.Proofs.Grammar.ReadsPath
import KnightFront.Proofs.Grammar.Alternatives
import KnightFront.Proofs.Grammar.ReadsStmt
import KnightFront.Proofs.Grammar.ReadsItem
import KnightFront.Proofs.Grammar.Accepted
import KnightFront.Proofs.Diagnostics.Counts
import KnightFront.Proofs.Symbols.Names
import KnightFront.Proofs.Edits.Edited
import KnightFront.Proofs.Edits.Judged
import KnightFront.Proofs.Edits.Fading
import KnightFront.Proofs.Edits.Site
import KnightFront.Proofs.Edits.SpoiledExpr
import KnightFront.Proofs.Edits.JudgedStmt
import KnightFront.Proofs.Edits.SpoiledStmt
import KnightFront.Proofs.Edits.JudgedItem
import KnightFront.Proofs.Edits.SpoiledProgram
import KnightFront.Proofs.Edits.Renamed
import KnightFront.Proofs.Symbols.Rearranged
import KnightFront.Proofs.Symbols.Collected
import KnightFront.Proofs.Diagnostics.Rearranged
import KnightFront.Proofs.Resolution.Rearranged
import KnightFront.Proofs.Typing.Rearranged
import KnightFront.Proofs.Analysis.FileOrder
import KnightFront.Proofs.Analysis.Verdict
import KnightFront.Proofs.Relabelling.Readers
import KnightFront.Proofs.Relabelling.Expressions
import KnightFront.Proofs.Relabelling.Programs
import KnightFront.Proofs.Relabelling.Findings
import KnightFront.Proofs.Relabelling.Typing
import KnightFront.Proofs.Relabelling.Models
import KnightFront.Proofs.Relabelling.Resolution
import KnightFront.Proofs.Relabelling.Declarations
import KnightFront.Proofs.Relabelling.Interfaces
import KnightFront.Proofs.Relabelling.Passes
import KnightFront.Proofs.Relabelling.Files
import KnightFront.Proofs.Relabelling.Respelled
import KnightFront.Proofs.Relabelling.Layout
import KnightFront.Proofs.Symbols.Agreement
import KnightFront.Proofs.Relabelling.Apart
import KnightFront.Proofs.Relabelling.Confined
import KnightFront.Proofs.Relabelling.Unrelated
import KnightFront.Proofs.Parse.Progress
import KnightFront.Proofs.Parse.ProgressItem
import KnightFront.Proofs.Parse.SharedLevels
import KnightFront.Proofs.Symbols.FirstDeclared
import KnightFront.Proofs.Symbols.TakesFirst
import KnightFront.Proofs.Symbols.Allotted
import KnightFront.Proofs.Resolution.Allotted
import KnightFront.Proofs.Parse.LocalPlaces
import KnightFront.Proofs.Resolution.SameLocals
import KnightFront.Proofs.Precedence.Suffixes
import KnightFront.Proofs.Analysis.VoidUse
import KnightFront.Proofs.Token.Literal
import KnightFront.Proofs.Token.Lexical
import KnightFront.Proofs.Token.Partition
import KnightFront.Proofs.Token.Seam
import KnightFront.Proofs.Printing.Expressible
import KnightFront.Proofs.Tree.Mentions
import KnightFront.Proofs.Parse.SpentExpr
import KnightFront.Proofs.Parse.SpentStmt
import KnightFront.Proofs.Parse.SpentItem
import KnightFront.Proofs.Diagnostics.Wording
import KnightFront.Proofs.Diagnostics.Occurrences
import KnightFront.Proofs.Analysis.RoomExpr
import KnightFront.Proofs.Analysis.RoomStmt
import KnightFront.Proofs.Analysis.RoomHeritage
import KnightFront.Proofs.Analysis.RoomItem
import KnightFront.Proofs.Analysis.RoomDeclared
import KnightFront.Proofs.Analysis.ReportedOnce
import KnightFront.Proofs.Symbols.Reached
import KnightFront.Proofs.Symbols.Chains
import KnightFront.Proofs.Symbols.Cycles
import KnightFront.Proofs.Typing.Conformance
import KnightFront.Proofs.Retyping.Types
import KnightFront.Proofs.Retyping.Trees
import KnightFront.Proofs.Retyping.Models
import KnightFront.Proofs.Retyping.Declarations
import KnightFront.Proofs.Retyping.Names
import KnightFront.Proofs.Retyping.Expressions
import KnightFront.Proofs.Retyping.Statements
import KnightFront.Proofs.Retyping.Programs
import KnightFront.Proofs.Retyping.UnknownTypes
import KnightFront.Proofs.Foresight.Rules
import KnightFront.Proofs.Foresight.Phrases
import KnightFront.Proofs.Foresight.FirstFault
import KnightFront.Proofs.Identity.Rules
import KnightFront.Proofs.Identity.Phrases
import KnightFront.Proofs.Identity.Unique
import KnightFront.Proofs.Report.Caret
import KnightFront.Proofs.Rerun.Behind
import KnightFront.Proofs.Rerun.Shifted
import KnightFront.Proofs.Rerun.Repeatable
import KnightFront.Proofs.Resolution.Nesting
import KnightFront.Proofs.Resolution.SlotsInTurn
import KnightFront.Proofs.Spans.Order
import KnightFront.Proofs.Spans.Exprs
import KnightFront.Proofs.Spans.Stmts
import KnightFront.Proofs.Spans.Programs
