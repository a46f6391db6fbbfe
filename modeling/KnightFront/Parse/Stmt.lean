import KnightFront.Parse.Expr
import KnightFront.Parse.TypeName
import KnightFront.Tree.Stmt

namespace KnightFront
namespace Parser

/-!
# Reading statements

A statement is told by its first token; behind a name, the next token decides
between an assignment and an expression.  Declarations are not statements:
they stand directly in a body or block and at the head of a loop, but not
alone below a condition.
-/

/-- A declaration of a variable, with its semicolon. -/
def varDecl : Parser VarDecl := do
  let (ty, tySpan) ← typeName
  let name ← expect .identifier
  let init ←
    if (← currentKind) = .assignment then do
      let _ ← take
      pure (some (← expr))
    else pure none
  let _ ← expect .semicolon
  return { ty, tySpan, name := name.value, nameSpan := name.span, init }

/-- An assignment to a variable or an array element, without a semicolon. -/
def assignment : Parser Assignment := do
  let start ← position
  let id ← freshId
  let name ← expect .identifier
  let index ←
    if (← currentKind) = .openBracket then do
      let _ ← take
      let index ← expr
      let _ ← expect .closeBracket
      pure (some index)
    else pure none
  let _ ← expect .assignment
  let value ← expr
  return {
    info := { id, span := ← spanFrom start }
    target := { text := name.value, span := name.span }
    index
    value }

/-- A return, with its semicolon. -/
def returnClause : Parser Return := do
  let keyword ← expect .retWord
  let value ←
    if (← currentKind) = .semicolon then pure none
    else do pure (some (← expr))
  let _ ← expect .semicolon
  return { value, span := ← spanFrom keyword.span.start }

/-- A return as a statement. -/
def returnStmt : Parser Stmt := do
  let id ← freshId
  let returned ← returnClause
  return .ret { id, span := returned.span } returned

/-- A condition between parentheses. -/
def condition : Parser Expr := do
  let _ ← expect .openParen
  let tested ← expr
  let _ ← expect .closeParen
  return tested

/-- A conditional statement.  An alternative belongs to the nearest
condition. -/
def ifStmt (nested : Parser Stmt) : Parser Stmt := do
  let start ← position
  let id ← freshId
  let _ ← expect .ifWord
  let tested ← condition
  let body ← nested
  if (← currentKind) = .elseWord then
    let _ ← take
    let alternative ← nested
    return .ifElse { id, span := ← spanFrom start } tested body alternative
  else return .ifThen { id, span := ← spanFrom start } tested body

/-- A loop with a condition only. -/
def whileStmt (nested : Parser Stmt) : Parser Stmt := do
  let start ← position
  let id ← freshId
  let _ ← expect .whileWord
  let tested ← condition
  let body ← nested
  return .whileLoop { id, span := ← spanFrom start } tested body

/-- A loop with a declaration, a condition and an assignment at its head. -/
def forStmt (nested : Parser Stmt) : Parser Stmt := do
  let start ← position
  let id ← freshId
  let _ ← expect .forWord
  let _ ← expect .openParen
  if !(← startsDeclaration) then misplaced "expected a variable declaration to start the loop"
  let init ← varDecl
  let tested ← expr
  let _ ← expect .semicolon
  if (← currentKind) ≠ .identifier then misplaced "expected an assignment to update the loop"
  let update ← assignment
  let _ ← expect .closeParen
  let body ← nested
  return .forLoop { id, span := ← spanFrom start } init tested update body none

/-- A statement that begins with a name: an assignment to a variable, array
element or field, or a call. -/
def nameStmt : Parser Stmt := do
  let next ← nextKind
  if next = .assignment ∨ next = .openBracket then
    let assigned ← assignment
    let _ ← expect .semicolon
    let span ← spanFrom assigned.info.span.start
    return .assign { assigned with info := { assigned.info with span } }
  else
    let start ← position
    let id ← freshId
    let first ← expr
    if (← currentKind) = .assignment then
      match first with
      | .field _ receiver used => do
          let _ ← take
          let value ← expr
          let _ ← expect .semicolon
          return .fieldAssign { id, span := ← spanFrom start } receiver used value
      | _ => misplaced "only variables, array elements and fields can be assigned"
    else if first.isCall then
      let _ ← expect .semicolon
      return .call { id, span := ← spanFrom start } first
    else misplaced "only calls can be used as statements"

/-- What may stand directly in a body or block: a declaration or a
statement. -/
def bodyItem (nested : Parser Stmt) : Parser Stmt := do
  if ← startsDeclaration then
    let start ← position
    let id ← freshId
    let decl ← varDecl
    return .varDecl { id, span := ← spanFrom start } decl
  else nested

/-- A block. -/
def blockStmt (nested : Parser Stmt) : Parser Stmt := do
  let start ← position
  let id ← freshId
  let _ ← expect .openCurly
  let stmts ← rounds
    (fun collected => do
      match ← currentKind with
      | .closeCurly => return .done collected.reverse
      | .eof => misplaced "expected `\x7d` to close the block"
      | _ => return .again ((← bodyItem nested) :: collected))
    []
  let _ ← expect .closeCurly
  return .block { id, span := ← spanFrom start } stmts none

/-- One statement, given a reader for those inside it. -/
def stmtLevel (nested : Parser Stmt) : Parser Stmt := do
  match ← currentKind with
  | .ifWord => ifStmt nested
  | .whileWord => whileStmt nested
  | .forWord => forStmt nested
  | .retWord => returnStmt
  | .openCurly => blockStmt nested
  | .identifier => nameStmt
  | _ => misplaced "expected a statement"

/-- The kinds that begin a statement other than a name. -/
def stmtKeywords : List TokenKind :=
  [.ifWord, .whileWord, .forWord, .retWord, .openCurly]

/-- A statement. -/
def stmt : Parser Stmt := nesting stmtLevel

end Parser
end KnightFront
