import KnightFront.Parse.Stmt
import KnightFront.Token.Lexer
import KnightFront.Tree.Program

namespace KnightFront
namespace Parser

/-!
# Reading declarations

A declaration at the top level is told by its keyword, or else declares a
variable.  A program is a sequence of declarations up to the end of input.
-/

/-- A parameter. -/
def param : Parser Param := do
  let (ty, tySpan) ← typeName
  let name ← expect .identifier
  return { ty, tySpan, name := name.value, span := name.span }

/-- A parameter list with its parentheses. -/
def params : Parser (List Param) := do
  let _ ← expect .openParen
  let found ← listUpTo .closeParen param
  let _ ← expect .closeParen
  return found

/-- The head of a function. -/
def functionHead : Parser FunctionHead := do
  let _ ← expect .fnWord
  let name ← expect .identifier
  let params ← params
  let _ ← expect .colon
  let (returnTy, returnTySpan) ← typeName
  return { name := name.value, params, returnTy, returnTySpan, span := name.span }

/-- The statements of a function body and the return that closes it.  A
return closes the body when nothing stands between it and the brace. -/
def functionBody : Parser (List Stmt × Option Return) :=
  rounds
    (fun collected => do
      match ← currentKind with
      | .closeCurly => return .done (collected.reverse, none)
      | .eof => misplaced "expected `\x7d` to close the function body"
      | .retWord => do
          let id ← freshId
          let returned ← returnClause
          if (← currentKind) = .closeCurly then return .done (collected.reverse, some returned)
          else return .again (.ret { id, span := returned.span } returned :: collected)
      | _ => return .again ((← bodyItem stmt) :: collected))
    []

/-- A function or method. -/
def function : Parser FunctionDecl := do
  let id ← freshId
  let head ← functionHead
  let _ ← expect .openCurly
  let (body, closing) ← functionBody
  let _ ← expect .closeCurly
  return { id, head, body, closing }

/-- The inclusion of a library. -/
def inclusion : Parser IncludeDecl := do
  let keyword ← expect .includeWord
  let _ ← expect .less
  let name ← expect .identifier
  let _ ← expect .greater
  return { name := name.value, span := ← spanFrom keyword.span.start }

/-- The members of an enumeration.  There may be none, and a comma may follow
the last one. -/
def enumMembers : Parser (List (String × Span)) :=
  rounds
    (fun collected => do
      if (← currentKind) = .identifier then
        let member ← take
        let longer := (member.value, member.span) :: collected
        if (← currentKind) = .comma then
          let _ ← take
          return .again longer
        else return .done longer.reverse
      else return .done collected.reverse)
    []

/-- An enumeration. -/
def enumeration : Parser EnumDecl := do
  let _ ← expect .enumWord
  let name ← expect .identifier
  let _ ← expect .openCurly
  let members ← enumMembers
  let _ ← expect .closeCurly
  return { name := name.value, members, span := name.span }

/-- The use of a name. -/
def nameUse : Parser NameUse := do
  let token ← expect .identifier
  return { text := token.value, span := token.span }

/-- The names behind a keyword, if the keyword is there. -/
def nameClause (keyword : TokenKind) : Parser (List NameUse) := do
  if (← currentKind) = keyword then
    let _ ← take
    commaSeparated nameUse
  else return []

/-- The method heads of an interface. -/
def interfaceMethods : Parser (List FunctionHead) :=
  rounds
    (fun collected => do
      if (← currentKind) = .fnWord then
        let head ← functionHead
        let _ ← expect .semicolon
        return .again (head :: collected)
      else return .done collected.reverse)
    []

/-- An interface. -/
def interface : Parser InterfaceDecl := do
  let _ ← expect .interfaceWord
  let name ← expect .identifier
  let bases ← nameClause .extWord
  let _ ← expect .openCurly
  let methods ← interfaceMethods
  let _ ← expect .closeCurly
  return { name := name.value, bases, methods, span := name.span }

/-- The parent of a class. -/
def parentClause : Parser (Option NameUse) := do
  if (← currentKind) = .extWord then
    let _ ← take
    return some (← nameUse)
  else return none

/-- The fields and methods of a class. -/
def classMembers : Parser (List VarDecl × List FunctionDecl) :=
  rounds
    (fun (fields, methods) => do
      match ← currentKind with
      | .closeCurly => return .done (fields.reverse, methods.reverse)
      | .fnWord => return .again (fields, (← function) :: methods)
      | _ =>
          if ← startsDeclaration then return .again ((← varDecl) :: fields, methods)
          else misplaced "expected a field or method declaration")
    ([], [])

/-- A class. -/
def classDecl : Parser ClassDecl := do
  let _ ← expect .classWord
  let name ← expect .identifier
  let parent ← parentClause
  let uses ← nameClause .useWord
  let _ ← expect .openCurly
  let (fields, methods) ← classMembers
  let _ ← expect .closeCurly
  return { name := name.value, parent, uses, fields, methods, span := name.span }

/-- The keywords that begin a declaration at the top level. -/
def itemKeywords : List TokenKind :=
  [.includeWord, .enumWord, .interfaceWord, .classWord, .fnWord]

/-- A declaration at the top level. -/
def item : Parser Item := do
  match ← currentKind with
  | .includeWord => return .inclusion (← inclusion)
  | .enumWord => return .enumeration (← enumeration)
  | .interfaceWord => return .interface (← interface)
  | .classWord => return .classDecl (← classDecl)
  | .fnWord => return .function (← function)
  | _ =>
      if ← startsDeclaration then return .globalVariable (← varDecl)
      else misplaced "expected a declaration"

/-- Declarations up to the end of input. -/
def items : Parser (List Item) :=
  rounds
    (fun collected => do
      if (← currentKind) = .eof then return .done collected.reverse
      else return .again ((← item) :: collected))
    []

end Parser

namespace Program

/-- The program of a token list. -/
def ofTokens (file : String) (tokens : List Token) : Except ParseFailure Program :=
  match Parser.items (.ofTokens tokens) with
  | .error failure => .error failure
  | .ok (items, _) => .ok { file, items }

/-- The program of a source file, or its first fault. -/
def ofSource (file source : String) : Except ParseFailure Program :=
  match tokenize file source with
  | .error fault => .error (.fault fault)
  | .ok tokens => ofTokens file tokens

end Program

end KnightFront
