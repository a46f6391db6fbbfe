import KnightFront.Token.StringLiteral
import KnightFront.Tree.Program

namespace KnightFront

/-!
# Printing trees

A tree is printed as source text that reads back as the same tree.  Every
binary expression is put in parentheses, so the printed form does not depend
on priorities.  Statements and declarations are printed as lines, four spaces
deep for each level; a statement below a condition or loop is one level
deeper, except for a block, which stays at the level of its head.
-/

namespace Expr

mutual

/-- An expression on one line. -/
def print : Expr → String
  | int _ value => toString value
  | string _ value => StringLiteral.encode value
  | bool _ value => if value then "true" else "false"
  | name _ used => used.text
  | binary _ op left right =>
      "(" ++ print left ++ " " ++ op.symbol ++ " " ++ print right ++ ")"
  | call _ callee args => callee.text ++ "(" ++ printList args ++ ")"
  | methodCall _ receiver callee args =>
      print receiver ++ "." ++ callee.text ++ "(" ++ printList args ++ ")"
  | field _ receiver used => print receiver ++ "." ++ used.text
  | newInstance _ className => "new " ++ className.text ++ "()"
  | newArray _ element length => "new " ++ element.ty.describe ++ "[" ++ print length ++ "]"
  | index _ base position => print base ++ "[" ++ print position ++ "]"
  | array _ items => "[" ++ printList items ++ "]"

/-- Expressions with a comma and a space between them. -/
def printList : List Expr → String
  | [] => ""
  | [only] => print only
  | first :: second :: rest => print first ++ ", " ++ printList (second :: rest)

end

end Expr

/-- A line at a level. -/
def indented (depth : Nat) (text : String) : String :=
  String.ofList (List.replicate (4 * depth) ' ') ++ text

/-- A declaration without its semicolon. -/
def VarDecl.print (decl : VarDecl) : String :=
  decl.ty.describe ++ " " ++ decl.name ++
    match decl.init with
    | none => ""
    | some init => " = " ++ init.print

/-- An assignment without its semicolon. -/
def Assignment.print (assignment : Assignment) : String :=
  assignment.target.text ++
    (match assignment.index with
    | none => ""
    | some index => "[" ++ index.print ++ "]") ++
    " = " ++ assignment.value.print

/-- A return with its semicolon. -/
def Return.print (returned : Return) : String :=
  match returned.value with
  | none => "ret;"
  | some value => "ret " ++ value.print ++ ";"

namespace Stmt

/-- The level of a statement below a condition or loop at `depth`. -/
def depthBelow (depth : Nat) (stmt : Stmt) : Nat :=
  if stmt.isBlock then depth else depth + 1

mutual

/-- The lines of a statement at a level. -/
def lines (depth : Nat) : Stmt → List String
  | varDecl _ decl => [indented depth (decl.print ++ ";")]
  | assign assignment => [indented depth (assignment.print ++ ";")]
  | fieldAssign _ receiver used value =>
      [indented depth (receiver.print ++ "." ++ used.text ++ " = " ++ value.print ++ ";")]
  | call _ expr => [indented depth (expr.print ++ ";")]
  | ifThen _ condition body =>
      indented depth ("if (" ++ condition.print ++ ")") :: lines (depthBelow depth body) body
  | ifElse _ condition body alternative =>
      indented depth ("if (" ++ condition.print ++ ")") :: lines (depthBelow depth body) body ++
        indented depth "else" :: lines (depthBelow depth alternative) alternative
  | whileLoop _ condition body =>
      indented depth ("while (" ++ condition.print ++ ")") :: lines (depthBelow depth body) body
  | forLoop _ init condition update body _ =>
      indented depth
          ("for (" ++ init.print ++ "; " ++ condition.print ++ "; " ++ update.print ++ ")") ::
        lines (depthBelow depth body) body
  | ret _ returned => [indented depth returned.print]
  | block _ stmts _ =>
      indented depth "\x7b" :: linesOfList (depth + 1) stmts ++ [indented depth "\x7d"]

/-- The lines of statements one below another. -/
def linesOfList (depth : Nat) : List Stmt → List String
  | [] => []
  | first :: rest => lines depth first ++ linesOfList depth rest

end

end Stmt

/-- Names with a comma and a space between them. -/
def printNames (names : List String) : String :=
  ", ".intercalate names

/-- The head of a function, without a brace or semicolon. -/
def FunctionHead.print (head : FunctionHead) : String :=
  "fn " ++ head.name ++ "(" ++
    printNames (head.params.map fun param => param.ty.describe ++ " " ++ param.name) ++ "): " ++
    head.returnTy.describe

/-- Lines between braces below a head. -/
def braced (depth : Nat) (head : String) (body : List String) : List String :=
  indented depth (head ++ " \x7b") :: body ++ [indented depth "\x7d"]

/-- The lines of a function. -/
def FunctionDecl.lines (depth : Nat) (decl : FunctionDecl) : List String :=
  braced depth decl.head.print
    (Stmt.linesOfList (depth + 1) decl.body ++
      (decl.closing.map fun returned => indented (depth + 1) returned.print).toList)

/-- The clause that a keyword opens, unless it names nothing. -/
def nameClause (keyword : String) (names : List NameUse) : String :=
  if names.isEmpty then ""
  else " " ++ keyword ++ " " ++ printNames (names.map NameUse.text)

/-- The lines of an interface. -/
def InterfaceDecl.lines (decl : InterfaceDecl) : List String :=
  braced 0 ("interface " ++ decl.name ++ nameClause "ext" decl.bases)
    (decl.methods.map fun head => indented 1 (head.print ++ ";"))

/-- The lines of a class, fields before methods. -/
def ClassDecl.lines (decl : ClassDecl) : List String :=
  braced 0
    ("class " ++ decl.name ++ nameClause "ext" decl.parent.toList ++ nameClause "use" decl.uses)
    (decl.fields.map (fun field => indented 1 (field.print ++ ";")) ++
      decl.methods.flatMap (FunctionDecl.lines 1))

/-- The lines of a declaration. -/
def Item.lines : Item → List String
  | inclusion decl => ["include <" ++ decl.name ++ ">"]
  | enumeration decl =>
      braced 0 ("enum " ++ decl.name) (decl.members.map fun member => indented 1 (member.1 ++ ","))
  | interface decl => decl.lines
  | classDecl decl => decl.lines
  | function decl => decl.lines 0
  | globalVariable decl => [decl.print ++ ";"]

/-- Lines as a text in which every line is ended. -/
def textOfLines (lines : List String) : String :=
  lines.foldr (fun line rest => line ++ "\n" ++ rest) ""

/-- A program as source text, with an empty line between declarations. -/
def Program.print (program : Program) : String :=
  "\n".intercalate (program.items.map fun item => textOfLines item.lines)

end KnightFront
