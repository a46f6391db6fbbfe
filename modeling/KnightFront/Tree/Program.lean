import KnightFront.Tree.Stmt

namespace KnightFront

/-!
# Programs

The declarations of one file.  The span of a declaration is the span of its
name, except for an include, which has no name of its own.
-/

/-- A parameter of a function. -/
structure Param where
  ty : Ty
  tySpan : Span
  name : String
  span : Span
deriving DecidableEq, Repr, Inhabited

/-- The head of a function: all that an interface says of a method. -/
structure FunctionHead where
  name : String
  params : List Param
  returnTy : Ty
  returnTySpan : Span
  span : Span
deriving DecidableEq, Repr, Inhabited

/-- A function or method.  A return that closes the body is kept apart from
it; a return anywhere else is an ordinary statement.  The parameters have a
scope of their own, around that of the body. -/
structure FunctionDecl where
  id : NodeId
  head : FunctionHead
  body : List Stmt
  closing : Option Return
  paramScope : Option ScopeId := none
  bodyScope : Option ScopeId := none
deriving Inhabited

/-- The inclusion of a library.  It declares nothing by itself. -/
structure IncludeDecl where
  name : String
  span : Span
deriving DecidableEq, Repr, Inhabited

/-- An enumeration, whose members are global numbers. -/
structure EnumDecl where
  name : String
  members : List (String × Span)
  span : Span
deriving DecidableEq, Repr, Inhabited

/-- An interface. -/
structure InterfaceDecl where
  name : String
  bases : List NameUse
  methods : List FunctionHead
  span : Span
deriving DecidableEq, Repr, Inhabited

/-- A class.  Fields and methods may be mixed in the source; each keep their
own order. -/
structure ClassDecl where
  name : String
  parent : Option NameUse
  uses : List NameUse
  fields : List VarDecl
  methods : List FunctionDecl
  span : Span
deriving Inhabited

/-- A declaration at the top level. -/
inductive Item where
  | inclusion (decl : IncludeDecl)
  | enumeration (decl : EnumDecl)
  | interface (decl : InterfaceDecl)
  | classDecl (decl : ClassDecl)
  | function (decl : FunctionDecl)
  | globalVariable (decl : VarDecl)
deriving Inhabited

/-- One file, with the lexical scopes that name resolution opened in it. -/
structure Program where
  file : String
  items : List Item
  scopes : List Scope := []
deriving Inhabited

namespace Program

/-- The classes of a file. -/
def classes (program : Program) : List ClassDecl :=
  program.items.filterMap fun
    | .classDecl decl => some decl
    | _ => none

/-- The free functions of a file. -/
def functions (program : Program) : List FunctionDecl :=
  program.items.filterMap fun
    | .function decl => some decl
    | _ => none

end Program

end KnightFront
