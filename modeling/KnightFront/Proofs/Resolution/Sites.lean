import KnightFront.Analysis.Resolution
import KnightFront.Proofs.Tree.Traversal
import Mathlib.Data.List.Flatten

namespace KnightFront

/-!
# Lexical scoping, read off the tree

Where a name stands decides what it refers to.  A use of a name as a variable
stands inside constructs that can declare locals: blocks, loops, the body and
the parameter list of a function.  For each use these constructs are listed
here, innermost first, each with what it has declared in front of the use.
There are no scope indices here and nothing is declared on the way; the lists
are those of the tree.

The nearest construct that declares the name decides, and in it the first
declaration.  Only where no construct declares the name do the members of the
class, the global variables and the free functions come in.
-/

/-- A declaration of a local or parameter, as it is written. -/
structure LocalDecl where
  name : String
  ty : Ty
  position : Position
deriving DecidableEq, Repr, Inhabited

/-- What a variable keeps of its declaration. -/
def Variable.declaration (entity : Variable) : LocalDecl :=
  ⟨entity.name, entity.ty, entity.position⟩

/-- The declaration of a local. -/
def VarDecl.declaration (decl : VarDecl) : LocalDecl :=
  ⟨decl.name, decl.ty, decl.nameSpan.start⟩

/-- The declaration of a parameter. -/
def Param.declaration (param : Param) : LocalDecl := ⟨param.name, param.ty, param.span.start⟩

/-- A construct that can declare locals, with its declarations that are
complete, first to last. -/
structure Frame where
  kind : ScopeKind
  declared : List LocalDecl

/-- The first declaration of a name in a construct. -/
def Frame.find? (frame : Frame) (name : String) : Option LocalDecl :=
  frame.declared.find? fun decl => decl.name == name

/-- The first declaration of a name in the innermost construct that has one,
and the kind of that construct. -/
def Frames.find? (frames : List Frame) (name : String) : Option (LocalDecl × ScopeKind) :=
  frames.findSome? fun frame => (frame.find? name).map fun decl => (decl, frame.kind)

/-- What a name refers to that no enclosing construct declares: the nearest
field of the current class and its ancestors, the nearest method, the global
variable or the free function. -/
def SymbolModel.outerBinding? (model : SymbolModel) (className : Option String) (name : String) :
    Option Binding :=
  match className.bind fun owner => model.findField? owner name with
  | some (owner, entity) => some (.field owner.name entity)
  | none =>
      match className.bind fun owner => model.findMethod? owner name with
      | some (owner, method) => some (.function (some owner.name) method.name method.signature)
      | none =>
          match model.global? name with
          | some entity => some (.globalVariable entity)
          | none => (model.function? name).map fun record =>
              .function none record.name record.signature

/-- A use of a name as a variable, the class around it and the constructs
around it, innermost first. -/
structure UseSite where
  used : NameUse
  className : Option String
  frames : List Frame

namespace UseSite

/-- A binding is the one that the place of a use asks for.  The slot of a
variable is left open. -/
def RefersTo (model : SymbolModel) (site : UseSite) (binding : Option Binding) : Prop :=
  match Frames.find? site.frames site.used.text with
  | some (decl, .parameters) =>
      ∃ slot, binding = some (.parameter ⟨decl.name, decl.ty, slot, decl.position⟩)
  | some (decl, .block) =>
      ∃ slot, binding = some (.localVariable ⟨decl.name, decl.ty, slot, decl.position⟩)
  | none => binding = model.outerBinding? site.className site.used.text

/-- The same site, with its name bound as the place asks. -/
def Resolves (model : SymbolModel) (before after : UseSite) : Prop :=
  ∃ binding, before.RefersTo model binding ∧
    after = { before with used := { before.used with binding } }

/-- What is reported for a use that stays unbound. -/
def undefined? (site : UseSite) : Option Finding :=
  match site.used.binding with
  | some _ => none
  | none => some ⟨site.used.span.start, .undefinedVariable site.used.text⟩

end UseSite

/-- Uses that stand side by side. -/
def sitesAt (className : Option String) (frames : List Frame) (uses : List NameUse) :
    List UseSite :=
  uses.map fun used => ⟨used, className, frames⟩

/-- The variable that a node itself uses. -/
def Expr.variableUse? : Expr → Option NameUse
  | .name _ used => some used
  | _ => none

/-- The variables used in an expression, in textual order. -/
def Expr.variableUses (expr : Expr) : List NameUse := expr.nodes.filterMap variableUse?

/-- The variables used in the initial value of a declaration. -/
def VarDecl.variableUses (decl : VarDecl) : List NameUse :=
  decl.exprs.flatMap Expr.variableUses

/-- The variables used in an assignment, the target first. -/
def Assignment.variableUses (assignment : Assignment) : List NameUse :=
  assignment.target :: assignment.exprs.flatMap Expr.variableUses

/-- The variables used in a return. -/
def Return.variableUses (returned : Return) : List NameUse :=
  returned.exprs.flatMap Expr.variableUses

namespace Stmt

/-- What a statement declares in the construct around it.  Some names may not
be declared there. -/
def declares (hidden : List String) : Stmt → List LocalDecl
  | varDecl _ decl => if decl.name ∈ hidden then [] else [decl.declaration]
  | _ => []

variable (className : Option String)

mutual

/-- The uses in a statement inside the given constructs.  The declaration in
the head of a loop is complete behind its initial value. -/
def sites (frames : List Frame) : Stmt → List UseSite
  | varDecl _ decl => sitesAt className frames decl.variableUses
  | assign assignment => sitesAt className frames assignment.variableUses
  | fieldAssign _ receiver _ value =>
      sitesAt className frames (receiver.variableUses ++ value.variableUses)
  | call _ expr => sitesAt className frames expr.variableUses
  | ifThen _ condition body =>
      sitesAt className frames condition.variableUses ++ sites frames body
  | ifElse _ condition body alternative =>
      sitesAt className frames condition.variableUses ++
        (sites frames body ++ sites frames alternative)
  | whileLoop _ condition body =>
      sitesAt className frames condition.variableUses ++ sites frames body
  | forLoop _ init condition update body _ =>
      let inside := ⟨.block, [init.declaration]⟩ :: frames
      sitesAt className (⟨.block, []⟩ :: frames) init.variableUses ++
        (sitesAt className inside (condition.variableUses ++ update.variableUses) ++
          sites inside body)
  | ret _ returned => sitesAt className frames returned.variableUses
  | block _ stmts _ => sitesOfList frames [] [] stmts

/-- The uses in the statements of one construct, behind what it has declared
already.  A statement declares for those behind it. -/
def sitesOfList (outer : List Frame) (hidden : List String) (declared : List LocalDecl) :
    List Stmt → List UseSite
  | [] => []
  | first :: rest =>
      sites (⟨.block, declared⟩ :: outer) first ++
        sitesOfList outer hidden (declared ++ declares hidden first) rest

end

end Stmt

namespace FunctionDecl

/-- The construct that declares the parameters of a function. -/
def paramFrame (decl : FunctionDecl) : Frame :=
  ⟨.parameters, decl.head.params.map Param.declaration⟩

/-- The names that the body of a function may not declare at its top: those of
parameters. -/
def hidden (decl : FunctionDecl) : List String := decl.head.params.map Param.name

/-- The body of a function behind all its statements. -/
def bodyFrame (decl : FunctionDecl) : Frame :=
  ⟨.block, decl.body.flatMap (Stmt.declares decl.hidden)⟩

/-- The uses in a function.  The return that closes the body stands behind all
its statements. -/
def sites (className : Option String) (decl : FunctionDecl) : List UseSite :=
  Stmt.sitesOfList className [decl.paramFrame] decl.hidden [] decl.body ++
    sitesAt className [decl.bodyFrame, decl.paramFrame]
      (decl.closing.toList.flatMap Return.variableUses)

end FunctionDecl

/-- The uses in a declaration.  Initial values of fields and global variables
stand in no construct. -/
def Item.sites : Item → List UseSite
  | inclusion _ => []
  | enumeration _ => []
  | interface _ => []
  | classDecl decl =>
      sitesAt (some decl.name) [] (decl.fields.flatMap VarDecl.variableUses) ++
        decl.methods.flatMap (FunctionDecl.sites (some decl.name))
  | function decl => decl.sites none
  | globalVariable decl => sitesAt none [] decl.variableUses

/-- Every use of a variable in a file, in the order of its declarations.  In a
class the fields stand before the methods. -/
def Program.sites (program : Program) : List UseSite := program.items.flatMap Item.sites

@[simp]
theorem map_used_sitesAt (className : Option String) (frames : List Frame)
    (uses : List NameUse) : (sitesAt className frames uses).map UseSite.used = uses := by
  rw [sitesAt, List.map_map]
  exact List.map_id uses

namespace Stmt

mutual

/-- Every variable in an expression of a statement has a site. -/
theorem sublist_sites (className : Option String) (frames : List Frame) :
    ∀ (stmt : Stmt), (stmt.exprs.flatMap Expr.variableUses).Sublist
      ((stmt.sites className frames).map UseSite.used)
  | varDecl _ decl => by simp [exprs, sites, VarDecl.variableUses]
  | assign assignment => by simp [exprs, sites, Assignment.variableUses]
  | fieldAssign _ receiver _ value => by simp [exprs, sites]
  | call _ expr => by simp [exprs, sites]
  | ifThen _ condition body => by
      have inside := sublist_sites className frames body
      simpa [exprs, sites] using inside
  | ifElse _ condition body alternative => by
      have first := sublist_sites className frames body
      have second := sublist_sites className frames alternative
      simpa [exprs, sites] using first.append second
  | whileLoop _ condition body => by
      have inside := sublist_sites className frames body
      simpa [exprs, sites] using inside
  | forLoop _ init condition update body _ => by
      have inside := sublist_sites className (⟨.block, [init.declaration]⟩ :: frames) body
      have behind := inside.append_left (update.exprs.flatMap Expr.variableUses)
      simpa [exprs, sites, VarDecl.variableUses, Assignment.variableUses] using
        behind.cons update.target
  | ret _ returned => by simp [exprs, sites, Return.variableUses]
  | block _ stmts _ => by
      have inside := sublist_sitesOfList className frames [] [] stmts
      simpa [exprs, sites] using inside

theorem sublist_sitesOfList (className : Option String) (outer : List Frame)
    (hidden : List String) (declared : List LocalDecl) :
    ∀ (stmts : List Stmt), ((exprsOfList stmts).flatMap Expr.variableUses).Sublist
      ((sitesOfList className outer hidden declared stmts).map UseSite.used)
  | [] => .slnil
  | first :: rest => by
      have front := sublist_sites className (⟨.block, declared⟩ :: outer) first
      have behind := sublist_sitesOfList className outer hidden
        (declared ++ declares hidden first) rest
      simpa [exprsOfList, sitesOfList] using front.append behind

end

end Stmt

/-- Every variable in a function has a site. -/
theorem FunctionDecl.sublist_sites (className : Option String) (decl : FunctionDecl) :
    (decl.exprs.flatMap Expr.variableUses).Sublist
      ((decl.sites className).map UseSite.used) := by
  have body := Stmt.sublist_sitesOfList className [decl.paramFrame] decl.hidden [] decl.body
  have closing : (decl.closing.toList.flatMap Return.exprs).flatMap Expr.variableUses =
      decl.closing.toList.flatMap fun returned =>
        returned.exprs.flatMap Expr.variableUses := List.flatMap_assoc
  rw [exprs, List.flatMap_append, closing]
  rw [sites, List.map_append, map_used_sitesAt]
  exact body.append (List.Sublist.refl _)

/-- Every variable in a declaration has a site. -/
theorem Item.sublist_sites (item : Item) :
    (item.exprs.flatMap Expr.variableUses).Sublist (item.sites.map UseSite.used) := by
  cases item with
  | inclusion decl => exact .slnil
  | enumeration decl => exact .slnil
  | interface decl => exact .slnil
  | classDecl decl =>
      have methods : ((decl.methods.flatMap FunctionDecl.exprs).flatMap Expr.variableUses).Sublist
          ((decl.methods.flatMap (FunctionDecl.sites (some decl.name))).map UseSite.used) := by
        rw [List.flatMap_assoc, List.map_flatMap]
        exact List.Sublist.flatMap_right decl.methods fun method _ =>
          method.sublist_sites (some decl.name)
      rw [exprs, ClassDecl.exprs, List.flatMap_append, List.flatMap_assoc]
      rw [sites, List.map_append, map_used_sitesAt]
      exact (List.Sublist.refl _).append methods
  | function decl => exact decl.sublist_sites none
  | globalVariable decl => simp [exprs, sites, VarDecl.variableUses]

/-- Every variable in an expression of a file has a site.  The other sites are
the targets of assignments. -/
theorem Program.sublist_sites (program : Program) :
    (program.nodes.filterMap Expr.variableUse?).Sublist (program.sites.map UseSite.used) := by
  have inItems : program.nodes.filterMap Expr.variableUse? =
      program.items.flatMap fun item => item.exprs.flatMap Expr.variableUses := by
    rw [nodes, exprs, List.filterMap_flatMap, List.flatMap_assoc]
    rfl
  rw [inItems, sites, List.map_flatMap]
  exact List.Sublist.flatMap_right program.items fun item _ => item.sublist_sites

end KnightFront
