import KnightFront.Diagnostics.Reported
import KnightFront.Symbols.Hierarchy
import KnightFront.Tree.Program
import KnightFront.Tree.StaticTy

namespace KnightFront

/-!
# Resolving names

The second pass binds every used name to the declaration it refers to.  A
name that stands for a value is sought in the enclosing scopes, innermost
first, then among the fields and the methods of the current class and its
ancestors, then among the global variables and the free functions.  A name
that refers to nothing keeps the binding it had, which in a fresh tree is
none, and is reported.

Scopes are opened on the way and recorded in the tree.  A local is visible
behind its own declaration only, so an initial value cannot refer to it.
-/

/-- The place in a program where names are resolved. -/
structure NamePlace where
  model : SymbolModel
  /-- The class whose members are in reach. -/
  className : Option String := none
  /-- The innermost open scope. -/
  scope : Option ScopeId := none
  /-- The scopes of the parameters and of the body of the current function. -/
  functionScopes : Option (ScopeId × ScopeId) := none

/-- The scopes opened so far, and the slot of the next local. -/
structure ScopeState where
  scopes : List Scope
  nextSlot : Nat

namespace ScopeState

/-- Open a scope.  Its index is the number of scopes before it. -/
def openScope (state : ScopeState) (parent : Option ScopeId) (kind : ScopeKind) :
    ScopeId × ScopeState :=
  (state.scopes.length, { state with scopes := state.scopes ++ [.opened parent kind] })

end ScopeState

namespace Resolution

open Reported (report reportIf)

/-- The binding of a name that a scope declares. -/
def scopedBinding (found : Variable × ScopeKind) : Binding :=
  match found.2 with
  | .parameters => .parameter found.1
  | .block => .localVariable found.1

/-- The binding of a method that a class or interface declares. -/
def methodBinding (owner : String) (method : FunctionRecord) : Binding :=
  .function (some owner) method.name method.signature

/-- A variable in the enclosing scopes. -/
def findScoped? (place : NamePlace) (scopes : List Scope) (name : String) : Option Binding :=
  (place.scope.bind fun scope => Scopes.lookup scopes scope name).map scopedBinding

/-- A field of the current class or its ancestors. -/
def findOwnField? (place : NamePlace) (name : String) : Option Binding :=
  (place.className.bind fun className => place.model.findField? className name).map
    fun (owner, entity) => .field owner.name entity

/-- A method of the current class or its ancestors. -/
def findOwnMethod? (place : NamePlace) (name : String) : Option Binding :=
  (place.className.bind fun className => place.model.findMethod? className name).map
    fun (owner, method) => methodBinding owner.name method

/-- A global variable. -/
def findGlobal? (place : NamePlace) (name : String) : Option Binding :=
  (place.model.global? name).map .globalVariable

/-- A free function. -/
def findFunction? (place : NamePlace) (name : String) : Option Binding :=
  (place.model.function? name).map fun record => .function none record.name record.signature

/-- What a name refers to where a value is wanted. -/
def findValue? (place : NamePlace) (scopes : List Scope) (name : String) : Option Binding :=
  (findScoped? place scopes name).or <|
    (findOwnField? place name).or <|
      (findOwnMethod? place name).or <| (findGlobal? place name).or (findFunction? place name)

/-- What a name refers to where a call without receiver stands.  Variables do
not count. -/
def findCallee? (place : NamePlace) (name : String) : Option Binding :=
  (findOwnMethod? place name).or (findFunction? place name)

/-- Bind a name, or report a problem where it stands. -/
def bindName (used : NameUse) (binding : Option Binding) (problem : Problem) : Reported NameUse :=
  match binding with
  | some found => return { used with binding := some found }
  | none => do
      report used.span.start problem
      return used

/-- Bind a name that stands for a value. -/
def bindValue (place : NamePlace) (scopes : List Scope) (used : NameUse) : Reported NameUse :=
  bindName used (findValue? place scopes used.text) (.undefinedVariable used.text)

/-- Bind the name of a call without receiver. -/
def bindCallee (place : NamePlace) (callee : NameUse) : Reported NameUse :=
  bindName callee (findCallee? place callee.text) (.undefinedFunction callee.text)

/-- Bind the name of a method behind a receiver.  A receiver without a type,
or of a type that is not declared, has been reported already. -/
def bindMethod (place : NamePlace) (receiver : Option Ty) (callee : NameUse) : Reported NameUse :=
  match receiver with
  | none | some .error => return callee
  | some (.named owner) =>
      if place.model.classes.contains owner then
        bindName callee
          ((place.model.findMethod? owner callee.text).map fun (declaring, method) =>
            methodBinding declaring.name method)
          (.undefinedMethod callee.text .classType owner)
      else if place.model.interfaces.contains owner then
        bindName callee
          ((place.model.findInterfaceMethod? owner callee.text).map fun (declaring, method) =>
            methodBinding declaring.name method)
          (.undefinedMethod callee.text .interfaceType owner)
      else return callee
  | some other => bindName callee none (.methodOfValue callee.text other)

/-- Bind the name of a field behind a receiver.  Interfaces have no fields. -/
def bindField (place : NamePlace) (receiver : Option Ty) (used : NameUse) : Reported NameUse :=
  match receiver with
  | none | some .error => return used
  | some (.named owner) =>
      if place.model.classes.contains owner then
        bindName used
          ((place.model.findField? owner used.text).map fun (declaring, entity) =>
            .field declaring.name entity)
          (.undefinedField used.text .classType owner)
      else if place.model.interfaces.contains owner then
        bindName used none (.undefinedField used.text .interfaceType owner)
      else return used
  | some other => bindName used none (.fieldOfValue used.text other)

/-- Bind the name of a class behind `new`. -/
def bindInstance (place : NamePlace) (className : NameUse) : Reported NameUse :=
  if place.model.classes.contains className.text then
    return { className with binding := some (.classType className.text) }
  else
    bindName className none
      (if place.model.interfaces.contains className.text then .interfaceInstance className.text
      else .unknownInstance className.text)

/-- Bind the name of a parent class. -/
def bindParent (place : NamePlace) (parent : NameUse) : Reported NameUse :=
  bindName parent ((place.model.class? parent.text).map fun _ => .classType parent.text)
    (.undefinedClass parent.text)

/-- Bind the name of an interface that is used or extended. -/
def bindInterface (place : NamePlace) (base : NameUse) : Reported NameUse :=
  bindName base ((place.model.interface? base.text).map fun _ => .interfaceType base.text)
    (.undefinedInterface base.text)

/-- Report a class or interface type that is not declared. -/
def checkTy (place : NamePlace) (ty : Ty) (position : Position) : Reported Unit :=
  match ty with
  | .named name => reportIf (!place.model.isTypeName name) position (.unknownType name)
  | _ => return ()

mutual

/-- Bind the names of an expression.  Receivers come before arguments, and
the name of a call behind both. -/
def resolveExpr (place : NamePlace) (scopes : List Scope) : Expr → Reported Expr
  | .int info value => return .int info value
  | .string info value => return .string info value
  | .bool info value => return .bool info value
  | .name info used => do
      let used ← bindValue place scopes used
      return .name info used
  | .binary info op left right => do
      let left ← resolveExpr place scopes left
      let right ← resolveExpr place scopes right
      return .binary info op left right
  | .call info callee args => do
      let args ← resolveExprs place scopes args
      let callee ← bindCallee place callee
      return .call info callee args
  | .methodCall info receiver callee args => do
      let receiver ← resolveExpr place scopes receiver
      let args ← resolveExprs place scopes args
      let callee ← bindMethod place receiver.staticTy? callee
      return .methodCall info receiver callee args
  | .field info receiver used => do
      let receiver ← resolveExpr place scopes receiver
      let used ← bindField place receiver.staticTy? used
      return .field info receiver used
  | .newInstance info className => do
      let className ← bindInstance place className
      return .newInstance info className
  | .newArray info element length => do
      let length ← resolveExpr place scopes length
      return .newArray info element length
  | .index info base position => do
      let base ← resolveExpr place scopes base
      let position ← resolveExpr place scopes position
      return .index info base position
  | .array info items => do
      let items ← resolveExprs place scopes items
      return .array info items

/-- Bind the names of expressions, first to last. -/
def resolveExprs (place : NamePlace) (scopes : List Scope) : List Expr → Reported (List Expr)
  | [] => return []
  | first :: rest => do
      let first ← resolveExpr place scopes first
      let rest ← resolveExprs place scopes rest
      return first :: rest

end

/-- Bind the names of an expression that may be missing. -/
def resolveOptional (place : NamePlace) (scopes : List Scope) :
    Option Expr → Reported (Option Expr)
  | none => return none
  | some expr => do
      let expr ← resolveExpr place scopes expr
      return some expr

/-! ## Statements -/

/-- Whether a name in the given scope would repeat a parameter.  It does so at
the top of a function's body only. -/
def repeatsParam (place : NamePlace) (scopes : List Scope) (current : ScopeId) (name : String) :
    Bool :=
  match place.functionScopes with
  | none => false
  | some (params, body) => current == body && Scopes.declares scopes params name

/-- Declare a local in the innermost scope.  A name that the scope declares
already is not taken up, and neither is one at the top of a body that repeats
a parameter; both have been reported by the first pass. -/
def declareLocal (place : NamePlace) (state : ScopeState) (decl : VarDecl) : ScopeState :=
  match place.scope with
  | none => state
  | some current =>
      if repeatsParam place state.scopes current decl.name ||
          Scopes.declares state.scopes current decl.name then state
      else
        let entity : Variable := ⟨decl.name, decl.ty, some state.nextSlot, decl.nameSpan.start⟩
        ⟨Scopes.declare state.scopes current entity, state.nextSlot + 1⟩

/-- Resolve the type and the initial value of a declaration. -/
def resolveDecl (place : NamePlace) (scopes : List Scope) (decl : VarDecl) : Reported VarDecl := do
  checkTy place decl.ty decl.tySpan.start
  let init ← resolveOptional place scopes decl.init
  return { decl with init }

/-- Resolve a declaration and then declare its local. -/
def resolveLocal (place : NamePlace) (state : ScopeState) (decl : VarDecl) :
    Reported (VarDecl × ScopeState) := do
  let decl ← resolveDecl place state.scopes decl
  return (decl, declareLocal place state decl)

/-- Bind the names of an assignment, the target first. -/
def resolveAssignment (place : NamePlace) (scopes : List Scope) (assignment : Assignment) :
    Reported Assignment := do
  let target ← bindValue place scopes assignment.target
  let index ← resolveOptional place scopes assignment.index
  let value ← resolveExpr place scopes assignment.value
  return { assignment with target, index, value }

/-- Bind the names of a return. -/
def resolveReturn (place : NamePlace) (scopes : List Scope) (returned : Return) :
    Reported Return := do
  let value ← resolveOptional place scopes returned.value
  return { returned with value }

mutual

/-- Resolve a statement.  A block and a loop with a declaration open a scope
below the current one. -/
def resolveStmt (place : NamePlace) (state : ScopeState) : Stmt → Reported (Stmt × ScopeState)
  | .varDecl info decl => do
      let (decl, state) ← resolveLocal place state decl
      return (.varDecl info decl, state)
  | .assign assignment => do
      let assignment ← resolveAssignment place state.scopes assignment
      return (.assign assignment, state)
  | .fieldAssign info receiver used value => do
      let receiver ← resolveExpr place state.scopes receiver
      let used ← bindField place receiver.staticTy? used
      let value ← resolveExpr place state.scopes value
      return (.fieldAssign info receiver used value, state)
  | .call info expr => do
      let expr ← resolveExpr place state.scopes expr
      return (.call info expr, state)
  | .ifThen info condition body => do
      let condition ← resolveExpr place state.scopes condition
      let (body, state) ← resolveStmt place state body
      return (.ifThen info condition body, state)
  | .ifElse info condition body alternative => do
      let condition ← resolveExpr place state.scopes condition
      let (body, state) ← resolveStmt place state body
      let (alternative, state) ← resolveStmt place state alternative
      return (.ifElse info condition body alternative, state)
  | .whileLoop info condition body => do
      let condition ← resolveExpr place state.scopes condition
      let (body, state) ← resolveStmt place state body
      return (.whileLoop info condition body, state)
  | .forLoop info init condition update body _ => do
      let (scope, state) := state.openScope place.scope .block
      let place := { place with scope := some scope }
      let (init, state) ← resolveLocal place state init
      let condition ← resolveExpr place state.scopes condition
      let update ← resolveAssignment place state.scopes update
      let (body, state) ← resolveStmt place state body
      return (.forLoop info init condition update body (some scope), state)
  | .ret info returned => do
      let returned ← resolveReturn place state.scopes returned
      return (.ret info returned, state)
  | .block info stmts _ => do
      let (scope, state) := state.openScope place.scope .block
      let (stmts, state) ← resolveStmts { place with scope := some scope } state stmts
      return (.block info stmts (some scope), state)

/-- Resolve statements one after another in one scope. -/
def resolveStmts (place : NamePlace) (state : ScopeState) :
    List Stmt → Reported (List Stmt × ScopeState)
  | [] => return ([], state)
  | first :: rest => do
      let (first, state) ← resolveStmt place state first
      let (rest, state) ← resolveStmts place state rest
      return (first :: rest, state)

end

/-- Report the undeclared types in the head of a function. -/
def checkHead (place : NamePlace) (head : FunctionHead) : Reported Unit := do
  head.params.forM fun param => checkTy place param.ty param.tySpan.start
  checkTy place head.returnTy head.returnTySpan.start

/-- Declare parameters in their scope, each at its own slot. -/
def declareParams (scopes : List Scope) (scope : ScopeId) (params : List Param) : List Scope :=
  (params.mapIdx fun slot param =>
    (⟨param.name, param.ty, some slot, param.span.start⟩ : Variable)).foldl
      (fun scopes entity => Scopes.declare scopes scope entity) scopes

/-- The inside of a function before its body: the two scopes opened for it, and
the state with its parameters declared. -/
structure FunctionEntry where
  paramScope : ScopeId
  bodyScope : ScopeId
  state : ScopeState

/-- Enter a function.  The parameters have a scope without a parent, and the
body a scope below it. -/
def enterFunction (scopes : List Scope) (params : List Param) : FunctionEntry :=
  let opened : ScopeState := ⟨scopes, params.length⟩
  let (paramScope, state) := opened.openScope none .parameters
  let state := { state with scopes := declareParams state.scopes paramScope params }
  let (bodyScope, state) := state.openScope (some paramScope) .block
  ⟨paramScope, bodyScope, state⟩

/-- The place of a function's body. -/
def bodyPlace (place : NamePlace) (entry : FunctionEntry) : NamePlace :=
  { place with
    scope := some entry.bodyScope
    functionScopes := some (entry.paramScope, entry.bodyScope) }

/-- Resolve a function: its head, its body and the return that closes it. -/
def resolveFunction (place : NamePlace) (scopes : List Scope) (decl : FunctionDecl) :
    Reported (FunctionDecl × List Scope) := do
  checkHead place decl.head
  let entry := enterFunction scopes decl.head.params
  let inner := bodyPlace place entry
  let (body, state) ← resolveStmts inner entry.state decl.body
  let closing ← decl.closing.mapM (resolveReturn inner state.scopes)
  return (
    { decl with
      body
      closing
      paramScope := some entry.paramScope
      bodyScope := some entry.bodyScope },
    state.scopes)

/-- Resolve the methods of a class, first to last. -/
def resolveMethods (place : NamePlace) (scopes : List Scope) :
    List FunctionDecl → Reported (List FunctionDecl × List Scope)
  | [] => return ([], scopes)
  | first :: rest => do
      let (first, scopes) ← resolveFunction place scopes first
      let (rest, scopes) ← resolveMethods place scopes rest
      return (first :: rest, scopes)

/-- Resolve an interface. -/
def resolveInterface (place : NamePlace) (decl : InterfaceDecl) : Reported InterfaceDecl := do
  let bases ← decl.bases.mapM (bindInterface place)
  decl.methods.forM (checkHead place)
  return { decl with bases }

/-- Resolve a class: its parent, its interfaces, its fields and its methods.
The members of the class that the name stands for are in reach. -/
def resolveClass (model : SymbolModel) (scopes : List Scope) (decl : ClassDecl) :
    Reported (ClassDecl × List Scope) := do
  let place : NamePlace := { model, className := some decl.name }
  let parent ← decl.parent.mapM (bindParent place)
  let uses ← decl.uses.mapM (bindInterface place)
  let fields ← decl.fields.mapM (resolveDecl place scopes)
  let (methods, scopes) ← resolveMethods place scopes decl.methods
  return ({ decl with parent, uses, fields, methods }, scopes)

/-- Resolve a declaration at the top level. -/
def resolveItem (model : SymbolModel) (scopes : List Scope) : Item → Reported (Item × List Scope)
  | .inclusion decl => return (.inclusion decl, scopes)
  | .enumeration decl => return (.enumeration decl, scopes)
  | .interface decl => do
      let decl ← resolveInterface { model } decl
      return (.interface decl, scopes)
  | .classDecl decl => do
      let (decl, scopes) ← resolveClass model scopes decl
      return (.classDecl decl, scopes)
  | .function decl => do
      let (decl, scopes) ← resolveFunction { model } scopes decl
      return (.function decl, scopes)
  | .globalVariable decl => do
      let decl ← resolveDecl { model } scopes decl
      return (.globalVariable decl, scopes)

/-- Resolve declarations, first to last. -/
def resolveItems (model : SymbolModel) (scopes : List Scope) :
    List Item → Reported (List Item × List Scope)
  | [] => return ([], scopes)
  | first :: rest => do
      let (first, scopes) ← resolveItem model scopes first
      let (rest, scopes) ← resolveItems model scopes rest
      return (first :: rest, scopes)

end Resolution

/-- Resolve the names of a file.  Scopes that it has already stay, and new
ones are put behind them. -/
def Program.resolve (model : SymbolModel) (program : Program) : Reported Program := do
  let (items, scopes) ← Resolution.resolveItems model program.scopes program.items
  return { program with items, scopes }

end KnightFront
