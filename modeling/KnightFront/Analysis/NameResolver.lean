import KnightFront.Analysis.Compilation

namespace KnightFront

/-!
# An object that resolves names

A pass can be an object that keeps its fields from one program to the next.  The one
that resolves names keeps the scopes of the program, the path of open scopes, the
class and the function around the place that it has come to, the slot of the next
local and the log.  Each field is put back, or set again before it is read.
-/

/-- The fields of the object. -/
structure NameResolver where
  model : SymbolModel
  log : DiagnosticLog := .empty
  scopes : List Scope := []
  /-- The open scopes, innermost last. -/
  path : List ScopeId := []
  className : Option String := none
  functionScopes : Option (ScopeId × ScopeId) := none
  nextSlot : Nat := 0
  state : PassState := .notStarted

namespace NameResolver

/-- The place that the fields describe. -/
def place (resolver : NameResolver) : NamePlace :=
  ⟨resolver.model, resolver.className, resolver.path.getLast?, resolver.functionScopes⟩

/-- The scopes and the slot in the fields. -/
def scopeState (resolver : NameResolver) : ScopeState := ⟨resolver.scopes, resolver.nextSlot⟩

/-- The object with other scopes and another slot, and with more in its log. -/
def after (resolver : NameResolver) (state : ScopeState) (findings : List Finding) :
    NameResolver :=
  { resolver with
    log := resolver.log.record findings
    scopes := state.scopes
    nextSlot := state.nextSlot }

/-- Read the fields and log what is found. -/
def reading {α : Type} (pass : NamePlace → List Scope → Reported α) : StateM NameResolver α :=
  fun resolver =>
    let done := pass resolver.place resolver.scopes
    (done.value, resolver.after resolver.scopeState done.findings)

/-- Open a scope, go on inside it, and close it. -/
def inScope {α : Type} (kind : ScopeKind) (inside : ScopeId → StateM NameResolver α) :
    StateM NameResolver α := do
  let resolver ← get
  let scope := resolver.scopes.length
  set { resolver with
    scopes := resolver.scopes ++ [Scope.opened resolver.path.getLast? kind]
    path := resolver.path ++ [scope] }
  let result ← inside scope
  modify fun resolver => { resolver with path := resolver.path.dropLast }
  return result

/-- Declare a local in the innermost scope. -/
def declareLocal (decl : VarDecl) : StateM NameResolver Unit :=
  modify fun resolver =>
    resolver.after (Resolution.declareLocal resolver.place resolver.scopeState decl) []

/-- Resolve a declaration and then declare its local. -/
def resolveLocal (decl : VarDecl) : StateM NameResolver VarDecl := do
  let decl ← reading fun place scopes => Resolution.resolveDecl place scopes decl
  declareLocal decl
  return decl

mutual

/-- Resolve a statement. -/
def resolveStmt : Stmt → StateM NameResolver Stmt
  | .varDecl info decl => do
      let decl ← resolveLocal decl
      return .varDecl info decl
  | .assign assignment => do
      let assignment ← reading fun place scopes =>
        Resolution.resolveAssignment place scopes assignment
      return .assign assignment
  | .fieldAssign info receiver used value => do
      let receiver ← reading fun place scopes => Resolution.resolveExpr place scopes receiver
      let used ← reading fun place _ => Resolution.bindField place receiver.staticTy? used
      let value ← reading fun place scopes => Resolution.resolveExpr place scopes value
      return .fieldAssign info receiver used value
  | .call info expr => do
      let expr ← reading fun place scopes => Resolution.resolveExpr place scopes expr
      return .call info expr
  | .ifThen info condition body => do
      let condition ← reading fun place scopes => Resolution.resolveExpr place scopes condition
      let body ← resolveStmt body
      return .ifThen info condition body
  | .ifElse info condition body alternative => do
      let condition ← reading fun place scopes => Resolution.resolveExpr place scopes condition
      let body ← resolveStmt body
      let alternative ← resolveStmt alternative
      return .ifElse info condition body alternative
  | .whileLoop info condition body => do
      let condition ← reading fun place scopes => Resolution.resolveExpr place scopes condition
      let body ← resolveStmt body
      return .whileLoop info condition body
  | .forLoop info init condition update body _ => inScope .block fun scope => do
      let init ← resolveLocal init
      let condition ← reading fun place scopes => Resolution.resolveExpr place scopes condition
      let update ← reading fun place scopes => Resolution.resolveAssignment place scopes update
      let body ← resolveStmt body
      return .forLoop info init condition update body (some scope)
  | .ret info returned => do
      let returned ← reading fun place scopes => Resolution.resolveReturn place scopes returned
      return .ret info returned
  | .block info stmts _ => inScope .block fun scope => do
      let stmts ← resolveStmts stmts
      return .block info stmts (some scope)

/-- Resolve statements one after another. -/
def resolveStmts : List Stmt → StateM NameResolver (List Stmt)
  | [] => return []
  | first :: rest => do
      let first ← resolveStmt first
      let rest ← resolveStmts rest
      return first :: rest

end

/-- Resolve a function.  It forgets its scopes when it is left. -/
def resolveFunction (decl : FunctionDecl) : StateM NameResolver FunctionDecl := do
  reading fun place _ => Resolution.checkHead place decl.head
  let decl ← inScope .parameters fun paramScope => do
    modify fun resolver => { resolver with
      scopes := Resolution.declareParams resolver.scopes paramScope decl.head.params
      nextSlot := decl.head.params.length }
    inScope .block fun bodyScope => do
      modify fun resolver => { resolver with functionScopes := some (paramScope, bodyScope) }
      let body ← resolveStmts decl.body
      let closing ← reading fun place scopes =>
        decl.closing.mapM (Resolution.resolveReturn place scopes)
      return { decl with body, closing, paramScope := some paramScope, bodyScope := some bodyScope }
  modify fun resolver => { resolver with functionScopes := none }
  return decl

/-- Go on inside a class, and leave it. -/
def inClass {α : Type} (name : String) (inside : StateM NameResolver α) :
    StateM NameResolver α := do
  modify fun resolver => { resolver with className := some name }
  let result ← inside
  modify fun resolver => { resolver with className := none }
  return result

/-- Resolve a class. -/
def resolveClass (decl : ClassDecl) : StateM NameResolver ClassDecl := inClass decl.name do
  let parent ← reading fun place _ => decl.parent.mapM (Resolution.bindParent place)
  let uses ← reading fun place _ => decl.uses.mapM (Resolution.bindInterface place)
  let fields ← reading fun place scopes => decl.fields.mapM (Resolution.resolveDecl place scopes)
  let methods ← decl.methods.mapM resolveFunction
  return { decl with parent, uses, fields, methods }

/-- Resolve a declaration at the top level. -/
def resolveItem : Item → StateM NameResolver Item
  | .inclusion decl => return .inclusion decl
  | .enumeration decl => return .enumeration decl
  | .interface decl => do
      let decl ← reading fun place _ => Resolution.resolveInterface place decl
      return .interface decl
  | .classDecl decl => do
      let decl ← resolveClass decl
      return .classDecl decl
  | .function decl => do
      let decl ← resolveFunction decl
      return .function decl
  | .globalVariable decl => do
      let decl ← reading fun place scopes => Resolution.resolveDecl place scopes decl
      return .globalVariable decl

/-- Hand out a program with its scopes, and the log. -/
def handOut (program : Program) (items : List Item) : StateM NameResolver PassOutcome := do
  let resolver ← get
  let state := PassState.afterLog resolver.log
  set { resolver with scopes := [], state, log := DiagnosticLog.empty }
  return ({ program with items, scopes := resolver.scopes }, resolver.log, state)

/-- Resolve a program.  Its scopes are taken over until it is handed out. -/
def resolveProgram (program : Program) : StateM NameResolver PassOutcome := do
  modify fun resolver => { resolver with state := .traversing, scopes := program.scopes }
  let items ← program.items.mapM resolveItem
  handOut program items

end NameResolver

end KnightFront
