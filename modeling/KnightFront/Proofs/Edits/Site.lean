import KnightFront.Proofs.Diagnostics.Counts
import KnightFront.Proofs.Edits.Edited
import KnightFront.Proofs.Resolution.Clean
import KnightFront.Proofs.Symbols.Names

namespace KnightFront

/-!
# Where names are resolved in accepted programs

While a program without errors is resolved, everything in reach is of a
declared type, and has a name that the program declares.  This holds at every
place of the program.
-/

/-- The variables in the scopes have names among some names. -/
def Scopes.Names (allowed : String → Prop) (scopes : List Scope) : Prop :=
  Scopes.Each (fun entity => allowed entity.name) scopes

/-- An unknown name is found in no scope. -/
theorem Scopes.Names.lookup {allowed : String → Prop} {scopes : List Scope}
    (names : Scopes.Names allowed scopes) {name : String} (unknown : ¬ allowed name)
    (identity : ScopeId) : Scopes.lookup scopes identity name = none := by
  cases found : Scopes.lookup scopes identity name with
  | none => rfl
  | some pair =>
      have inside := names.lookupWithin _ _ found
      exact absurd (inside.2 ▸ inside.1) unknown

namespace Resolution

variable {allowed : String → Prop} {place : NamePlace}

theorem names_declareLocal {state : ScopeState} {decl : VarDecl}
    (names : Scopes.Names allowed state.scopes) (declared : allowed decl.name) :
    Scopes.Names allowed (declareLocal place state decl).scopes := by
  unfold declareLocal
  split
  next => exact names
  next =>
    split
    next => exact names
    next => exact Scopes.Each.declare names _ declared

mutual

/-- The scopes behind a statement hold the names before it and those that it
declares. -/
theorem names_resolveStmt : ∀ (place : NamePlace) (state : ScopeState) (stmt : Stmt),
    (∀ name ∈ stmt.declaredNames, allowed name) → Scopes.Names allowed state.scopes →
      Scopes.Names allowed (resolveStmt place state stmt).value.2.scopes
  | place, state, .varDecl info decl, declared, names =>
      names_declareLocal names (declared _ (List.mem_singleton_self _))
  | _, _, .assign _, _, names => names
  | _, _, .fieldAssign .., _, names => names
  | _, _, .call .., _, names => names
  | place, state, .ifThen info condition body, declared, names =>
      names_resolveStmt place state body declared names
  | place, state, .ifElse info condition body alternative, declared, names => by
      rw [Stmt.declaredNames, List.forall_mem_append] at declared
      exact names_resolveStmt place _ alternative declared.2
        (names_resolveStmt place state body declared.1 names)
  | place, state, .whileLoop info condition body, declared, names =>
      names_resolveStmt place state body declared names
  | place, state, .forLoop info init condition update body scope, declared, names => by
      rw [Stmt.declaredNames, List.forall_mem_cons] at declared
      exact names_resolveStmt (innerPlace place state) _ body declared.2
        (names_declareLocal (Scopes.Each.openScope names place.scope .block) declared.1)
  | _, _, .ret .., _, names => names
  | place, state, .block info stmts scope, declared, names =>
      names_resolveStmts (innerPlace place state) _ stmts declared
        (Scopes.Each.openScope names place.scope .block)

theorem names_resolveStmts : ∀ (place : NamePlace) (state : ScopeState) (stmts : List Stmt),
    (∀ name ∈ Stmt.declaredNamesOfList stmts, allowed name) → Scopes.Names allowed state.scopes →
      Scopes.Names allowed (resolveStmts place state stmts).value.2.scopes
  | _, _, [], _, names => names
  | place, state, first :: rest, declared, names => by
      rw [Stmt.declaredNamesOfList, List.forall_mem_append] at declared
      exact names_resolveStmts place _ rest declared.2
        (names_resolveStmt place state first declared.1 names)

end

end Resolution

/-- What is in reach is of a declared type, and under a name among some
names. -/
structure Site (allowed : String → Prop) (place : NamePlace) (scopes : List Scope) : Prop where
  closed : place.model.Closed
  names : place.model.Names allowed
  declared : Scopes.Declared place.model scopes
  scopeNames : Scopes.Names allowed scopes

namespace Site

open Resolution

variable {allowed : String → Prop} {place : NamePlace} {state : ScopeState}

/-- Opening a scope for a block or loop keeps what is in reach. -/
theorem inner (site : Site allowed place state.scopes) :
    Site allowed (innerPlace place state) (innerState place state).scopes where
  closed := site.closed
  names := site.names
  declared := site.declared.openScope place.scope .block
  scopeNames := Scopes.Each.openScope site.scopeNames place.scope .block

/-- So does a declaration in which no error is found. -/
theorem resolveLocal (site : Site allowed place state.scopes) {decl : VarDecl}
    (written : decl.Written) (declared : allowed decl.name)
    (clean : (resolveLocal place state decl).tally Finding.isError = 0) :
    Site allowed place (resolveLocal place state decl).value.2.scopes where
  closed := site.closed
  names := site.names
  declared := (linked_resolveLocal place site.closed site.declared written
    ((Reported.errors_eq_zero_iff _).mp clean)).2
  scopeNames := names_declareLocal site.scopeNames declared

/-- So does a statement. -/
theorem resolveStmt (site : Site allowed place state.scopes) {stmt : Stmt}
    (written : stmt.Written) (declared : ∀ name ∈ stmt.declaredNames, allowed name)
    (clean : (resolveStmt place state stmt).tally Finding.isError = 0) :
    Site allowed place (resolveStmt place state stmt).value.2.scopes where
  closed := site.closed
  names := site.names
  declared := (linked_resolveStmt place state stmt site.closed site.declared written
    ((Reported.errors_eq_zero_iff _).mp clean)).2
  scopeNames := names_resolveStmt place state stmt declared site.scopeNames

/-- So do several. -/
theorem resolveStmts (site : Site allowed place state.scopes) {stmts : List Stmt}
    (written : Stmt.WrittenList stmts)
    (declared : ∀ name ∈ Stmt.declaredNamesOfList stmts, allowed name)
    (clean : (resolveStmts place state stmts).tally Finding.isError = 0) :
    Site allowed place (resolveStmts place state stmts).value.2.scopes where
  closed := site.closed
  names := site.names
  declared := (linked_resolveStmts place state stmts site.closed site.declared written
    ((Reported.errors_eq_zero_iff _).mp clean)).2
  scopeNames := names_resolveStmts place state stmts declared site.scopeNames

end Site

end KnightFront
