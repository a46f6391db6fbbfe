import KnightFront.Proofs.Analysis.Reading
import KnightFront.Proofs.Diagnostics.Absence
import KnightFront.Proofs.Tree.Traversal
import Mathlib.Data.List.Nodup
import Mathlib.Data.List.Perm.Basic

namespace KnightFront

/-!
# Scopes mirror the nesting of the tree

A function opens a scope for its parameters and below it one for its body, and
a block and a loop with a declaration open one each.  These constructs are
listed here in the order of the text, each with the scope that is recorded on
it and with the one that is recorded on the nearest construct around it.

Name resolution opens the scopes in this order.  So the scopes of a file that
has been resolved, listed with their indices and parents, are what its tree
says: none is missing, none is shared and none is left over.  Parents come
first in this list, so the way outwards from any scope only goes down and ends
at the scope of a parameter list.
-/

/-- What a construct says of the scope that it opens: the record of this scope,
the record of the nearest construct around it, and its kind. -/
structure Opening where
  scope : Option ScopeId
  around : Option ScopeId
  kind : ScopeKind
deriving DecidableEq, Repr

namespace Stmt

/-- Whether a statement opens a scope. -/
def opensScope : Stmt → Bool
  | forLoop .. => true
  | block .. => true
  | _ => false

mutual

/-- The constructs in a statement that open scopes.  Conditions and loops
without a declaration open none, so what is inside them is as near to the
construct around them as they are. -/
def openings (around : Option ScopeId) : Stmt → List Opening
  | ifThen _ _ body => openings around body
  | ifElse _ _ body alternative => openings around body ++ openings around alternative
  | whileLoop _ _ body => openings around body
  | forLoop _ _ _ _ body scope => ⟨scope, around, .block⟩ :: openings scope body
  | block _ stmts scope => ⟨scope, around, .block⟩ :: openingsOfList scope stmts
  | varDecl .. | assign _ | fieldAssign .. | call .. | ret .. => []

/-- The constructs in several statements that open scopes. -/
def openingsOfList (around : Option ScopeId) : List Stmt → List Opening
  | [] => []
  | first :: rest => openings around first ++ openingsOfList around rest

end

end Stmt

/-- The constructs of a function that open scopes: its parameter list, its body
and those in the body. -/
def FunctionDecl.openings (decl : FunctionDecl) : List Opening :=
  ⟨decl.paramScope, none, .parameters⟩ :: ⟨decl.bodyScope, decl.paramScope, .block⟩ ::
    Stmt.openingsOfList decl.bodyScope decl.body

/-- The constructs of a file that open scopes. -/
def Program.openings (program : Program) : List Opening :=
  program.bodies.flatMap FunctionDecl.openings

mutual

/-- The constructs in a statement are all those with room for a scope. -/
theorem Stmt.map_scope_openings (around : Option ScopeId) : ∀ (stmt : Stmt),
    (stmt.openings around).map Opening.scope = stmt.nodes.flatMap scopeSlots
  | .varDecl .. | .assign _ | .fieldAssign .. | .call .. | .ret .. => rfl
  | .ifThen _ _ body | .whileLoop _ _ body => by
      simp [openings, nodes, scopeSlots, map_scope_openings around body]
  | .ifElse _ _ body alternative => by
      simp [openings, nodes, scopeSlots, map_scope_openings around body,
        map_scope_openings around alternative]
  | .forLoop _ _ _ _ body scope => by
      simp [openings, nodes, scopeSlots, map_scope_openings scope body]
  | .block _ stmts scope => by
      simp [openings, nodes, scopeSlots, map_scope_openingsOfList scope stmts]

theorem Stmt.map_scope_openingsOfList (around : Option ScopeId) : ∀ (stmts : List Stmt),
    (openingsOfList around stmts).map Opening.scope = (nodesOfList stmts).flatMap scopeSlots
  | [] => rfl
  | first :: rest => by
      simp [openingsOfList, nodesOfList, map_scope_openings around first,
        map_scope_openingsOfList around rest]

end

/-- The constructs of a file are all those with room for a scope. -/
theorem Program.perm_scopeSlots (program : Program) :
    (program.openings.map Opening.scope).Perm program.scopeSlots := by
  have each (decl : FunctionDecl) : decl.openings.map Opening.scope =
      [decl.paramScope, decl.bodyScope] ++ decl.stmts.flatMap Stmt.scopeSlots := by
    simp [FunctionDecl.openings, FunctionDecl.stmts, Stmt.map_scope_openingsOfList]
  calc
    program.openings.map Opening.scope =
        program.bodies.flatMap fun decl =>
          [decl.paramScope, decl.bodyScope] ++ decl.stmts.flatMap Stmt.scopeSlots := by
      rw [openings, List.map_flatMap, funext each]
    List.Perm _ ((program.bodies.flatMap fun decl => [decl.paramScope, decl.bodyScope]) ++
          program.bodies.flatMap fun decl => decl.stmts.flatMap Stmt.scopeSlots) :=
      (List.flatMap_append_perm program.bodies _ _).symm
    _ = program.scopeSlots := by
      rw [scopeSlots, stmts, List.flatMap_assoc]

namespace Scopes

/-- What a list of scopes says of itself: the index of each, its parent and its
kind. -/
def openings (scopes : List Scope) : List Opening :=
  scopes.mapIdx fun identity scope => ⟨some identity, scope.parent, scope.kind⟩

@[simp]
theorem length_openings (scopes : List Scope) : (openings scopes).length = scopes.length :=
  List.length_mapIdx

@[simp]
theorem openings_append_opened (scopes : List Scope) (parent : Option ScopeId) (kind : ScopeKind) :
    openings (scopes ++ [.opened parent kind]) =
      openings scopes ++ [⟨some scopes.length, parent, kind⟩] := by
  simp [openings, Scope.opened]

/-- A declaration leaves the indices, parents and kinds as they are. -/
@[simp]
theorem openings_declare (scopes : List Scope) (identity : ScopeId) (entity : Variable) :
    openings (declare scopes identity entity) = openings scopes := by
  refine List.ext_getElem? fun index => ?_
  simp only [openings, declare, List.getElem?_mapIdx, List.getElem?_modify]
  cases scopes[index]? with
  | none => simp
  | some scope => by_cases same : identity = index <;> simp [same, Scope.declare]

/-- Every scope has its parent in front of it. -/
def ParentsFirst (scopes : List Scope) : Prop :=
  ∀ opening ∈ openings scopes, ∀ identity ∈ opening.scope, ∀ parent ∈ opening.around,
    parent < identity

end Scopes

namespace Resolution

/-- Behind some scopes, those of the given constructs have been opened.  If
the scopes around these constructs were there, parents still come first. -/
structure Opens (around : Option ScopeId) (before after : List Scope) (made : List Opening) :
    Prop where
  openings : Scopes.openings after = Scopes.openings before ++ made
  parentsFirst : (∀ outer ∈ around, outer < before.length) → Scopes.ParentsFirst before →
    Scopes.ParentsFirst after

namespace Opens

variable {around : Option ScopeId} {first second third : List Scope} {front back : List Opening}

theorem refl (around : Option ScopeId) (scopes : List Scope) : Opens around scopes scopes [] :=
  ⟨(List.append_nil _).symm, fun _ parentsFirst => parentsFirst⟩

theorem length_eq (opens : Opens around first second front) :
    second.length = first.length + front.length := by
  have lengths := congrArg List.length opens.openings
  simpa using lengths

theorem trans (early : Opens around first second front) (late : Opens around second third back) :
    Opens around first third (front ++ back) := by
  refine ⟨?_, fun inside parentsFirst => ?_⟩
  · rw [late.openings, early.openings, List.append_assoc]
  · have further : first.length ≤ second.length := early.length_eq ▸ Nat.le_add_right _ _
    exact late.parentsFirst (fun outer isOuter => Nat.lt_of_lt_of_le (inside outer isOuter) further)
      (early.parentsFirst inside parentsFirst)

/-- A construct opens its own scope, below that of the construct around it, and
then those of the constructs inside. -/
theorem construct {scopes : List Scope} {kind : ScopeKind}
    (inside : Opens (some scopes.length) (scopes ++ [.opened around kind]) third back) :
    Opens around scopes third (⟨some scopes.length, around, kind⟩ :: back) := by
  refine ⟨?_, fun outer parentsFirst => inside.parentsFirst ?_ ?_⟩
  · rw [inside.openings, Scopes.openings_append_opened, List.append_assoc, List.singleton_append]
  · simp
  · intro opening member
    rw [Scopes.openings_append_opened] at member
    rcases List.mem_append.mp member with old | new
    · exact parentsFirst opening old
    · cases List.mem_singleton.mp new
      rintro identity ⟨⟩ parent isParent
      exact outer parent isParent

end Opens

variable {place : NamePlace} {state : ScopeState}

/-! ## Statements -/

theorem Opens.of_openings_eq {around : Option ScopeId} {before after : List Scope}
    (same : Scopes.openings after = Scopes.openings before) : Opens around before after [] := by
  refine ⟨by rw [same, List.append_nil], fun _ parentsFirst => ?_⟩
  rw [Scopes.ParentsFirst, same]
  exact parentsFirst

/-- A declaration opens no scope. -/
theorem opens_declareLocal (around : Option ScopeId) (decl : VarDecl) :
    Opens around state.scopes (declareLocal place state decl).scopes [] := by
  apply Opens.of_openings_eq
  unfold declareLocal
  split
  · rfl
  · split
    · rfl
    · exact Scopes.openings_declare _ _ _

theorem opens_resolveLocal (around : Option ScopeId) (decl : VarDecl) :
    Opens around state.scopes (resolveLocal place state decl).value.2.scopes [] :=
  opens_declareLocal around _

mutual

/-- A statement opens the scopes of the constructs in it. -/
theorem opens_resolveStmt (place : NamePlace) (state : ScopeState) : ∀ (stmt : Stmt),
    Opens place.scope state.scopes (resolveStmt place state stmt).value.2.scopes
      ((resolveStmt place state stmt).value.1.openings place.scope)
  | .varDecl info decl => by
      simpa [resolveStmt, Stmt.openings] using opens_resolveLocal place.scope decl
  | .assign _ | .fieldAssign .. | .call .. | .ret .. => by
      simpa [resolveStmt, Stmt.openings] using Opens.refl place.scope state.scopes
  | .ifThen info condition body => by
      simpa [resolveStmt, Stmt.openings] using opens_resolveStmt place state body
  | .ifElse info condition body alternative => by
      have first := opens_resolveStmt place state body
      have second := opens_resolveStmt place (resolveStmt place state body).value.2 alternative
      simpa [resolveStmt, Stmt.openings] using first.trans second
  | .whileLoop info condition body => by
      simpa [resolveStmt, Stmt.openings] using opens_resolveStmt place state body
  | .forLoop info init condition update body scope => by
      let opened := state.openScope place.scope .block
      let inner : NamePlace := { place with scope := some opened.1 }
      have start := @opens_resolveLocal inner opened.2 (some opened.1) init
      have behind := opens_resolveStmt inner (resolveLocal inner opened.2 init).value.2 body
      rw [resolveStmt]
      exact (start.trans behind).construct
  | .block info stmts scope => by
      let opened := state.openScope place.scope .block
      have inside := opens_resolveStmts { place with scope := some opened.1 } opened.2 stmts
      rw [resolveStmt]
      exact inside.construct

/-- Statements one after another open the scopes of the constructs in them. -/
theorem opens_resolveStmts (place : NamePlace) (state : ScopeState) : ∀ (stmts : List Stmt),
    Opens place.scope state.scopes (resolveStmts place state stmts).value.2.scopes
      (Stmt.openingsOfList place.scope (resolveStmts place state stmts).value.1)
  | [] => by
      simpa [resolveStmts, Stmt.openingsOfList] using Opens.refl place.scope state.scopes
  | first :: rest => by
      have front := opens_resolveStmt place state first
      have behind := opens_resolveStmts place (resolveStmt place state first).value.2 rest
      simpa [resolveStmts, Stmt.openingsOfList] using front.trans behind

end

mutual

/-- Resolution keeps the constructs of a statement.  They are its blocks and its
loops with a declaration. -/
theorem map_kind_openings_resolveStmt (around : Option ScopeId) (place : NamePlace)
    (state : ScopeState) : ∀ (stmt : Stmt),
    ((resolveStmt place state stmt).value.1.openings around).map Opening.kind =
      List.replicate (stmt.nodes.countP Stmt.opensScope) .block
  | .varDecl .. | .assign _ | .fieldAssign .. | .call .. | .ret .. => by
      simp [resolveStmt, Stmt.openings, Stmt.nodes, Stmt.opensScope]
  | .ifThen _ _ body | .whileLoop _ _ body => by
      simp [resolveStmt, Stmt.openings, Stmt.nodes, Stmt.opensScope,
        map_kind_openings_resolveStmt _ _ _ body]
  | .ifElse _ _ body alternative => by
      simp [resolveStmt, Stmt.openings, Stmt.nodes, Stmt.opensScope,
        map_kind_openings_resolveStmt _ _ _ body, map_kind_openings_resolveStmt _ _ _ alternative]
  | .forLoop _ _ _ _ body _ => by
      simp [resolveStmt, Stmt.openings, Stmt.nodes, Stmt.opensScope, List.countP_cons,
        List.replicate_succ,
        map_kind_openings_resolveStmt _ _ _ body]
  | .block _ stmts _ => by
      simp [resolveStmt, Stmt.openings, Stmt.nodes, Stmt.opensScope, List.countP_cons,
        List.replicate_succ,
        map_kind_openings_resolveStmts _ _ _ stmts]

/-- Resolution keeps the constructs of several statements. -/
theorem map_kind_openings_resolveStmts (around : Option ScopeId) (place : NamePlace)
    (state : ScopeState) : ∀ (stmts : List Stmt),
    (Stmt.openingsOfList around (resolveStmts place state stmts).value.1).map Opening.kind =
      List.replicate ((Stmt.nodesOfList stmts).countP Stmt.opensScope) .block
  | [] => by simp [resolveStmts, Stmt.openingsOfList, Stmt.nodesOfList]
  | first :: rest => by
      simp [resolveStmts, Stmt.openingsOfList, Stmt.nodesOfList,
        map_kind_openings_resolveStmt _ _ _ first, map_kind_openings_resolveStmts _ _ _ rest]

end

variable (scopes : List Scope) (decl : FunctionDecl)

theorem openings_declareParams (scope : ScopeId) (params : List Param) :
    Scopes.openings (declareParams scopes scope params) = Scopes.openings scopes := by
  unfold declareParams
  induction params.mapIdx _ generalizing scopes with
  | nil => rfl
  | cons first rest inductionHypothesis =>
      rw [List.foldl_cons, inductionHypothesis, Scopes.openings_declare]

/-- A function opens the scopes of its parameters and of its body, and those of
the constructs in the body. -/
theorem opens_resolveFunction (place : NamePlace) :
    Opens none scopes (resolveFunction place scopes decl).value.2
      (resolveFunction place scopes decl).value.1.openings := by
  let entry := enterFunction scopes decl.head.params
  have params : Opens (some scopes.length) (scopes ++ [.opened none .parameters])
      (declareParams (scopes ++ [.opened none .parameters]) scopes.length decl.head.params) [] :=
    .of_openings_eq (openings_declareParams _ _ _)
  have body := (opens_resolveStmts (bodyPlace place entry) entry.state decl.body).construct
  rw [resolveFunction]
  exact (params.trans body).construct

/-- Resolution keeps the constructs of a function. -/
theorem map_kind_openings_resolveFunction (place : NamePlace) :
    (resolveFunction place scopes decl).value.1.openings.map Opening.kind =
      .parameters :: .block :: List.replicate (decl.stmts.countP Stmt.opensScope) .block := by
  simp [resolveFunction, FunctionDecl.openings, FunctionDecl.stmts, map_kind_openings_resolveStmts]

/-- Functions, what resolution makes of them one after another, and the scopes in
front of them and behind. -/
inductive FunctionRun : List Scope → List FunctionDecl → List FunctionDecl → List Scope → Prop where
  | done (scopes : List Scope) : FunctionRun scopes [] [] scopes
  | next {scopes after : List Scope} {first : FunctionDecl} {rest resolved : List FunctionDecl}
      (place : NamePlace)
      (behind : FunctionRun (resolveFunction place scopes first).value.2 rest resolved after) :
      FunctionRun scopes (first :: rest)
        ((resolveFunction place scopes first).value.1 :: resolved) after

namespace FunctionRun

variable {before between after : List Scope} {front back resolved resolved' : List FunctionDecl}

theorem append (first : FunctionRun before front resolved between)
    (second : FunctionRun between back resolved' after) :
    FunctionRun before (front ++ back) (resolved ++ resolved') after := by
  induction first with
  | done => exact second
  | next place _ inductionHypothesis => exact .next place (inductionHypothesis second)

/-- Functions open the scopes of the constructs in them. -/
theorem opens (run : FunctionRun before front resolved after) :
    Opens none before after (resolved.flatMap FunctionDecl.openings) := by
  induction run with
  | done scopes => exact .refl none scopes
  | @next scopes _ first _ _ place _ inductionHypothesis =>
      rw [List.flatMap_cons]
      exact (opens_resolveFunction scopes first place).trans inductionHypothesis

/-- Resolution keeps the constructs of functions. -/
theorem perm_kinds (run : FunctionRun before front resolved after) :
    ((resolved.flatMap FunctionDecl.openings).map Opening.kind).Perm
      (List.replicate front.length .parameters ++
        List.replicate (front.length + (front.flatMap FunctionDecl.stmts).countP Stmt.opensScope)
          .block) := by
  refine List.perm_iff_count.mpr fun kind => ?_
  induction run with
  | done => simp
  | @next scopes _ first _ _ place _ inductionHypothesis =>
      simp only [List.flatMap_cons, List.map_append, map_kind_openings_resolveFunction,
        List.count_append, List.count_cons, List.count_replicate, List.length_cons,
        List.countP_append] at inductionHypothesis ⊢
      rw [inductionHypothesis]
      cases kind <;> simp <;> omega

end FunctionRun

/-- Methods are resolved one after another. -/
theorem run_resolveMethods (place : NamePlace) (methods : List FunctionDecl) :
    FunctionRun scopes methods (resolveMethods place scopes methods).value.1
      (resolveMethods place scopes methods).value.2 := by
  induction methods generalizing scopes with
  | nil => exact .done scopes
  | cons first rest inductionHypothesis =>
      simpa [resolveMethods] using FunctionRun.next place (inductionHypothesis _)

/-- The functions of a declaration are resolved one after another. -/
theorem run_resolveItem (model : SymbolModel) (item : Item) :
    FunctionRun scopes item.bodies (resolveItem model scopes item).value.1.bodies
      (resolveItem model scopes item).value.2 := by
  cases item with
  | classDecl decl =>
      have methods := run_resolveMethods scopes { model, className := some decl.name } decl.methods
      simpa [resolveItem, resolveClass, Item.bodies] using methods
  | function decl =>
      have single := FunctionRun.next { model }
        (.done (resolveFunction { model } scopes decl).value.2)
      simpa [resolveItem, Item.bodies] using single
  | _ => simpa [resolveItem, Item.bodies] using FunctionRun.done scopes

theorem run_resolveItems (model : SymbolModel) (items : List Item) :
    FunctionRun scopes (items.flatMap Item.bodies)
      ((resolveItems model scopes items).value.1.flatMap Item.bodies)
      (resolveItems model scopes items).value.2 := by
  induction items generalizing scopes with
  | nil => exact .done scopes
  | cons first rest inductionHypothesis =>
      have front := run_resolveItem scopes model first
      simpa [resolveItems] using front.append (inductionHypothesis _)

end Resolution

/-- The functions of a file are resolved one after another. -/
theorem Program.run_resolve (model : SymbolModel) (program : Program) :
    Resolution.FunctionRun program.scopes program.bodies (program.resolve model).value.bodies
      (program.resolve model).value.scopes := by
  simpa [resolve, bodies] using Resolution.run_resolveItems program.scopes model program.items

/-! ## Scopes and their parents -/

namespace Scopes

variable {scopes : List Scope}

/-- The way outwards from a scope comes to a scope without a parent. -/
inductive Ends (scopes : List Scope) : ScopeId → Prop where
  | outermost {identity : ScopeId} {scope : Scope} (present : scopes[identity]? = some scope)
      (alone : scope.parent = none) : Ends scopes identity
  | inside {identity parent : ScopeId} {scope : Scope} (present : scopes[identity]? = some scope)
      (isParent : scope.parent = some parent) (further : Ends scopes parent) : Ends scopes identity

theorem mem_openings {opening : Opening} :
    opening ∈ openings scopes ↔ ∃ identity scope, scopes[identity]? = some scope ∧
      opening = ⟨some identity, scope.parent, scope.kind⟩ := by
  simp only [openings, List.mem_iff_getElem?, List.getElem?_mapIdx, Option.map_eq_some_iff]
  exact exists_congr fun identity => exists_congr fun scope => and_congr_right fun _ => eq_comm

theorem map_scope_openings (scopes : List Scope) :
    (openings scopes).map Opening.scope = (List.range scopes.length).map some := by
  refine List.ext_getElem? fun index => ?_
  simp only [openings, List.getElem?_map, List.getElem?_mapIdx]
  rcases Nat.lt_or_ge index scopes.length with inside | outside
  · rw [List.getElem?_range inside, List.getElem?_eq_getElem inside]
    rfl
  · rw [List.getElem?_eq_none outside, List.getElem?_eq_none (by simpa using outside)]
    rfl

theorem map_kind_openings (scopes : List Scope) :
    (openings scopes).map Opening.kind = scopes.map Scope.kind := by
  refine List.ext_getElem? fun index => ?_
  simp only [openings, List.getElem?_map, List.getElem?_mapIdx]
  cases scopes[index]? <;> rfl

namespace ParentsFirst

variable (parentsFirst : ParentsFirst scopes)

include parentsFirst

theorem parent_lt {identity parent : ScopeId} {scope : Scope}
    (present : scopes[identity]? = some scope) (isParent : scope.parent = some parent) :
    parent < identity :=
  parentsFirst _ (mem_openings.mpr ⟨identity, scope, present, rfl⟩) identity rfl parent isParent

theorem ends {identity : ScopeId} (inside : identity < scopes.length) : Ends scopes identity := by
  induction identity using Nat.strongRecOn with
  | ind identity inductionHypothesis =>
      have present := List.getElem?_eq_getElem inside
      cases hasParent : scopes[identity].parent with
      | none => exact .outermost present hasParent
      | some parent =>
          have below := parentsFirst.parent_lt present hasParent
          exact .inside present hasParent
            (inductionHypothesis parent below (Nat.lt_trans below inside))

/-- A search looks into no more scopes than there are up to the one where it
begins. -/
theorem lookupWithin_eq {identity : ScopeId} (name : String) {steps more : Nat}
    (enough : identity < steps) (le : steps ≤ more) :
    lookupWithin scopes name steps identity = lookupWithin scopes name more identity := by
  induction identity using Nat.strongRecOn generalizing steps more with
  | ind identity inductionHypothesis =>
      obtain ⟨steps, rfl⟩ := Nat.exists_eq_add_one_of_ne_zero (Nat.ne_zero_of_lt enough)
      obtain ⟨more, rfl⟩ :=
        Nat.exists_eq_add_one_of_ne_zero (Nat.ne_zero_of_lt (Nat.lt_of_lt_of_le enough le))
      rw [lookupWithin, lookupWithin]
      cases present : scopes[identity]? with
      | none => rfl
      | some scope =>
          simp only
          cases scope.entries.find? name with
          | some entity => rfl
          | none =>
              cases hasParent : scope.parent with
              | none => rfl
              | some parent =>
                  have below := parentsFirst.parent_lt present hasParent
                  exact inductionHypothesis parent below
                    (Nat.lt_of_lt_of_le below (Nat.le_of_lt_succ enough))
                    (Nat.le_of_succ_le_succ le)

end ParentsFirst

/-- A scope is recorded that has the parent and the kind that its construct
says. -/
def Records (scopes : List Scope) (opening : Opening) : Prop :=
  ∃ identity scope, opening.scope = some identity ∧ scopes[identity]? = some scope ∧
    scope.parent = opening.around ∧ scope.kind = opening.kind

theorem records_of_mem {opening : Opening} (member : opening ∈ openings scopes) :
    Records scopes opening := by
  rcases mem_openings.mp member with ⟨identity, scope, present, rfl⟩
  exact ⟨identity, scope, rfl, present, rfl, rfl⟩

end Scopes

namespace Program

/-- The scopes of a resolved file are those of the constructs in its tree. -/
structure MirrorsScopes (parsed resolved : Program) : Prop where
  /-- The scopes, in their order, are those of the constructs in the order of the
  text. -/
  constructs : Scopes.openings resolved.scopes = resolved.openings
  parameterScopes :
    resolved.scopes.countP (fun scope => scope.kind = .parameters) = parsed.bodies.length
  blockScopes : resolved.scopes.countP (fun scope => scope.kind = .block) =
    parsed.bodies.length + parsed.stmts.countP Stmt.opensScope
  distinct : resolved.scopeSlots.Nodup
  inRange : ∀ slot ∈ resolved.scopeSlots, ∃ identity < resolved.scopes.length, slot = some identity
  /-- The scope of a function's parameters is outermost, and that of its body is
  directly below. -/
  functions : ∀ decl ∈ resolved.bodies,
    Scopes.Records resolved.scopes ⟨decl.paramScope, none, .parameters⟩ ∧
      Scopes.Records resolved.scopes ⟨decl.bodyScope, decl.paramScope, .block⟩
  /-- The scope of a block or a loop is below that of the nearest block, loop or
  function body around it. -/
  nested : ∀ decl ∈ resolved.bodies, ∀ opening ∈ Stmt.openingsOfList decl.bodyScope decl.body,
    Scopes.Records resolved.scopes opening
  parent_lt : ∀ (identity parent : ScopeId) (scope : Scope),
    resolved.scopes[identity]? = some scope → scope.parent = some parent → parent < identity
  ends : ∀ identity < resolved.scopes.length, Scopes.Ends resolved.scopes identity
  /-- A search from a scope is over after at most one step for each scope up to
  this one. -/
  lookup_eq : ∀ identity < resolved.scopes.length, ∀ name, ∀ steps > identity,
    Scopes.lookupWithin resolved.scopes name steps identity =
      Scopes.lookup resolved.scopes identity name

/-- Without scopes in front, resolution gives a file the scopes that its tree
asks for, with parents in front. -/
theorem opens_resolve {program : Program} (fresh : program.scopes = []) (model : SymbolModel) :
    let resolved := (program.resolve model).value
    Scopes.openings resolved.scopes = resolved.openings ∧ Scopes.ParentsFirst resolved.scopes := by
  have opens := (program.run_resolve model).opens
  rw [fresh] at opens
  have empty : Scopes.ParentsFirst [] := by simp [Scopes.ParentsFirst, Scopes.openings]
  exact ⟨opens.openings, opens.parentsFirst (by simp) empty⟩

/-- Resolving a file that was read lays out its scopes as its tree lays out the
constructs that open them, each with the scope of the construct around it for
its parent. -/
theorem mirrorsScopes_resolve {file : String} {tokens : List Token} {program : Program}
    (read : ofTokens file tokens = .ok program) (model : SymbolModel) :
    MirrorsScopes program (program.resolve model).value := by
  obtain ⟨constructs, parentsFirst⟩ := opens_resolve (scopes_ofTokens read) model
  have kinds := (program.run_resolve model).perm_kinds
  generalize (program.resolve model).value = resolved at *
  have counted (kind : ScopeKind) : resolved.scopes.countP (fun scope => scope.kind = kind) =
      (resolved.openings.map Opening.kind).count kind := by
    rw [← constructs, Scopes.map_kind_openings, List.count, List.countP_map]
    rfl
  have slots : resolved.scopeSlots.Perm ((List.range resolved.scopes.length).map some) := by
    rw [← Scopes.map_scope_openings, constructs]
    exact resolved.perm_scopeSlots.symm
  have recorded {opening : Opening} {decl : FunctionDecl} (among : decl ∈ resolved.bodies)
      (member : opening ∈ decl.openings) : Scopes.Records resolved.scopes opening :=
    Scopes.records_of_mem (constructs ▸ List.mem_flatMap_of_mem among member)
  constructor
  case constructs => exact constructs
  case parameterScopes =>
    rw [counted, openings, kinds.count_eq]
    simp [List.count_replicate]
  case blockScopes =>
    rw [counted, openings, kinds.count_eq]
    simp [List.count_replicate, stmts]
  case distinct =>
    exact slots.nodup_iff.mpr (List.nodup_range.map fun _ _ => Option.some.inj)
  case inRange =>
    intro slot member
    obtain ⟨identity, inside, rfl⟩ := List.mem_map.mp (slots.subset member)
    exact ⟨identity, List.mem_range.mp inside, rfl⟩
  case functions =>
    intro decl among
    exact ⟨recorded among List.mem_cons_self,
      recorded among (List.mem_cons_of_mem _ List.mem_cons_self)⟩
  case nested =>
    intro decl among opening member
    exact recorded among (List.mem_cons_of_mem _ (List.mem_cons_of_mem _ member))
  case parent_lt => exact fun identity parent scope => parentsFirst.parent_lt
  case ends => exact fun identity inside => parentsFirst.ends inside
  case lookup_eq =>
    intro identity inside name steps enough
    rcases Nat.le_total steps resolved.scopes.length with shorter | longer
    · exact parentsFirst.lookupWithin_eq name enough shorter
    · exact (parentsFirst.lookupWithin_eq name inside longer).symm

/-- A method with a loop around two blocks, and a function with a block. -/
def nestedBlocks : List Token :=
  ((tokenize "nest.kn" ("class Grid \x7b fn fill(int n): void \x7b " ++
    "for (int i = 0; i < n; i = i + 1) " ++
    "\x7b \x7b int k = i; \x7d \x7d while (n < 3) \x7b n = 3; \x7d \x7d \x7d " ++
    "fn leave(): int \x7b if (true) \x7b \x7d ret 0; \x7d")).toOption).getD []

/-- The body of a loop is a block of its own. -/
theorem mirrorsScopes_nestedBlocks :
    ∃ program, ofTokens "nest.kn" nestedBlocks = .ok program ∧
      let resolved := (program.resolve (SymbolModel.ofPrograms [program]).value).value
      MirrorsScopes program resolved ∧ resolved.scopes.map Scope.parent =
        [none, some 0, some 1, some 2, some 3, some 1, none, some 6, some 7] := by
  have parents : ((ofTokens "nest.kn" nestedBlocks).toOption.map fun program =>
      (program.resolve (SymbolModel.ofPrograms [program]).value).value.scopes.map Scope.parent) =
        some [none, some 0, some 1, some 2, some 3, some 1, none, some 6, some 7] := by
    rw [nestedBlocks, SpelledBy.tokenize (.append (.append (.append .literal .literal) .literal)
      .literal)]
    decide +kernel
  cases read : ofTokens "nest.kn" nestedBlocks with
  | error failure => rw [read] at parents; cases parents
  | ok program =>
      rw [read] at parents
      exact ⟨program, rfl, mirrorsScopes_resolve read _, Option.some.inj parents⟩

end Program

end KnightFront
