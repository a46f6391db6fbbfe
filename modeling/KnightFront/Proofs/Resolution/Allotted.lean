import KnightFront.Proofs.Resolution.Lexical
import KnightFront.Proofs.Symbols.Allotted

namespace KnightFront

/-!
# Name resolution declares what is allotted

The scopes that resolution opens in a function declare its parameters and
those of its locals that take a slot, each at the slot that it takes.  The two
passes count names differently.  The first has a set of names for each block,
which begins with the parameters in a body; the second asks the innermost scope,
and in a body the scope of the parameters.  They agree because a name is in the
set if and only if it is declared in the frame or hidden by a parameter.
-/

namespace Scopes

/-- All variables that scopes declare. -/
def entries (scopes : List Scope) : List Variable :=
  scopes.flatMap fun scope => scope.entries.entries

@[simp]
theorem entries_append (front back : List Scope) :
    entries (front ++ back) = entries front ++ entries back :=
  List.flatMap_append

@[simp]
theorem entries_opened (parent : Option ScopeId) (kind : ScopeKind) :
    entries [.opened parent kind] = [] := rfl

/-- A declaration of a name that its scope does not have adds one variable. -/
theorem perm_entries_declare {scopes : List Scope} {identity : ScopeId} {entity : Variable}
    (inside : identity < scopes.length) (free : declares scopes identity entity.name = false) :
    (entries (declare scopes identity entity)).Perm (entries scopes ++ [entity]) := by
  induction scopes generalizing identity with
  | nil => cases inside
  | cons first rest inductionHypothesis =>
      cases identity with
      | zero =>
          have declared : (first.declare entity).entries.entries =
              first.entries.entries ++ [entity] := Table.entries_add_of_not_contains free
          simp only [declare, List.modify_zero_cons, entries, List.flatMap_cons, declared,
            List.append_assoc]
          exact List.perm_append_comm.append_left _
      | succ identity =>
          have later := inductionHypothesis (Nat.lt_of_succ_lt_succ inside) free
          simpa [declare, entries] using later.append_left first.entries.entries

/-- The scopes that are kept make the front of the list. -/
theorem Keeps.take_eq {count : Nat} {before after : List Scope} (keeps : Keeps count before after) :
    after.take count = before.take count := by
  refine List.ext_getElem? fun index => ?_
  rw [List.getElem?_take, List.getElem?_take]
  split
  · next inside => exact keeps.same index inside
  · rfl

/-- The scope at the end of a list is changed by itself. -/
theorem declare_last (scopes : List Scope) (scope : Scope) (entity : Variable) :
    declare (scopes ++ [scope]) scopes.length entity = scopes ++ [scope.declare entity] := by
  simp [declare, List.modify_eq_take_cons_drop]

end Scopes

namespace Resolution

open Allotment (entities)

/-- One state of resolution follows from another by declaring what is allotted
between them. -/
structure Allots (before after : ScopeState) (allotments : List Allotment) : Prop where
  nextSlot : after.nextSlot = before.nextSlot + (entities allotments).length
  entries : (Scopes.entries after.scopes).Perm
    (Scopes.entries before.scopes ++ entities allotments)

namespace Allots

variable {first second third : ScopeState} {front back : List Allotment}

theorem refl (state : ScopeState) : Allots state state [] :=
  ⟨rfl, by simp⟩

theorem trans (early : Allots first second front) (late : Allots second third back) :
    Allots first third (front ++ back) := by
  refine ⟨?_, ?_⟩
  · rw [late.nextSlot, early.nextSlot, Allotment.entities_append, List.length_append, Nat.add_assoc]
  · rw [Allotment.entities_append, ← List.append_assoc]
    exact late.entries.trans (early.entries.append_right _)

/-- Opening a scope declares nothing. -/
theorem openScope (state : ScopeState) (parent : Option ScopeId) (kind : ScopeKind) :
    Allots state (state.openScope parent kind).2 [] :=
  ⟨rfl, by simp [ScopeState.openScope]⟩

end Allots

variable {place : NamePlace} {state : ScopeState} {current : ScopeId}
variable {frame : Frame} {frames outer : List Frame} {hidden taken : List String}

/-- The names that are taken in a block are those that its frame declares and
those that may not be declared there. -/
def Meets (taken hidden : List String) (declared : List LocalDecl) : Prop :=
  ∀ name, name ∈ taken ↔ name ∈ hidden ∨ ∃ decl ∈ declared, decl.name = name

theorem meets_nil (hidden : List String) : Meets hidden hidden [] := by
  simp [Meets]

/-- Behind a statement it is still so. -/
theorem Meets.behind {declared : List LocalDecl} (meets : Meets taken hidden declared)
    (stmt : Stmt) :
    Meets (stmt.takes taken) hidden (declared ++ Stmt.declares hidden stmt) := by
  cases stmt with
  | varDecl info decl =>
      intro name
      rw [Stmt.takes, List.mem_insert_iff, meets name, Stmt.declares]
      by_cases isHidden : decl.name ∈ hidden
      · rw [if_pos isHidden, List.append_nil]
        exact or_iff_right_of_imp fun same => .inl (same ▸ isHidden)
      · rw [if_neg isHidden]
        simp only [List.mem_append, List.mem_singleton, or_and_right, exists_or, exists_eq_left]
        rw [or_comm, or_assoc, eq_comm]
        rfl
  | _ => simpa [Stmt.takes, Stmt.declares] using meets

/-- A local is declared as it is allotted. -/
theorem allots_declareLocal (inside : Inside place state.scopes current (frame :: outer))
    (hides : Hides place state.scopes current hidden) (meets : Meets taken hidden frame.declared)
    (decl : VarDecl) :
    Allots state (declareLocal place state decl) [decl.allotted taken state.nextSlot] := by
  have refused : (repeatsParam place state.scopes current decl.name ||
      Scopes.declares state.scopes current decl.name) = true ↔ decl.name ∈ taken := by
    rw [Bool.or_eq_true, hides decl.name, inside.represent.declares_iff, meets decl.name]
  simp only [declareLocal, inside.scope]
  by_cases isTaken : decl.name ∈ taken
  · rw [if_pos (refused.mpr isTaken)]
    constructor <;> simp [VarDecl.entities_of_mem isTaken]
  · rw [if_neg (mt refused.mp isTaken)]
    have free : Scopes.declares state.scopes current decl.name = false := by
      rw [← Bool.not_eq_true]
      exact fun declared => isTaken (refused.mp (by rw [declared, Bool.or_true]))
    constructor <;> rw [VarDecl.entities_of_not_mem isTaken]
    · rfl
    · exact Scopes.perm_entries_declare inside.represent.lt_length free

theorem allots_resolveLocal (inside : Inside place state.scopes current (frame :: outer))
    (hides : Hides place state.scopes current hidden) (meets : Meets taken hidden frame.declared)
    (decl : VarDecl) :
    Allots state (resolveLocal place state decl).value.2 [decl.allotted taken state.nextSlot] :=
  allots_declareLocal inside hides meets decl

mutual

/-- What a statement that is no declaration declares inside is allotted. -/
theorem allots_resolveStmt :
    ∀ (place : NamePlace) (state : ScopeState) (current : ScopeId) (frames : List Frame)
      (taken : List String) (stmt : Stmt), Inside place state.scopes current frames →
      stmt.Written → stmt.isVarDecl = false →
      Allots state (resolveStmt place state stmt).value.2 (stmt.allotted taken state.nextSlot)
  | _, _, _, _, _, .varDecl .., _, _, plain => by cases plain
  | place, state, current, frames, _, .ifThen info condition body, inside, written, _ =>
      allots_resolveStmt place state current frames [] body inside written.2.1 written.2.2
  | place, state, current, frames, _, .ifElse info condition body alternative, inside, written,
      _ => by
      have first := allots_resolveStmt place state current frames [] body inside written.2.1
        written.2.2.2.1
      have keeps := (resolved_resolveStmt place state current frames body inside written.2.1
        written.2.2.2.1).keeps
      have second := allots_resolveStmt place _ current frames [] alternative
        (inside.of_keeps keeps inside.represent.lt_length) written.2.2.1 written.2.2.2.2.1
      rw [first.nextSlot] at second
      simpa [resolveStmt, Stmt.allotted] using first.trans second
  | place, state, current, frames, _, .whileLoop info condition body, inside, written, _ =>
      allots_resolveStmt place state current frames [] body inside written.2.1 written.2.2
  | place, state, _, frames, _, .forLoop info init condition update body scope, inside, written,
      _ => by
      let opened := state.openScope place.scope .block
      let inner : NamePlace := { place with scope := some opened.1 }
      have start := @allots_resolveLocal inner opened.2 _ _ _ _ _ inside.openScope
        inside.hides_openScope (meets_nil []) init
      have startInside := (@resolved_resolveLocal inner _ _ _ _ opened.2 info init
        inside.openScope inside.hides_openScope written.1).2.1
      have behind := allots_resolveStmt inner _ _ _ [] body startInside written.2.2.2.1
        written.2.2.2.2
      rw [start.nextSlot] at behind
      have all := (Allots.openScope state place.scope .block).trans (start.trans behind)
      rw [resolveStmt]
      exact all
  | place, state, _, frames, _, .block info stmts scope, inside, written, _ => by
      let opened := state.openScope place.scope .block
      have inner := allots_resolveStmts { place with scope := some opened.1 } opened.2 opened.1
        frames [] [] [] stmts inside.openScope inside.hides_openScope (meets_nil []) written
      have all := (Allots.openScope state place.scope .block).trans inner
      rw [resolveStmt]
      exact all
  | _, state, _, _, _, .assign _, _, _, _ => Allots.refl state
  | _, state, _, _, _, .fieldAssign .., _, _, _ => Allots.refl state
  | _, state, _, _, _, .call .., _, _, _ => Allots.refl state
  | _, state, _, _, _, .ret .., _, _, _ => Allots.refl state

/-- What statements declare in one scope is allotted. -/
theorem allots_resolveStmts :
    ∀ (place : NamePlace) (state : ScopeState) (current : ScopeId) (outer : List Frame)
      (taken hidden : List String) (declared : List LocalDecl) (stmts : List Stmt),
      Inside place state.scopes current (⟨.block, declared⟩ :: outer) →
      Hides place state.scopes current hidden → Meets taken hidden declared →
      Stmt.WrittenList stmts →
      Allots state (resolveStmts place state stmts).value.2
        (Stmt.allottedOfList taken state.nextSlot stmts)
  | _, state, _, _, _, _, _, [], _, _, _, _ => Allots.refl state
  | place, state, current, outer, taken, hidden, declared, first :: rest, inside, hides, meets,
      written => by
      have front : Allots state (resolveStmt place state first).value.2
          (first.allotted taken state.nextSlot) := by
        cases isDecl : first.isVarDecl with
        | true =>
            cases first with
            | varDecl info decl => exact allots_resolveLocal inside hides meets decl
            | _ => cases isDecl
        | false => exact allots_resolveStmt place state current _ taken first inside written.1 isDecl
      rcases resolved_first inside hides written.1
        (resolved_resolveStmt place state current _ first inside written.1) with ⟨_, between, keeps⟩
      have behind := allots_resolveStmts place _ current outer (first.takes taken) hidden _ rest
        between (hides.of_keeps inside keeps) (meets.behind first) written.2
      rw [front.nextSlot] at behind
      simpa [resolveStmts, Stmt.allottedOfList] using front.trans behind

end

/-- The scope of the parameters has the table of the parameters. -/
theorem declareParams_eq (scopes : List Scope) (decl : FunctionDecl) :
    declareParams (scopes ++ [Scope.opened none .parameters]) scopes.length decl.head.params =
      scopes ++ [⟨none, .parameters, decl.paramTable⟩] := by
  have general (entities : List Variable) (scope : Scope) :
      entities.foldl (fun scopes' entity => Scopes.declare scopes' scopes.length entity)
          (scopes ++ [scope]) =
        scopes ++ [{ scope with entries := entities.foldl Table.add scope.entries }] := by
    induction entities generalizing scope with
    | nil => rfl
    | cons first rest inductionHypothesis =>
        rw [List.foldl_cons, Scopes.declare_last, inductionHypothesis]
        rfl
  exact general _ _

/-- A function leaves the scopes that were there, and those behind them declare
its parameters and what is allotted. -/
theorem allots_resolveFunction {decl : FunctionDecl} (written : decl.Written)
    (place : NamePlace) (scopes : List Scope) :
    let after := (resolveFunction place scopes decl).value.2
    after.take scopes.length = scopes ∧
      (Scopes.entries (after.drop scopes.length)).Perm
        (decl.paramTable.entries ++ entities decl.allotted) := by
  intro after
  let entry := enterFunction scopes decl.head.params
  rcases inside_enterFunction place scopes decl with ⟨inside, hides⟩
  have writtenBody := Stmt.writtenList_iff.mpr written.body
  have body := allots_resolveStmts _ _ _ [decl.paramFrame] decl.hidden decl.hidden [] decl.body
    inside hides (meets_nil _) writtenBody
  have keeps := (resolved_resolveStmts _ _ _ [decl.paramFrame] decl.hidden [] decl.body inside hides
    writtenBody).keeps
  have same : after = (resolveStmts (bodyPlace place entry) entry.state decl.body).value.2.scopes := by
    simp [after, resolveFunction, entry]
  have start : entry.state.scopes =
      scopes ++ [⟨none, .parameters, decl.paramTable⟩] ++ [Scope.opened (some scopes.length) .block] := by
    rw [← declareParams_eq]
    rfl
  have front : after.take scopes.length = scopes := by
    have within : scopes.length ≤ entry.bodyScope := by
      change scopes.length ≤ (declareParams _ scopes.length decl.head.params).length
      rw [declareParams_eq, List.length_append]
      exact Nat.le_add_right _ _
    rw [same, (keeps.mono within).take_eq, start]
    simp
  refine ⟨front, (List.perm_append_left_iff (Scopes.entries scopes)).mp ?_⟩
  have all := body.entries
  have allotted : Stmt.allottedOfList decl.hidden entry.state.nextSlot decl.body = decl.allotted :=
    rfl
  rw [← same, start, ← List.take_append_drop scopes.length after, front, allotted] at all
  simpa [Scopes.entries, Scope.opened, Table.empty] using all

end Resolution

end KnightFront
