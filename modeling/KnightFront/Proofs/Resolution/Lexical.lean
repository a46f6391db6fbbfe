import KnightFront.Proofs.Printing.RoundTrip
import KnightFront.Proofs.Resolution.Uses

namespace KnightFront

/-!
# Name resolution is lexical scoping

Resolution keeps scopes that represent the frames around the place it has
come to, so each name is bound as its site in the tree asks.  A statement
other than a declaration changes none of the scopes that are there; whatever
it opens comes to stand behind them.  A declaration changes the innermost
scope, and only by its own local.
-/

namespace Resolution

variable {place : NamePlace} {scopes : List Scope} {current : ScopeId}
variable {frame : Frame} {frames outer : List Frame} {hidden : List String}

/-- A place in a function stands directly in a scope, which represents the
frames around it.  The scope of the body is this one or further out. -/
structure Inside (place : NamePlace) (scopes : List Scope) (current : ScopeId)
    (frames : List Frame) : Prop where
  scope : place.scope = some current
  represent : Scopes.Represent scopes (some current) frames
  functionScopes : ∀ params body, place.functionScopes = some (params, body) →
    params < body ∧ body ≤ current

namespace Inside

/-- The scope of the place represents its frames. -/
theorem represent_scope (inside : Inside place scopes current frames) :
    Scopes.Represent scopes place.scope frames := by
  rw [inside.scope]
  exact inside.represent

/-- A place stays where it is when the scopes up to its own stay as they are. -/
theorem of_keeps {count : Nat} {after : List Scope} (inside : Inside place scopes current frames)
    (keeps : Scopes.Keeps count scopes after) (within : current < count) :
    Inside place after current frames :=
  ⟨inside.scope, inside.represent.of_keeps keeps within, inside.functionScopes⟩

/-- A scope opened below a place is a place in one more frame, which is empty. -/
theorem openScope {state : ScopeState} (inside : Inside place state.scopes current frames) :
    let opened := state.openScope place.scope .block
    Inside { place with scope := some opened.1 } opened.2.scopes opened.1
      (⟨.block, []⟩ :: frames) := by
  refine ⟨rfl, inside.represent_scope.open .block, ?_⟩
  intro params body isFunction
  have placed := inside.functionScopes params body isFunction
  exact ⟨placed.1, Nat.le_of_lt (Nat.lt_of_le_of_lt placed.2 inside.represent.lt_length)⟩

end Inside

/-- The names that may not be declared in a scope, because they would repeat a
parameter. -/
def Hides (place : NamePlace) (scopes : List Scope) (current : ScopeId) (hidden : List String) :
    Prop :=
  ∀ name, repeatsParam place scopes current name = true ↔ name ∈ hidden

/-- The names that may not be declared in a scope depend on scopes in front of
it only. -/
theorem Hides.of_keeps {after : List Scope} (hides : Hides place scopes current hidden)
    (inside : Inside place scopes current frames) (keeps : Scopes.Keeps current scopes after) :
    Hides place after current hidden := by
  intro name
  rw [← hides name, repeatsParam, repeatsParam]
  cases isFunction : place.functionScopes with
  | none => exact Iff.rfl
  | some pair =>
      have placed := inside.functionScopes _ _ isFunction
      have params := keeps.same pair.1 (Nat.lt_of_lt_of_le placed.1 placed.2)
      simp only [Scopes.declares, params]

/-- In a scope opened below the body, every name may be declared. -/
theorem Inside.hides_openScope {state : ScopeState}
    (inside : Inside place state.scopes current frames) :
    let opened := state.openScope place.scope .block
    Hides { place with scope := some opened.1 } opened.2.scopes opened.1 [] := by
  intro opened name
  rw [repeatsParam]
  cases isFunction : place.functionScopes with
  | none => simp
  | some pair =>
      have placed := inside.functionScopes _ _ isFunction
      have below := Nat.lt_of_le_of_lt placed.2 inside.represent.lt_length
      have other : opened.1 ≠ pair.2 := Nat.ne_of_gt below
      simp [other]

/-- A local is declared in the innermost frame, unless its name is hidden
there. -/
theorem inside_declareLocal {state : ScopeState} {info : StmtInfo} {decl : VarDecl}
    (inside : Inside place state.scopes current (frame :: outer))
    (hides : Hides place state.scopes current hidden) :
    let after := (declareLocal place state decl).scopes
    let declared := frame.declared ++ Stmt.declares hidden (.varDecl info decl)
    Inside place after current (⟨frame.kind, declared⟩ :: outer) ∧
      Scopes.Keeps current state.scopes after := by
  simp only [declareLocal, inside.scope, Stmt.declares, Bool.or_eq_true]
  by_cases isHidden : decl.name ∈ hidden
  · rw [if_pos (.inl ((hides decl.name).mpr isHidden)), if_pos isHidden, List.append_nil]
    exact ⟨inside, Scopes.Keeps.refl _ _⟩
  · have free := mt (hides decl.name).mp isHidden
    rw [if_neg isHidden]
    by_cases taken : Scopes.declares state.scopes current decl.name = true
    · rw [if_pos (.inr taken)]
      have again := @Scopes.Represent.repeat _ _ _ _ inside.represent decl.declaration taken
      exact ⟨⟨inside.scope, again, inside.functionScopes⟩, Scopes.Keeps.refl _ _⟩
    · rw [if_neg (not_or.mpr ⟨free, taken⟩)]
      have declared := inside.represent.declare
        ⟨decl.name, decl.ty, some state.nextSlot, decl.nameSpan.start⟩
      exact ⟨⟨inside.scope, declared, inside.functionScopes⟩, Scopes.keeps_declare _ _ _⟩

/-- The initial value of a local is resolved in front of its declaration. -/
theorem resolved_resolveLocal {state : ScopeState} {info : StmtInfo} {decl : VarDecl}
    (inside : Inside place state.scopes current (frame :: outer))
    (hides : Hides place state.scopes current hidden) (written : decl.Written) :
    let resolved := resolveLocal place state decl
    let declared := frame.declared ++ Stmt.declares hidden (.varDecl info decl)
    ResolvedSites place.model (sitesAt place.className (frame :: outer) decl.variableUses)
        (sitesAt place.className (frame :: outer) resolved.value.1.variableUses)
        resolved.findings ∧
      Inside place resolved.value.2.scopes current (⟨frame.kind, declared⟩ :: outer) ∧
      Scopes.Keeps current state.scopes resolved.value.2.scopes := by
  have sites := resolvedSites_resolveDecl inside.represent_scope written
  refine ⟨by simpa [resolveLocal] using sites, ?_⟩
  exact @inside_declareLocal _ _ _ _ _ state info { decl with init := _ } inside hides

@[simp]
theorem declaration_resolveLocal {state : ScopeState} (decl : VarDecl) :
    (resolveLocal place state decl).value.1.declaration = decl.declaration := rfl

/-- Resolution changes nothing of what a statement declares. -/
@[simp]
theorem declares_resolveStmt {state : ScopeState} (stmt : Stmt) :
    Stmt.declares hidden (resolveStmt place state stmt).value.1 = Stmt.declares hidden stmt := by
  cases stmt <;> rw [resolveStmt] <;> rfl

/-- A statement that declares nothing itself has been resolved: its uses are
bound as their sites ask, and the scopes that were there are the same. -/
structure ResolvedStmt (place : NamePlace) (state : ScopeState) (frames : List Frame)
    (stmt : Stmt) : Prop where
  sites : ResolvedSites place.model (stmt.sites place.className frames)
    ((resolveStmt place state stmt).value.1.sites place.className frames)
    (resolveStmt place state stmt).findings
  keeps : Scopes.Keeps state.scopes.length state.scopes
    (resolveStmt place state stmt).value.2.scopes

/-- Statements have been resolved in one scope: their uses are bound as their
sites ask, the innermost frame has their locals, and no scope in front of it
has changed. -/
structure ResolvedStmts (place : NamePlace) (state : ScopeState) (current : ScopeId)
    (outer : List Frame) (hidden : List String) (declared : List LocalDecl)
    (stmts : List Stmt) : Prop where
  sites : ResolvedSites place.model
    (Stmt.sitesOfList place.className outer hidden declared stmts)
    (Stmt.sitesOfList place.className outer hidden declared
      (resolveStmts place state stmts).value.1)
    (resolveStmts place state stmts).findings
  inside : Inside place (resolveStmts place state stmts).value.2.scopes current
    (⟨.block, declared ++ stmts.flatMap (Stmt.declares hidden)⟩ :: outer)
  keeps : Scopes.Keeps current state.scopes (resolveStmts place state stmts).value.2.scopes

section Lists

variable {state : ScopeState} {declared : List LocalDecl} {first : Stmt} {rest : List Stmt}

/-- A statement in a list is a declaration, which changes the scope of the
list, or it changes no scope. -/
theorem resolved_first (inside : Inside place state.scopes current (frame :: outer))
    (hides : Hides place state.scopes current hidden) (written : first.Written)
    (plain : first.isVarDecl = false → ResolvedStmt place state (frame :: outer) first) :
    let resolved := resolveStmt place state first
    ResolvedSites place.model (first.sites place.className (frame :: outer))
        (resolved.value.1.sites place.className (frame :: outer)) resolved.findings ∧
      Inside place resolved.value.2.scopes current
        (⟨frame.kind, frame.declared ++ Stmt.declares hidden first⟩ :: outer) ∧
      Scopes.Keeps current state.scopes resolved.value.2.scopes := by
  cases isDecl : first.isVarDecl with
  | true =>
      cases first with
      | varDecl info decl =>
          simpa [resolveStmt, Stmt.sites] using
            @resolved_resolveLocal _ _ _ _ _ state info decl inside hides written
      | _ => cases isDecl
  | false =>
      have resolved := plain isDecl
      have within := inside.represent.lt_length
      have nothing : Stmt.declares hidden first = [] := by
        cases first with
        | varDecl => cases isDecl
        | _ => rfl
      rw [nothing, List.append_nil]
      exact ⟨resolved.sites, inside.of_keeps resolved.keeps within,
        resolved.keeps.mono (Nat.le_of_lt within)⟩

/-- One statement is resolved in front of others. -/
theorem ResolvedStmts.cons (inside : Inside place state.scopes current (⟨.block, declared⟩ :: outer))
    (hides : Hides place state.scopes current hidden) (written : first.Written)
    (plain : first.isVarDecl = false →
      ResolvedStmt place state (⟨.block, declared⟩ :: outer) first)
    (behind : ∀ after, Inside place after.scopes current
        (⟨.block, declared ++ Stmt.declares hidden first⟩ :: outer) →
      Hides place after.scopes current hidden →
      ResolvedStmts place after current outer hidden (declared ++ Stmt.declares hidden first)
        rest) :
    ResolvedStmts place state current outer hidden declared (first :: rest) := by
  rcases resolved_first inside hides written plain with ⟨sites, between, keeps⟩
  have later := behind _ between (hides.of_keeps inside keeps)
  refine ⟨?_, ?_, ?_⟩
  · simpa [resolveStmts, Stmt.sitesOfList] using sites.append later.sites
  · simpa [resolveStmts] using later.inside
  · simpa [resolveStmts] using keeps.trans later.keeps

end Lists

mutual

/-- A statement that is no declaration is resolved as its place asks. -/
theorem resolved_resolveStmt :
    ∀ (place : NamePlace) (state : ScopeState) (current : ScopeId) (frames : List Frame)
      (stmt : Stmt), Inside place state.scopes current frames → stmt.Written →
      stmt.isVarDecl = false → ResolvedStmt place state frames stmt
  | _, _, _, _, .varDecl .., _, _, plain => by cases plain
  | place, state, _, frames, .assign assignment, inside, written, _ => by
      have sites := resolvedSites_resolveAssignment inside.represent_scope written
      exact ⟨by simpa [resolveStmt, Stmt.sites] using sites, Scopes.Keeps.refl _ _⟩
  | place, state, _, frames, .fieldAssign info receiver used value, inside, written, _ => by
      have front := resolvedSites_resolveExpr inside.represent_scope receiver written.1
      have behind := resolvedSites_resolveExpr inside.represent_scope value written.2.2.2
      have both := (front.before_lacks (lacks_bindField place
        (resolveExpr place state.scopes receiver).value.staticTy? used)).append behind
      exact ⟨by simpa [resolveStmt, Stmt.sites] using both, Scopes.Keeps.refl _ _⟩
  | place, state, _, frames, .call info expr, inside, written, _ => by
      have sites := resolvedSites_resolveExpr inside.represent_scope expr written.1
      exact ⟨by simpa [resolveStmt, Stmt.sites] using sites, Scopes.Keeps.refl _ _⟩
  | place, state, current, frames, .ifThen info condition body, inside, written, _ => by
      have front := resolvedSites_resolveExpr inside.represent_scope condition written.1
      have inner := resolved_resolveStmt place state current frames body inside written.2.1
        written.2.2
      exact ⟨by simpa [resolveStmt, Stmt.sites] using front.append inner.sites,
        by simpa [resolveStmt] using inner.keeps⟩
  | place, state, current, frames, .ifElse info condition body alternative, inside, written,
      _ => by
      have front := resolvedSites_resolveExpr inside.represent_scope condition written.1
      have first := resolved_resolveStmt place state current frames body inside written.2.1
        written.2.2.2.1
      have second := resolved_resolveStmt place _ current frames alternative
        (inside.of_keeps first.keeps inside.represent.lt_length) written.2.2.1
        written.2.2.2.2.1
      have keeps := first.keeps.trans (second.keeps.mono first.keeps.length)
      exact ⟨by simpa [resolveStmt, Stmt.sites] using
          front.append (first.sites.append second.sites),
        by simpa [resolveStmt] using keeps⟩
  | place, state, current, frames, .whileLoop info condition body, inside, written, _ => by
      have front := resolvedSites_resolveExpr inside.represent_scope condition written.1
      have inner := resolved_resolveStmt place state current frames body inside written.2.1
        written.2.2
      exact ⟨by simpa [resolveStmt, Stmt.sites] using front.append inner.sites,
        by simpa [resolveStmt] using inner.keeps⟩
  | place, state, current, frames, .forLoop info init condition update body scope, inside,
      written, _ => by
      -- The head of the loop opens a scope, in which its own local is the first.
      let opened := state.openScope place.scope .block
      let inner : NamePlace := { place with scope := some opened.1 }
      have start := @resolved_resolveLocal inner _ _ _ _ opened.2 info init inside.openScope
        inside.hides_openScope written.1
      simp only [Stmt.declares] at start
      rcases start with ⟨startSites, startInside, startKeeps⟩
      have front := resolvedSites_resolveExpr startInside.represent_scope condition written.2.1
      have change := resolvedSites_resolveAssignment startInside.represent_scope written.2.2.1
      have behind := resolved_resolveStmt inner _ _ _ body startInside written.2.2.2.1
        written.2.2.2.2
      refine ⟨?_, ?_⟩
      · have all := startSites.append ((front.append change).append behind.sites)
        simpa [resolveStmt, Stmt.sites, inner, opened] using all
      · have first := (Scopes.keeps_append state.scopes _).trans startKeeps
        have later := behind.keeps.mono (Nat.le_of_lt startInside.represent.lt_length)
        simpa [resolveStmt] using first.trans later
  | place, state, _, frames, .ret info returned, inside, written, _ => by
      have sites := resolvedSites_resolveReturn inside.represent_scope written
      exact ⟨by simpa [resolveStmt, Stmt.sites] using sites, Scopes.Keeps.refl _ _⟩
  | place, state, current, frames, .block info stmts scope, inside, written, _ => by
      let opened := state.openScope place.scope .block
      have inner := resolved_resolveStmts { place with scope := some opened.1 } opened.2 opened.1
        frames [] [] stmts inside.openScope inside.hides_openScope written
      have keeps := (Scopes.keeps_append state.scopes _).trans inner.keeps
      exact ⟨by simpa [resolveStmt, Stmt.sites] using inner.sites,
        by simpa [resolveStmt] using keeps⟩

/-- Statements in one scope are resolved as their places ask. -/
theorem resolved_resolveStmts :
    ∀ (place : NamePlace) (state : ScopeState) (current : ScopeId) (outer : List Frame)
      (hidden : List String) (declared : List LocalDecl) (stmts : List Stmt),
      Inside place state.scopes current (⟨.block, declared⟩ :: outer) →
      Hides place state.scopes current hidden → Stmt.WrittenList stmts →
      ResolvedStmts place state current outer hidden declared stmts
  | place, state, current, outer, hidden, declared, [], inside, _, _ => by
      refine ⟨ResolvedSites.of_lacks (Reported.lacks_pure ()), ?_, Scopes.Keeps.refl _ _⟩
      rw [List.flatMap_nil, List.append_nil]
      exact inside
  | place, state, current, outer, hidden, declared, first :: rest, inside, hides, written => by
      refine .cons inside hides written.1 ?_ fun after between stillHides => ?_
      · exact resolved_resolveStmt place state current _ first inside written.1
      · exact resolved_resolveStmts place after current outer hidden _ rest between stillHides
          written.2

end

/-- Resolution changes nothing of what statements declare. -/
theorem flatMap_declares_resolveStmts {state : ScopeState} (stmts : List Stmt) :
    (resolveStmts place state stmts).value.1.flatMap (Stmt.declares hidden) =
      stmts.flatMap (Stmt.declares hidden) := by
  induction stmts generalizing state with
  | nil => simp [resolveStmts]
  | cons first rest inductionHypothesis => simp [resolveStmts, inductionHypothesis]

/-! ## Functions -/

/-- The scope of the parameters declares what the parameter list does. -/
theorem represent_declareParams {params : List Param}
    (represent : Scopes.Represent scopes (some current) [⟨.parameters, []⟩]) :
    Scopes.Represent (declareParams scopes current params) (some current)
      [⟨.parameters, params.map Param.declaration⟩] := by
  have declared := represent.foldl_declare <| params.mapIdx fun slot param =>
    ⟨param.name, param.ty, some slot, param.span.start⟩
  have same : (params.mapIdx fun slot param =>
      (⟨param.name, param.ty, some slot, param.span.start⟩ : Variable)).map
        Variable.declaration = (params.zipIdx.map Prod.fst).map Param.declaration := by
    rw [List.mapIdx_eq_zipIdx_map, List.map_map, List.map_map]
    rfl
  rw [same, List.zipIdx_map_fst] at declared
  exact declared

/-- Behind the head of a function, a place in its body stands in the frame of
the parameters, whose names may not be declared there. -/
theorem inside_enterFunction (place : NamePlace) (scopes : List Scope) (decl : FunctionDecl) :
    let entry := enterFunction scopes decl.head.params
    Inside (bodyPlace place entry) entry.state.scopes entry.bodyScope
        [⟨.block, []⟩, decl.paramFrame] ∧
      Hides (bodyPlace place entry) entry.state.scopes entry.bodyScope decl.hidden := by
  intro entry
  have nothing : Scopes.Represent scopes none [] := trivial
  have params : Scopes.Represent (declareParams _ scopes.length decl.head.params)
      (some scopes.length) [decl.paramFrame] := represent_declareParams (nothing.open .parameters)
  refine ⟨⟨rfl, params.open .block, ?_⟩, ?_⟩
  · intro paramScope bodyScope isFunction
    cases isFunction
    exact ⟨params.lt_length, Nat.le_refl _⟩
  · intro name
    have opened := params.of_keeps (Scopes.keeps_append _ [Scope.opened (some scopes.length) .block])
      params.lt_length
    have declares := opened.declares_iff name
    have parameter : (∃ param ∈ decl.paramFrame.declared, param.name = name) ↔
        name ∈ decl.hidden := by
      simp [FunctionDecl.paramFrame, FunctionDecl.hidden, Param.declaration]
    rw [parameter] at declares
    simp only [repeatsParam, bodyPlace, beq_self_eq_true, Bool.true_and]
    exact declares

/-- The variables in a function are bound as their sites ask. -/
theorem resolvedSites_resolveFunction {decl : FunctionDecl} (written : decl.Written) :
    ResolvedSites place.model (decl.sites place.className)
      ((resolveFunction place scopes decl).value.1.sites place.className)
      (resolveFunction place scopes decl).findings := by
  rcases inside_enterFunction place scopes decl with ⟨inside, hides⟩
  have body := resolved_resolveStmts _ _ _ [decl.paramFrame] decl.hidden [] decl.body inside hides
    (Stmt.writtenList_iff.mpr written.body)
  have closing := resolvedSites_mapM_resolveReturn body.inside.represent_scope written.closing
  have all := (body.sites.append closing).after_lacks (lacks_checkHead place decl.head)
  simpa [resolveFunction, bodyPlace, FunctionDecl.sites, FunctionDecl.paramFrame,
    FunctionDecl.bodyFrame, FunctionDecl.hidden, flatMap_declares_resolveStmts] using all

/-- The variables in methods are bound as their sites ask. -/
theorem resolvedSites_resolveMethods (methods : List FunctionDecl) :
    ∀ (scopes : List Scope), (∀ method ∈ methods, method.Written) →
      ResolvedSites place.model (methods.flatMap (FunctionDecl.sites place.className))
        ((resolveMethods place scopes methods).value.1.flatMap
          (FunctionDecl.sites place.className))
        (resolveMethods place scopes methods).findings := by
  induction methods with
  | nil => exact fun _ _ => ResolvedSites.of_lacks (Reported.lacks_pure ())
  | cons first rest inductionHypothesis =>
      intro scopes written
      rw [List.forall_mem_cons] at written
      have front := @resolvedSites_resolveFunction place scopes _ written.1
      have behind := inductionHypothesis (resolveFunction place scopes first).value.2 written.2
      simpa [resolveMethods] using front.append behind

/-- The variables in a class are bound as their sites ask. -/
theorem resolvedSites_resolveClass {model : SymbolModel} {decl : ClassDecl}
    (written : decl.Written) :
    ResolvedSites model (Item.classDecl decl).sites
      (Item.classDecl (resolveClass model scopes decl).value.1).sites
      (resolveClass model scopes decl).findings := by
  let place : NamePlace := { model, className := some decl.name }
  have outside : Scopes.Represent scopes place.scope [] := trivial
  have parent : (decl.parent.mapM (bindParent place)).Lacks Problem.isUndefinedVariable :=
    (Reported.lacks_option_mapM _ _).mpr fun used _ => lacks_bindParent place used
  have uses : (decl.uses.mapM (bindInterface place)).Lacks Problem.isUndefinedVariable :=
    (Reported.lacks_mapM _ _).mpr fun used _ => lacks_bindInterface place used
  have fields := resolvedSites_mapM_resolveDecl outside written.fields
  have methods := @resolvedSites_resolveMethods place decl.methods scopes written.methods
  have all := ((fields.append methods).after_lacks uses).after_lacks parent
  simpa [resolveClass, Item.sites] using all

/-- The variables in a declaration are bound as their sites ask. -/
theorem resolvedSites_resolveItem {model : SymbolModel} {item : Item} (written : item.Written) :
    ResolvedSites model item.sites (resolveItem model scopes item).value.1.sites
      (resolveItem model scopes item).findings := by
  cases item with
  | inclusion decl => exact ResolvedSites.of_lacks (Reported.lacks_pure decl)
  | enumeration decl => exact ResolvedSites.of_lacks (Reported.lacks_pure decl)
  | interface decl =>
      have lacks : (resolveInterface { model } decl).Lacks Problem.isUndefinedVariable := by
        simp [resolveInterface, lacks_bindInterface, lacks_checkHead]
      simpa [resolveItem, Item.sites] using ResolvedSites.of_lacks lacks
  | classDecl decl =>
      simpa [resolveItem] using resolvedSites_resolveClass written
  | function decl =>
      have inside := @resolvedSites_resolveFunction { model } scopes _ written
      simpa [resolveItem, Item.sites] using inside
  | globalVariable decl =>
      have outside : Scopes.Represent scopes none [] := trivial
      have inside := @resolvedSites_resolveDecl { model } scopes [] outside _ written
      simpa [resolveItem, Item.sites] using inside

/-- The variables in declarations are bound as their sites ask. -/
theorem resolvedSites_resolveItems {model : SymbolModel} (items : List Item) :
    ∀ (scopes : List Scope), (∀ item ∈ items, item.Written) →
      ResolvedSites model (items.flatMap Item.sites)
        ((resolveItems model scopes items).value.1.flatMap Item.sites)
        (resolveItems model scopes items).findings := by
  induction items with
  | nil => exact fun _ _ => ResolvedSites.of_lacks (Reported.lacks_pure ())
  | cons first rest inductionHypothesis =>
      intro scopes written
      rw [List.forall_mem_cons] at written
      have front := @resolvedSites_resolveItem scopes model _ written.1
      have behind := inductionHypothesis (resolveItem model scopes first).value.2 written.2
      simpa [resolveItems] using front.append behind

end Resolution

namespace Program

/-- In a file that has been read, every variable in an expression has a site.
The names at all sites, which include the targets of assignments, are bound as
the sites ask.  For each use that stays unbound an error is reported, in the
order of the uses, and no other finding speaks of an undefined variable. -/
theorem resolve_sites {file source : String} {program : Program}
    (accepted : ofSource file source = .ok program) (model : SymbolModel) :
    let resolved := program.resolve model
    (program.nodes.filterMap Expr.variableUse?).Sublist (program.sites.map UseSite.used) ∧
      List.Forall₂ (UseSite.Resolves model) program.sites resolved.value.sites ∧
      resolved.findings.filter (fun finding => finding.problem.isUndefinedVariable) =
        resolved.value.sites.filterMap UseSite.undefined? ∧
      ∀ finding ∈ resolved.value.sites.filterMap UseSite.undefined?,
        finding.problem.isError = true := by
  have items := @Resolution.resolvedSites_resolveItems model program.items program.scopes
    (written_ofSource accepted)
  have all : ResolvedSites model program.sites (program.resolve model).value.sites
      (program.resolve model).findings := by
    simpa [resolve, sites] using items
  refine ⟨program.sublist_sites, all.bound, all.findings, fun finding member => ?_⟩
  rcases List.mem_filterMap.mp member with ⟨site, _, undefined⟩
  unfold UseSite.undefined? at undefined
  split at undefined
  · cases undefined
  · cases undefined
    rfl

/-- Locals that hide others, and two uses of names that stand for nothing. -/
def hidingSource : String :=
  "class Base \x7b int size; \x7d class Box ext Base \x7b fn fill(int by): int \x7b int a = by; " ++
    "for (int i = i; i < a; i = i + 1) \x7b int a = a; size = a; \x7d int by = 3; " ++
    "ret by + missing; \x7d \x7d"

/-- Both of them are reported: the initial value in the head of a loop, which
stands in front of its own declaration, and a name that is declared nowhere. -/
theorem resolve_sites_hidingSource :
    ∃ program, ofSource "box.kn" hidingSource = .ok program ∧
      let model := (SymbolModel.ofPrograms [program]).value
      let resolved := program.resolve model
      program.sites.length = 11 ∧
        List.Forall₂ (UseSite.Resolves model) program.sites resolved.value.sites ∧
        (resolved.value.sites.filterMap UseSite.undefined?).map Finding.problem =
          [.undefinedVariable "i", .undefinedVariable "missing"] := by
  have passes : acceptedWith (fun program =>
      let resolved := program.resolve (SymbolModel.ofPrograms [program]).value
      decide (program.sites.length = 11 ∧
        (resolved.findings.filter fun finding => finding.problem.isUndefinedVariable).map
          Finding.problem = [.undefinedVariable "i", .undefinedVariable "missing"]))
      "box.kn" hidingSource = true :=
    acceptedWith_of_letters (.append (.append .literal .literal) .literal) (by decide +kernel)
  rcases exists_of_acceptedWith passes with ⟨program, accepted, tested⟩
  rcases of_decide_eq_true tested with ⟨count, problems⟩
  rcases resolve_sites accepted (SymbolModel.ofPrograms [program]).value with
    ⟨_, bound, reports, _⟩
  refine ⟨program, accepted, count, bound, ?_⟩
  rw [← reports]
  exact problems

end Program

end KnightFront
