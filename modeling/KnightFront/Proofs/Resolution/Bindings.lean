import KnightFront.Proofs.Resolution.Links
import KnightFront.Proofs.Tree.Roles

namespace KnightFront

/-!
# What names are bound to

Resolution binds a name to something that is declared: in the scopes, or in the
symbol model.  So conditions on the types of declared variables and on declared
signatures are met by everything that a resolved tree refers to, whether errors
have been found or not.  Besides, a member is bound only behind a receiver of a
class or interface type.
-/

/-- Conditions on the types of variables and on the signatures of functions. -/
structure BindingRule where
  ofTy : Ty → Prop
  ofSignature : Signature → Prop

variable (rule : BindingRule)

/-- What a binding stands for meets the conditions. -/
def Binding.Meets : Binding → Prop
  | localVariable entity => rule.ofTy entity.ty
  | parameter entity => rule.ofTy entity.ty
  | field _ entity => rule.ofTy entity.ty
  | globalVariable entity => rule.ofTy entity.ty
  | function _ _ signature => rule.ofSignature signature
  | classType _ => True
  | interfaceType _ => True

/-- If a name is bound, it is to something that meets the conditions. -/
def NameUse.Meets (used : NameUse) : Prop := ∀ binding ∈ used.binding, binding.Meets rule

/-- If a member is bound, then behind a receiver of a class or interface type,
and to something that meets the conditions. -/
def NameUse.MeetsBehind (receiver : Expr) (used : NameUse) : Prop :=
  ∀ binding ∈ used.binding,
    binding.Meets rule ∧ ∃ owner, receiver.staticTy? = some (.named owner)

/-- The name in a node itself is bound to what meets the conditions. -/
def Expr.NodeMeets : Expr → Prop
  | name _ used => used.Meets rule
  | call _ callee _ => callee.Meets rule
  | methodCall _ receiver callee _ => callee.MeetsBehind rule receiver
  | field _ receiver used => used.MeetsBehind rule receiver
  | newInstance _ className => className.Meets rule
  | _ => True

/-- Every name in an expression is bound to what meets the conditions. -/
def Expr.Meets (expr : Expr) : Prop := ∀ node ∈ expr.nodes, node.NodeMeets rule

/-- The target of a statement itself is bound to what meets the conditions. -/
def Stmt.TargetMeets : Stmt → Prop
  | assign assignment => assignment.target.Meets rule
  | fieldAssign _ receiver used _ => used.MeetsBehind rule receiver
  | forLoop _ _ _ update _ _ => update.target.Meets rule
  | _ => True

/-- Every name in a statement is bound to what meets the conditions. -/
structure Stmt.Meets (stmt : Stmt) : Prop where
  targets : ∀ inner ∈ stmt.nodes, inner.TargetMeets rule
  exprs : ∀ expr ∈ stmt.exprs, expr.Meets rule

/-- Every name in statements is bound to what meets the conditions. -/
structure Stmt.MeetList (stmts : List Stmt) : Prop where
  targets : ∀ inner ∈ nodesOfList stmts, inner.TargetMeets rule
  exprs : ∀ expr ∈ exprsOfList stmts, expr.Meets rule

/-- Every local that statements themselves declare meets the conditions. -/
def Stmt.LocalsMeet (stmts : List Stmt) : Prop :=
  ∀ stmt ∈ stmts, ∀ decl ∈ stmt.decls, rule.ofTy decl.ty

/-- The parameters and locals of a function meet the conditions. -/
structure FunctionDecl.LocalsMeet (decl : FunctionDecl) : Prop where
  params : ∀ param ∈ decl.head.params, rule.ofTy param.ty
  locals : Stmt.LocalsMeet rule decl.stmts

/-- Every name in a function is bound to what meets the conditions. -/
structure FunctionDecl.Meets (decl : FunctionDecl) : Prop where
  body : Stmt.MeetList rule decl.body
  closing : ∀ returned ∈ decl.closing, ∀ expr ∈ returned.exprs, expr.Meets rule

/-- Every name in a declaration is bound to what meets the conditions. -/
structure Item.Meets (item : Item) : Prop where
  bodies : ∀ decl ∈ item.bodies, decl.Meets rule
  inits : ∀ decl ∈ item.members, ∀ expr ∈ decl.exprs, expr.Meets rule

/-- Everything that a model declares meets the conditions. -/
structure SymbolModel.Meets (model : SymbolModel) : Prop where
  fields : ∀ record ∈ model.classes.entries, ∀ entity ∈ record.fields.entries,
    rule.ofTy entity.ty
  methods : ∀ record ∈ model.classes.entries, ∀ method ∈ record.methods.entries,
    rule.ofSignature method.signature
  interfaceMethods : ∀ record ∈ model.interfaces.entries, ∀ method ∈ record.methods.entries,
    rule.ofSignature method.signature
  functions : ∀ record ∈ model.functions.entries, rule.ofSignature record.signature
  globals : ∀ entity ∈ model.globals.entries, rule.ofTy entity.ty

/-- Every variable in the scopes meets the conditions. -/
def Scopes.Meet (scopes : List Scope) : Prop := Scopes.Each (fun entity => rule.ofTy entity.ty) scopes

variable {rule}

theorem NameUse.meets_of_unbound {used : NameUse} (unbound : used.binding = none) :
    used.Meets rule := by
  rw [Meets, unbound]
  intro binding found
  cases found

theorem NameUse.meetsBehind_of_unbound {receiver : Expr} {used : NameUse}
    (unbound : used.binding = none) : used.MeetsBehind rule receiver := by
  rw [MeetsBehind, unbound]
  intro binding found
  cases found

namespace Resolution

variable {place : NamePlace} {scopes : List Scope} {used : NameUse}

theorem meets_of_offersCallee {model : SymbolModel} (meets : model.Meets rule) {binding : Binding}
    (offers : OffersCallee model binding) : binding.Meets rule := by
  cases offers with
  | method known member => exact meets.methods _ known _ member
  | function known => exact meets.functions _ known

theorem meets_of_offersValue {model : SymbolModel} (meets : model.Meets rule) {binding : Binding}
    (offers : OffersValue model binding) : binding.Meets rule := by
  cases offers with
  | field known member => exact meets.fields _ known _ member
  | globalVariable known => exact meets.globals _ known
  | callee offers => exact meets_of_offersCallee meets offers

theorem meets_findValue? (model : place.model.Meets rule) (meet : Scopes.Meet rule scopes)
    {name : String} {binding : Binding} (found : findValue? place scopes name = some binding) :
    binding.Meets rule := by
  rcases scoped_or_offersValue_of_findValue? found with ⟨scope, entity, kind, lookedUp, rfl⟩ | offers
  · have holds := (meet.lookupWithin _ _ lookedUp).1
    cases kind <;> exact holds
  · exact meets_of_offersValue model offers

/-- A name is bound to what was found, or stays as it was. -/
theorem binding_bindName (found : Option Binding) (problem : Problem) :
    (bindName used found problem).value.binding = found.or used.binding := by
  cases found <;> rfl

/-- A fresh name is bound to nothing but what was found. -/
theorem binding_bindName_of_unbound (unbound : used.binding = none) (found : Option Binding)
    (problem : Problem) : (bindName used found problem).value.binding = found := by
  rw [binding_bindName, unbound, Option.or_none]

theorem meets_bindValue (model : place.model.Meets rule) (meet : Scopes.Meet rule scopes)
    (unbound : used.binding = none) : (bindValue place scopes used).value.Meets rule := by
  rw [NameUse.Meets, bindValue, binding_bindName_of_unbound unbound]
  exact fun binding found => meets_findValue? model meet found

theorem meets_bindCallee (model : place.model.Meets rule) (unbound : used.binding = none) :
    (bindCallee place used).value.Meets rule := by
  rw [NameUse.Meets, bindCallee, binding_bindName_of_unbound unbound]
  exact fun binding found => meets_of_offersCallee model (offersCallee_of_findCallee? found)

theorem meetsBehind_bindMethod (model : place.model.Meets rule) (unbound : used.binding = none)
    (receiver : Expr) :
    (bindMethod place receiver.staticTy? used).value.MeetsBehind rule receiver := by
  cases known : receiver.staticTy? with
  | none => exact NameUse.meetsBehind_of_unbound unbound
  | some ty =>
      cases ty with
      | named owner =>
          simp only [bindMethod]
          split
          · rw [NameUse.MeetsBehind, binding_bindName_of_unbound unbound]
            intro binding found
            rcases Option.map_eq_some_iff.mp found with ⟨⟨declaring, method⟩, lookedUp, rfl⟩
            have present := SymbolModel.exists_of_findMethod? lookedUp
            exact ⟨model.methods _ present.1 _ present.2, owner, known⟩
          · split
            · rw [NameUse.MeetsBehind, binding_bindName_of_unbound unbound]
              intro binding found
              rcases Option.map_eq_some_iff.mp found with ⟨⟨declaring, method⟩, lookedUp, rfl⟩
              have present := SymbolModel.exists_of_findInterfaceMethod? lookedUp
              exact ⟨model.interfaceMethods _ present.1 _ present.2, owner, known⟩
            · exact NameUse.meetsBehind_of_unbound unbound
      | error => exact NameUse.meetsBehind_of_unbound unbound
      | _ => exact NameUse.meetsBehind_of_unbound (binding_bindName_of_unbound unbound none _)

theorem meetsBehind_bindField (model : place.model.Meets rule) (unbound : used.binding = none)
    (receiver : Expr) :
    (bindField place receiver.staticTy? used).value.MeetsBehind rule receiver := by
  cases known : receiver.staticTy? with
  | none => exact NameUse.meetsBehind_of_unbound unbound
  | some ty =>
      cases ty with
      | named owner =>
          simp only [bindField]
          split
          · rw [NameUse.MeetsBehind, binding_bindName_of_unbound unbound]
            intro binding found
            rcases Option.map_eq_some_iff.mp found with ⟨⟨declaring, entity⟩, lookedUp, rfl⟩
            have present := SymbolModel.exists_of_findField? lookedUp
            exact ⟨model.fields _ present.1 _ present.2, owner, known⟩
          · split
            · exact NameUse.meetsBehind_of_unbound (binding_bindName_of_unbound unbound none _)
            · exact NameUse.meetsBehind_of_unbound unbound
      | error => exact NameUse.meetsBehind_of_unbound unbound
      | _ => exact NameUse.meetsBehind_of_unbound (binding_bindName_of_unbound unbound none _)

theorem meets_bindInstance (unbound : used.binding = none) :
    (bindInstance place used).value.Meets rule := by
  unfold bindInstance
  split
  · rintro binding ⟨⟩
    trivial
  · exact NameUse.meets_of_unbound (binding_bindName_of_unbound unbound none _)

/-! ## Expressions -/

variable (place)

mutual

/-- Resolving an expression binds its names to what meets the conditions. -/
theorem meets_resolveExpr (model : place.model.Meets rule) (meet : Scopes.Meet rule scopes) :
    ∀ (expr : Expr), expr.Written → (resolveExpr place scopes expr).value.Meets rule
  | .int .., _ => List.forall_mem_singleton.mpr trivial
  | .string .., _ => List.forall_mem_singleton.mpr trivial
  | .bool .., _ => List.forall_mem_singleton.mpr trivial
  | .name info used, written => by
      rw [Expr.written_name] at written
      exact List.forall_mem_singleton.mpr (meets_bindValue model meet written.unbound)
  | .binary info op left right, written => by
      rw [Expr.written_binary] at written
      exact List.forall_mem_cons.mpr ⟨trivial, List.forall_mem_append.mpr
        ⟨meets_resolveExpr model meet left written.1, meets_resolveExpr model meet right written.2⟩⟩
  | .call info callee args, written => by
      rw [Expr.written_call] at written
      exact List.forall_mem_cons.mpr ⟨meets_bindCallee model written.1.unbound,
        meets_resolveExprs model meet args written.2⟩
  | .methodCall info receiver callee args, written => by
      rw [Expr.written_methodCall] at written
      exact List.forall_mem_cons.mpr ⟨meetsBehind_bindMethod model written.1.unbound _,
        List.forall_mem_append.mpr ⟨meets_resolveExpr model meet receiver written.2.1,
          meets_resolveExprs model meet args written.2.2⟩⟩
  | .field info receiver used, written => by
      rw [Expr.written_field] at written
      exact List.forall_mem_cons.mpr ⟨meetsBehind_bindField model written.1.unbound _,
        meets_resolveExpr model meet receiver written.2⟩
  | .newInstance info className, written => by
      rw [Expr.written_newInstance] at written
      exact List.forall_mem_singleton.mpr (meets_bindInstance written.unbound)
  | .newArray info element length, written => by
      rw [Expr.written_newArray] at written
      exact List.forall_mem_cons.mpr ⟨trivial, meets_resolveExpr model meet length written⟩
  | .index info base position, written => by
      rw [Expr.written_index] at written
      exact List.forall_mem_cons.mpr ⟨trivial, List.forall_mem_append.mpr
        ⟨meets_resolveExpr model meet base written.1,
          meets_resolveExpr model meet position written.2⟩⟩
  | .array info items, written => by
      rw [Expr.written_array] at written
      exact List.forall_mem_cons.mpr ⟨trivial, meets_resolveExprs model meet items written⟩

theorem meets_resolveExprs (model : place.model.Meets rule) (meet : Scopes.Meet rule scopes) :
    ∀ (exprs : List Expr), Expr.WrittenList exprs →
      ∀ node ∈ Expr.nodesOfList (resolveExprs place scopes exprs).value, node.NodeMeets rule
  | [], _ => List.forall_mem_nil _
  | first :: rest, written => by
      rw [Expr.writtenList_cons] at written
      exact List.forall_mem_append.mpr ⟨meets_resolveExpr model meet first written.1,
        meets_resolveExprs model meet rest written.2⟩

end

theorem meets_resolveOptional (model : place.model.Meets rule) (meet : Scopes.Meet rule scopes)
    {optional : Option Expr} (written : ∀ expr ∈ optional, expr.Written) :
    ∀ expr ∈ (resolveOptional place scopes optional).value, expr.Meets rule := by
  cases optional with
  | none => exact nofun
  | some expr =>
      rintro _ ⟨⟩
      exact meets_resolveExpr place model meet expr (written expr rfl)

theorem meets_resolveDecl (model : place.model.Meets rule) (meet : Scopes.Meet rule scopes)
    {decl : VarDecl} (written : decl.Written) :
    ∀ expr ∈ (resolveDecl place scopes decl).value.exprs, expr.Meets rule := by
  intro expr member
  refine meets_resolveOptional place model meet (fun init isInit => ?_) expr (Option.mem_toList.mp member)
  exact written.exprs init (Option.mem_toList.mpr isInit)

theorem meets_resolveAssignment (model : place.model.Meets rule) (meet : Scopes.Meet rule scopes)
    {assignment : Assignment} (written : assignment.Written) :
    (resolveAssignment place scopes assignment).value.target.Meets rule ∧
      ∀ expr ∈ (resolveAssignment place scopes assignment).value.exprs, expr.Meets rule := by
  refine ⟨meets_bindValue model meet written.target.unbound, List.forall_mem_append.mpr ⟨?_, ?_⟩⟩
  · intro expr member
    refine meets_resolveOptional place model meet (fun index isIndex => ?_) expr
      (Option.mem_toList.mp member)
    exact written.exprs index (List.mem_append_left _ (Option.mem_toList.mpr isIndex))
  · exact List.forall_mem_singleton.mpr (meets_resolveExpr place model meet _
      (written.exprs _ (List.mem_append_right _ (List.mem_singleton_self _))))

theorem meets_resolveReturn (model : place.model.Meets rule) (meet : Scopes.Meet rule scopes)
    {returned : Return} (written : returned.Written) :
    ∀ expr ∈ (resolveReturn place scopes returned).value.exprs, expr.Meets rule := by
  intro expr member
  refine meets_resolveOptional place model meet (fun value isValue => ?_) expr (Option.mem_toList.mp member)
  exact written value (Option.mem_toList.mpr isValue)

theorem meet_declareLocal {state : ScopeState} {decl : VarDecl}
    (meet : Scopes.Meet rule state.scopes) (holds : rule.ofTy decl.ty) :
    Scopes.Meet rule (declareLocal place state decl).scopes := by
  unfold declareLocal
  split
  · exact meet
  · split
    · exact meet
    · exact Scopes.Each.declare meet _ holds

mutual

/-- Resolving a statement binds its names to what meets the conditions, if the
locals that it declares meet them. -/
theorem meets_resolveStmt :
    ∀ (place : NamePlace) (state : ScopeState) (stmt : Stmt), place.model.Meets rule →
      Scopes.Meet rule state.scopes → stmt.Written →
      Stmt.LocalsMeet rule (resolveStmt place state stmt).value.1.nodes →
      (resolveStmt place state stmt).value.1.Meets rule ∧
        Scopes.Meet rule (resolveStmt place state stmt).value.2.scopes
  | place, state, .varDecl info decl, model, meet, written, locals => by
      have own : rule.ofTy decl.ty := locals _ List.mem_cons_self
        (resolveDecl place state.scopes decl).value (List.mem_singleton_self _)
      exact ⟨⟨List.forall_mem_singleton.mpr trivial, meets_resolveDecl place model meet written⟩,
        meet_declareLocal place meet own⟩
  | place, state, .assign assignment, model, meet, written, _ => by
      have held := meets_resolveAssignment place model meet written
      exact ⟨⟨List.forall_mem_singleton.mpr held.1, held.2⟩, meet⟩
  | place, state, .fieldAssign info receiver used value, model, meet, written, _ => by
      have member := meetsBehind_bindField model written.2.2.1.unbound
        (resolveExpr place state.scopes receiver).value
      exact ⟨⟨List.forall_mem_singleton.mpr member, List.forall_mem_cons.mpr
        ⟨meets_resolveExpr place model meet receiver written.1,
          List.forall_mem_singleton.mpr (meets_resolveExpr place model meet value written.2.2.2)⟩⟩, meet⟩
  | place, state, .call info expr, model, meet, written, _ =>
      ⟨⟨List.forall_mem_singleton.mpr trivial,
        List.forall_mem_singleton.mpr (meets_resolveExpr place model meet expr written.1)⟩, meet⟩
  | place, state, .ifThen info condition body, model, meet, written, locals => by
      have test := meets_resolveExpr place model meet condition written.1
      have inside := meets_resolveStmt place state body model meet written.2.1
        (List.forall_mem_cons.mp locals).2
      exact ⟨⟨List.forall_mem_cons.mpr ⟨trivial, inside.1.targets⟩,
        List.forall_mem_cons.mpr ⟨test, inside.1.exprs⟩⟩, inside.2⟩
  | place, state, .ifElse info condition body alternative, model, meet, written, locals => by
      have test := meets_resolveExpr place model meet condition written.1
      have inner := List.forall_mem_append.mp (List.forall_mem_cons.mp locals).2
      have first := meets_resolveStmt place state body model meet written.2.1 inner.1
      have second := meets_resolveStmt place _ alternative model first.2 written.2.2.1 inner.2
      exact ⟨⟨List.forall_mem_cons.mpr
        ⟨trivial, List.forall_mem_append.mpr ⟨first.1.targets, second.1.targets⟩⟩,
        List.forall_mem_cons.mpr
          ⟨test, List.forall_mem_append.mpr ⟨first.1.exprs, second.1.exprs⟩⟩⟩, second.2⟩
  | place, state, .whileLoop info condition body, model, meet, written, locals => by
      have test := meets_resolveExpr place model meet condition written.1
      have inside := meets_resolveStmt place state body model meet written.2.1
        (List.forall_mem_cons.mp locals).2
      exact ⟨⟨List.forall_mem_cons.mpr ⟨trivial, inside.1.targets⟩,
        List.forall_mem_cons.mpr ⟨test, inside.1.exprs⟩⟩, inside.2⟩
  | place, state, .forLoop info init condition update body scope, model, meet, written, locals => by
      let inner := { place with scope := some (state.openScope place.scope .block).1 }
      have opened : Scopes.Meet rule (state.openScope place.scope .block).2.scopes :=
        Scopes.Each.openScope meet place.scope .block
      have own : rule.ofTy init.ty := (List.forall_mem_cons.mp locals).1
        (resolveDecl inner (state.openScope place.scope .block).2.scopes init).value
        (List.mem_singleton_self _)
      have start := meets_resolveDecl inner model opened written.1
      have behind := meet_declareLocal inner opened own
      have test := meets_resolveExpr inner model behind condition written.2.1
      have changed := meets_resolveAssignment inner model behind written.2.2.1
      have inside := meets_resolveStmt inner _ body model behind written.2.2.2.1
        (List.forall_mem_cons.mp locals).2
      exact ⟨⟨List.forall_mem_cons.mpr ⟨changed.1, inside.1.targets⟩,
        List.forall_mem_append.mpr ⟨start, List.forall_mem_cons.mpr
          ⟨test, List.forall_mem_append.mpr ⟨changed.2, inside.1.exprs⟩⟩⟩⟩, inside.2⟩
  | place, state, .ret info returned, model, meet, written, _ =>
      ⟨⟨List.forall_mem_singleton.mpr trivial, meets_resolveReturn place model meet written⟩, meet⟩
  | place, state, .block info stmts scope, model, meet, written, locals => by
      have inside := meets_resolveStmts
        { place with scope := some (state.openScope place.scope .block).1 } _ stmts model
        (Scopes.Each.openScope meet place.scope .block) written (List.forall_mem_cons.mp locals).2
      exact ⟨⟨List.forall_mem_cons.mpr ⟨trivial, inside.1.targets⟩, inside.1.exprs⟩, inside.2⟩

theorem meets_resolveStmts :
    ∀ (place : NamePlace) (state : ScopeState) (stmts : List Stmt), place.model.Meets rule →
      Scopes.Meet rule state.scopes → Stmt.WrittenList stmts →
      Stmt.LocalsMeet rule (Stmt.nodesOfList (resolveStmts place state stmts).value.1) →
      Stmt.MeetList rule (resolveStmts place state stmts).value.1 ∧
        Scopes.Meet rule (resolveStmts place state stmts).value.2.scopes
  | _, _, [], _, meet, _, _ => ⟨⟨List.forall_mem_nil _, List.forall_mem_nil _⟩, meet⟩
  | place, state, first :: rest, model, meet, written, locals => by
      have parts := List.forall_mem_append.mp locals
      have front := meets_resolveStmt place state first model meet written.1 parts.1
      have behind := meets_resolveStmts place _ rest model front.2 written.2 parts.2
      exact ⟨⟨List.forall_mem_append.mpr ⟨front.1.targets, behind.1.targets⟩,
        List.forall_mem_append.mpr ⟨front.1.exprs, behind.1.exprs⟩⟩, behind.2⟩

end

/-- Entering a function declares its parameters. -/
theorem meet_enterFunction (params : List Param) (meet : Scopes.Meet rule scopes)
    (holds : ∀ param ∈ params, rule.ofTy param.ty) :
    Scopes.Meet rule (enterFunction scopes params).state.scopes := by
  have opened : Scopes.Meet rule (scopes ++ [Scope.opened none .parameters]) :=
    @Scopes.Each.openScope _ ⟨scopes, params.length⟩ meet none .parameters
  have declared : Scopes.Meet rule
      (declareParams (scopes ++ [Scope.opened none .parameters]) scopes.length params) := by
    refine Scopes.Each.foldl_declare _ _ opened fun entity member => ?_
    rcases List.mem_mapIdx.mp member with ⟨index, inside, rfl⟩
    exact holds _ (List.getElem_mem inside)
  exact @Scopes.Each.openScope _ ⟨_, params.length⟩ declared _ _

theorem meets_resolveFunction (model : place.model.Meets rule) (meet : Scopes.Meet rule scopes)
    {decl : FunctionDecl} (written : decl.Written)
    (locals : (resolveFunction place scopes decl).value.1.LocalsMeet rule) :
    (resolveFunction place scopes decl).value.1.Meets rule ∧
      Scopes.Meet rule (resolveFunction place scopes decl).value.2 := by
  have start := meet_enterFunction decl.head.params meet locals.params
  have body := meets_resolveStmts (bodyPlace place (enterFunction scopes decl.head.params)) _
    decl.body model start (Stmt.writtenList_iff.mpr written.body) locals.locals
  refine ⟨⟨body.1, fun returned member => ?_⟩, body.2⟩
  simp only [resolveFunction, Reported.value_bind, Reported.value_pure,
    Reported.value_option_mapM] at member
  rcases Option.map_eq_some_iff.mp member with ⟨plain, closing, rfl⟩
  exact meets_resolveReturn (bodyPlace place _) model body.2
    (written.closing plain closing)

theorem meets_resolveMethods (model : place.model.Meets rule) :
    ∀ (methods : List FunctionDecl) (scopes : List Scope), Scopes.Meet rule scopes →
      (∀ method ∈ methods, method.Written) →
      (∀ method ∈ (resolveMethods place scopes methods).value.1, method.LocalsMeet rule) →
      (∀ method ∈ (resolveMethods place scopes methods).value.1, method.Meets rule) ∧
        Scopes.Meet rule (resolveMethods place scopes methods).value.2
  | [], _, meet, _, _ => ⟨List.forall_mem_nil _, meet⟩
  | first :: rest, scopes, meet, written, locals => by
      rw [List.forall_mem_cons] at written
      have parts := List.forall_mem_cons.mp locals
      have front := meets_resolveFunction place model meet written.1 parts.1
      have behind := meets_resolveMethods model rest _ front.2 written.2 parts.2
      exact ⟨List.forall_mem_cons.mpr ⟨front.1, behind.1⟩, behind.2⟩

theorem meets_resolveItem {model : SymbolModel} (meets : model.Meets rule)
    (meet : Scopes.Meet rule scopes) {item : Item} (written : item.Written)
    (locals : ∀ decl ∈ (resolveItem model scopes item).value.1.bodies, decl.LocalsMeet rule) :
    (resolveItem model scopes item).value.1.Meets rule ∧
      Scopes.Meet rule (resolveItem model scopes item).value.2 := by
  cases item with
  | inclusion decl => exact ⟨⟨List.forall_mem_nil _, List.forall_mem_nil _⟩, meet⟩
  | enumeration decl => exact ⟨⟨List.forall_mem_nil _, List.forall_mem_nil _⟩, meet⟩
  | interface decl => exact ⟨⟨List.forall_mem_nil _, List.forall_mem_nil _⟩, meet⟩
  | classDecl decl =>
      have methods := meets_resolveMethods { model, className := some decl.name } meets
        decl.methods scopes meet written.methods locals
      refine ⟨⟨methods.1, fun field member => ?_⟩, methods.2⟩
      simp only [resolveItem, resolveClass, Reported.value_bind, Reported.value_pure,
        Item.members, Reported.value_mapM] at member
      rcases List.mem_map.mp member with ⟨plain, inside, rfl⟩
      exact meets_resolveDecl { model, className := some decl.name } meets meet
        (written.fields plain inside)
  | function decl =>
      have held := meets_resolveFunction { model } meets meet written
        (locals _ (List.mem_singleton_self _))
      exact ⟨⟨List.forall_mem_singleton.mpr held.1, List.forall_mem_nil _⟩, held.2⟩
  | globalVariable decl =>
      have held := meets_resolveDecl { model } meets meet written
      exact ⟨⟨List.forall_mem_nil _, List.forall_mem_singleton.mpr held⟩, meet⟩

theorem meets_resolveItems {model : SymbolModel} (meets : model.Meets rule) :
    ∀ (items : List Item) (scopes : List Scope), Scopes.Meet rule scopes →
      (∀ item ∈ items, item.Written) →
      (∀ item ∈ (resolveItems model scopes items).value.1, ∀ decl ∈ item.bodies,
        decl.LocalsMeet rule) →
      ∀ item ∈ (resolveItems model scopes items).value.1, item.Meets rule
  | [], _, _, _, _ => List.forall_mem_nil _
  | first :: rest, scopes, meet, written, locals => by
      rw [List.forall_mem_cons] at written
      have parts := List.forall_mem_cons.mp locals
      have front := meets_resolveItem meets meet written.1 parts.1
      exact List.forall_mem_cons.mpr
        ⟨front.1, meets_resolveItems meets rest _ front.2 written.2 parts.2⟩

end Resolution

/-- Every name in a resolved file is bound to what meets the conditions, if all
that the model and the file declare meets them. -/
theorem Program.meets_resolve {model : SymbolModel} {program : Program} (meets : model.Meets rule)
    (written : program.Written) (fresh : program.scopes = [])
    (locals : ∀ decl ∈ (program.resolve model).value.bodies, decl.LocalsMeet rule) :
    ∀ item ∈ (program.resolve model).value.items, item.Meets rule := by
  have none : Scopes.Meet rule program.scopes := by
    rw [fresh]
    exact nofun
  refine Resolution.meets_resolveItems meets program.items program.scopes none written
    fun item member decl inside => ?_
  exact locals decl (List.mem_flatMap.mpr ⟨item, member, inside⟩)

end KnightFront
