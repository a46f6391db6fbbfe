import KnightFront.Proofs.Resolution.Links

namespace KnightFront

/-!
# Clean resolution of trees

The step from single names to whole trees.  A statement may declare a local,
so besides its names the scopes behind it matter; they hold declared types
again.  At the end stands what clean resolution of all files says: the model
made from them is closed, and each resolved file is linked.
-/

namespace Resolution

open Reported (Lacks)

variable (place : NamePlace) {scopes : List Scope}

mutual

/-- An expression in which nothing is reported is linked. -/
theorem linked_resolveExpr (closed : place.model.Closed)
    (declared : Scopes.Declared place.model scopes) :
    ∀ (expr : Expr), expr.Written → (resolveExpr place scopes expr).Lacks Problem.isError →
      (resolveExpr place scopes expr).value.Linked place.model
  | .int .., _, _ => trivial
  | .string .., _, _ => trivial
  | .bool .., _, _ => trivial
  | .name info used, _, clean => by
      rw [resolveExpr, Reported.lacks_bind] at clean
      exact bound_bindValue closed declared clean.1
  | .binary info op left right, written, clean => by
      simp only [resolveExpr, Reported.lacks_bind] at clean
      rw [Expr.written_binary] at written
      exact ⟨linked_resolveExpr closed declared left written.1 clean.1,
        linked_resolveExpr closed declared right written.2 clean.2.1⟩
  | .call info callee args, written, clean => by
      simp only [resolveExpr, Reported.lacks_bind] at clean
      rw [Expr.written_call] at written
      exact ⟨callable_bindCallee closed clean.2.1,
        linked_resolveExprs closed declared args written.2 clean.1⟩
  | .methodCall info receiver callee args, written, clean => by
      simp only [resolveExpr, Reported.lacks_bind] at clean
      rw [Expr.written_methodCall] at written
      have linked := linked_resolveExpr closed declared receiver written.2.1 clean.1
      refine ⟨linked, linked_resolveExprs closed declared args written.2.2 clean.2.1, ?_⟩
      exact memberOf_bindMethod closed (fun _ => linked.staticTy) written.1.unbound clean.2.2.1
  | .field info receiver used, written, clean => by
      simp only [resolveExpr, Reported.lacks_bind] at clean
      rw [Expr.written_field] at written
      have linked := linked_resolveExpr closed declared receiver written.2 clean.1
      refine ⟨linked, ?_⟩
      exact memberOf_bindField closed (fun _ => linked.staticTy) written.1.unbound clean.2.1
  | .newInstance info className, _, clean => by
      rw [resolveExpr, Reported.lacks_bind] at clean
      exact valued_bindInstance clean.1
  | .newArray info element length, written, clean => by
      rw [resolveExpr, Reported.lacks_bind] at clean
      rw [Expr.written_newArray] at written
      exact linked_resolveExpr closed declared length written clean.1
  | .index info base position, written, clean => by
      simp only [resolveExpr, Reported.lacks_bind] at clean
      rw [Expr.written_index] at written
      exact ⟨linked_resolveExpr closed declared base written.1 clean.1,
        linked_resolveExpr closed declared position written.2 clean.2.1⟩
  | .array info items, written, clean => by
      rw [resolveExpr, Reported.lacks_bind] at clean
      rw [Expr.written_array] at written
      exact linked_resolveExprs closed declared items written clean.1

theorem linked_resolveExprs (closed : place.model.Closed)
    (declared : Scopes.Declared place.model scopes) :
    ∀ (exprs : List Expr), Expr.WrittenList exprs →
      (resolveExprs place scopes exprs).Lacks Problem.isError →
      Expr.LinkedList place.model (resolveExprs place scopes exprs).value
  | [], _, _ => trivial
  | first :: rest, written, clean => by
      simp only [resolveExprs, Reported.lacks_bind] at clean
      rw [Expr.writtenList_cons] at written
      exact ⟨linked_resolveExpr closed declared first written.1 clean.1,
        linked_resolveExprs closed declared rest written.2 clean.2.1⟩

end

/-- An optional expression in which nothing is reported is linked. -/
theorem linked_resolveOptional (closed : place.model.Closed)
    (declared : Scopes.Declared place.model scopes) {optional : Option Expr}
    (written : ∀ expr ∈ optional, expr.Written)
    (clean : (resolveOptional place scopes optional).Lacks Problem.isError) :
    ∀ expr ∈ (resolveOptional place scopes optional).value, expr.Linked place.model := by
  cases optional with
  | none => intro expr member; cases member
  | some expr =>
      rw [resolveOptional, Reported.lacks_bind] at clean
      rintro _ ⟨⟩
      exact linked_resolveExpr place closed declared expr (written expr rfl) clean.1

theorem linked_resolveDecl (closed : place.model.Closed)
    (declared : Scopes.Declared place.model scopes) {decl : VarDecl} (written : decl.Written)
    (clean : (resolveDecl place scopes decl).Lacks Problem.isError) :
    (resolveDecl place scopes decl).value.Linked place.model := by
  simp only [resolveDecl, Reported.lacks_bind] at clean
  refine ⟨declared_of_lacks_checkTy written.ty clean.1, ?_⟩
  refine linked_resolveOptional place closed declared (fun expr member => ?_) clean.2.1
  exact written.exprs expr (Option.mem_toList.mpr member)

theorem linked_resolveAssignment (closed : place.model.Closed)
    (declared : Scopes.Declared place.model scopes) {assignment : Assignment}
    (written : assignment.Written)
    (clean : (resolveAssignment place scopes assignment).Lacks Problem.isError) :
    (resolveAssignment place scopes assignment).value.Linked place.model := by
  simp only [resolveAssignment, Reported.lacks_bind] at clean
  refine ⟨bound_bindValue closed declared clean.1, ?_, ?_⟩
  · refine linked_resolveOptional place closed declared (fun expr member => ?_) clean.2.1
    exact written.exprs expr (List.mem_append_left _ (Option.mem_toList.mpr member))
  · refine linked_resolveExpr place closed declared _ ?_ clean.2.2.1
    exact written.exprs _ (List.mem_append_right _ (List.mem_singleton_self _))

theorem linked_resolveReturn (closed : place.model.Closed)
    (declared : Scopes.Declared place.model scopes) {returned : Return}
    (written : returned.Written)
    (clean : (resolveReturn place scopes returned).Lacks Problem.isError) :
    (resolveReturn place scopes returned).value.Linked place.model := by
  rw [resolveReturn, Reported.lacks_bind] at clean
  refine linked_resolveOptional place closed declared (fun expr member => ?_) clean.1
  exact written expr (Option.mem_toList.mpr member)

/-- A local of a declared type keeps the scopes declared. -/
theorem declared_declareLocal {state : ScopeState}
    (declared : Scopes.Declared place.model state.scopes) {decl : VarDecl}
    (fits : decl.ty.Declared place.model) :
    Scopes.Declared place.model (declareLocal place state decl).scopes := by
  unfold declareLocal
  split
  next => exact declared
  next current _ =>
    split
    · exact declared
    · exact @Scopes.Declared.declare _ _ declared current ⟨_, _, _, _⟩ fits

/-- A clean declaration of a local is linked, and the scopes behind it hold
declared types. -/
theorem linked_resolveLocal {state : ScopeState} (closed : place.model.Closed)
    (declared : Scopes.Declared place.model state.scopes) {decl : VarDecl}
    (written : decl.Written) (clean : (resolveLocal place state decl).Lacks Problem.isError) :
    (resolveLocal place state decl).value.1.Linked place.model ∧
      Scopes.Declared place.model (resolveLocal place state decl).value.2.scopes := by
  rw [resolveLocal, Reported.lacks_bind] at clean
  have linked := linked_resolveDecl place closed declared written clean.1
  exact ⟨linked, declared_declareLocal place declared linked.ty⟩

/-- A call stays one when its names are bound. -/
theorem isCall_resolveExpr {expr : Expr} (isCall : expr.isCall = true) :
    (resolveExpr place scopes expr).value.isCall = true := by
  cases expr with
  | call => rfl
  | methodCall => rfl
  | _ => cases isCall

mutual

/-- A clean statement is linked, and the scopes behind it hold declared types. -/
theorem linked_resolveStmt :
    ∀ (place : NamePlace) (state : ScopeState) (stmt : Stmt), place.model.Closed →
      Scopes.Declared place.model state.scopes → stmt.Written →
      (resolveStmt place state stmt).Lacks Problem.isError →
      (resolveStmt place state stmt).value.1.Linked place.model ∧
        Scopes.Declared place.model (resolveStmt place state stmt).value.2.scopes
  | place, state, .varDecl info decl, closed, declared, written, clean => by
      rw [resolveStmt, Reported.lacks_bind] at clean
      exact linked_resolveLocal place closed declared written clean.1
  | place, state, .assign assignment, closed, declared, written, clean => by
      rw [resolveStmt, Reported.lacks_bind] at clean
      exact ⟨linked_resolveAssignment place closed declared written clean.1, declared⟩
  | place, state, .fieldAssign info receiver used value, closed, declared, written, clean => by
      simp only [resolveStmt, Reported.lacks_bind] at clean
      have linked := linked_resolveExpr place closed declared receiver written.1 clean.1
      have member := memberOf_bindField closed (fun _ => linked.staticTy)
        written.2.2.1.unbound clean.2.1
      have assigned := linked_resolveExpr place closed declared value written.2.2.2 clean.2.2.1
      exact ⟨⟨linked, member, assigned⟩, declared⟩
  | place, state, .call info expr, closed, declared, written, clean => by
      rw [resolveStmt, Reported.lacks_bind] at clean
      have linked := linked_resolveExpr place closed declared expr written.1 clean.1
      exact ⟨⟨linked, isCall_resolveExpr place written.2.1⟩, declared⟩
  | place, state, .ifThen info condition body, closed, declared, written, clean => by
      simp only [resolveStmt, Reported.lacks_bind] at clean
      have linked := linked_resolveExpr place closed declared condition written.1 clean.1
      have inside := linked_resolveStmt place state body closed declared written.2.1 clean.2.1
      exact ⟨⟨linked, inside.1⟩, inside.2⟩
  | place, state, .ifElse info condition body alternative, closed, declared, written, clean => by
      simp only [resolveStmt, Reported.lacks_bind] at clean
      have linked := linked_resolveExpr place closed declared condition written.1 clean.1
      have first := linked_resolveStmt place state body closed declared written.2.1 clean.2.1
      have second := linked_resolveStmt place _ alternative closed first.2 written.2.2.1
        clean.2.2.1
      exact ⟨⟨linked, first.1, second.1⟩, second.2⟩
  | place, state, .whileLoop info condition body, closed, declared, written, clean => by
      simp only [resolveStmt, Reported.lacks_bind] at clean
      have linked := linked_resolveExpr place closed declared condition written.1 clean.1
      have inside := linked_resolveStmt place state body closed declared written.2.1 clean.2.1
      exact ⟨⟨linked, inside.1⟩, inside.2⟩
  | place, state, .forLoop info init condition update body scope, closed, declared, written,
      clean => by
      simp only [resolveStmt, Reported.lacks_bind] at clean
      let inner := { place with scope := some (state.openScope place.scope .block).1 }
      have start := linked_resolveLocal inner closed (declared.openScope place.scope .block)
        written.1 clean.1
      have linked := linked_resolveExpr inner closed start.2 condition written.2.1 clean.2.1
      have changed := linked_resolveAssignment inner closed start.2 written.2.2.1 clean.2.2.1
      have inside := linked_resolveStmt inner _ body closed start.2 written.2.2.2.1
        clean.2.2.2.1
      exact ⟨⟨start.1, linked, changed, inside.1, rfl⟩, inside.2⟩
  | place, state, .ret info returned, closed, declared, written, clean => by
      rw [resolveStmt, Reported.lacks_bind] at clean
      exact ⟨linked_resolveReturn place closed declared written clean.1, declared⟩
  | place, state, .block info stmts scope, closed, declared, written, clean => by
      simp only [resolveStmt, Reported.lacks_bind] at clean
      have inside := linked_resolveStmts
        { place with scope := some (state.openScope place.scope .block).1 } _ stmts closed
        (declared.openScope place.scope .block) written clean.1
      exact ⟨⟨inside.1, rfl⟩, inside.2⟩

theorem linked_resolveStmts :
    ∀ (place : NamePlace) (state : ScopeState) (stmts : List Stmt), place.model.Closed →
      Scopes.Declared place.model state.scopes → Stmt.WrittenList stmts →
      (resolveStmts place state stmts).Lacks Problem.isError →
      Stmt.LinkedList place.model (resolveStmts place state stmts).value.1 ∧
        Scopes.Declared place.model (resolveStmts place state stmts).value.2.scopes
  | _, _, [], _, declared, _, _ => ⟨trivial, declared⟩
  | place, state, first :: rest, closed, declared, written, clean => by
      simp only [resolveStmts, Reported.lacks_bind] at clean
      have front := linked_resolveStmt place state first closed declared written.1 clean.1
      have behind := linked_resolveStmts place _ rest closed front.2 written.2 clean.2.1
      exact ⟨⟨front.1, behind.1⟩, behind.2⟩

end

/-! ## Declarations -/

/-- Parameters of declared types keep the scopes declared. -/
theorem declared_declareParams {known : SymbolModel} (scope : ScopeId) {params : List Param}
    (declared : Scopes.Declared known scopes)
    (fits : ∀ param ∈ params, param.ty.Declared known) :
    Scopes.Declared known (declareParams scopes scope params) := by
  apply declared.foldl_declare
  intro entity member
  rcases List.mem_mapIdx.mp member with ⟨index, inside, same⟩
  subst same
  exact fits _ (List.getElem_mem inside)

/-- The types in a clean head are declared. -/
theorem declared_of_lacks_checkHead {head : FunctionHead} (written : head.Written)
    (clean : (checkHead place head).Lacks Problem.isError) :
    ∀ ty ∈ head.tys, ty.Declared place.model := by
  rw [checkHead, Reported.lacks_bind, List.forM_eq_forM, Reported.lacks_forM] at clean
  rw [FunctionHead.tys, List.forall_mem_cons]
  refine ⟨declared_of_lacks_checkTy written.returnTy clean.2, ?_⟩
  intro ty member
  rcases List.mem_map.mp member with ⟨param, inside, same⟩
  subst same
  exact declared_of_lacks_checkTy (written.params param inside).ty (clean.1 param inside)

/-- Entering a function of declared parameter types keeps the scopes declared. -/
theorem declared_enterFunction {known : SymbolModel} {params : List Param}
    (declared : Scopes.Declared known scopes)
    (fits : ∀ param ∈ params, param.ty.Declared known) :
    Scopes.Declared known (enterFunction scopes params).state.scopes := by
  have opened : Scopes.Declared known (scopes ++ [Scope.opened none .parameters]) :=
    @Scopes.Declared.openScope _ ⟨scopes, params.length⟩ declared none .parameters
  have withParams := declared_declareParams scopes.length opened fits
  exact @Scopes.Declared.openScope _ ⟨_, params.length⟩ withParams _ _

/-- A clean function is linked, and the scopes behind it hold declared types. -/
theorem linked_resolveFunction (closed : place.model.Closed)
    (declared : Scopes.Declared place.model scopes) {decl : FunctionDecl} (written : decl.Written)
    (clean : (resolveFunction place scopes decl).Lacks Problem.isError) :
    (resolveFunction place scopes decl).value.1.Linked place.model ∧
      Scopes.Declared place.model (resolveFunction place scopes decl).value.2 := by
  simp only [resolveFunction, Reported.lacks_bind, Reported.lacks_option_mapM] at clean ⊢
  have tys := declared_of_lacks_checkHead place written.head clean.1
  have start : Scopes.Declared place.model (enterFunction scopes decl.head.params).state.scopes :=
    declared_enterFunction declared fun param member =>
      tys _ (List.mem_cons_of_mem _ (List.mem_map_of_mem member))
  have body := linked_resolveStmts (bodyPlace place _) _ decl.body closed start
    (Stmt.writtenList_iff.mpr written.body) clean.2.1
  refine ⟨⟨tys, body.1, ?_, rfl, rfl⟩, body.2⟩
  intro resolved member
  rw [Reported.value_bind, Reported.value_bind, Reported.value_bind, Reported.value_pure,
    Reported.value_option_mapM] at member
  rcases Option.map_eq_some_iff.mp member with ⟨returned, closing, same⟩
  subst same
  exact linked_resolveReturn (bodyPlace place _) closed body.2 (written.closing returned closing)
    (clean.2.2.1 returned closing)

/-- Clean methods are linked. -/
theorem linked_resolveMethods (closed : place.model.Closed) :
    ∀ (methods : List FunctionDecl) (scopes : List Scope),
      Scopes.Declared place.model scopes → (∀ method ∈ methods, method.Written) →
      (resolveMethods place scopes methods).Lacks Problem.isError →
      (∀ method ∈ (resolveMethods place scopes methods).value.1, method.Linked place.model) ∧
        Scopes.Declared place.model (resolveMethods place scopes methods).value.2 := by
  intro methods
  induction methods with
  | nil => exact fun _ declared _ _ => ⟨nofun, declared⟩
  | cons first rest inductionHypothesis =>
      intro scopes declared written clean
      simp only [resolveMethods, Reported.lacks_bind] at clean
      rw [List.forall_mem_cons] at written
      have front := linked_resolveFunction place closed declared written.1 clean.1
      have behind := inductionHypothesis _ front.2 written.2 clean.2.1
      exact ⟨List.forall_mem_cons.mpr ⟨front.1, behind.1⟩, behind.2⟩

/-- The heads of clean methods are clean. -/
theorem lacks_checkHead_of_resolveMethods (methods : List FunctionDecl) :
    ∀ (scopes : List Scope), (resolveMethods place scopes methods).Lacks Problem.isError →
      ∀ method ∈ methods, (checkHead place method.head).Lacks Problem.isError := by
  induction methods with
  | nil => intro _ _ method member; cases member
  | cons first rest inductionHypothesis =>
      intro scopes clean
      simp only [resolveMethods, resolveFunction, Reported.lacks_bind] at clean
      exact List.forall_mem_cons.mpr ⟨clean.1.1, inductionHypothesis _ clean.2.1⟩

/-- A clean interface is linked. -/
theorem linked_resolveInterface {decl : InterfaceDecl} (written : decl.Written)
    (clean : (resolveInterface place decl).Lacks Problem.isError) :
    (resolveInterface place decl).value.Linked place.model := by
  simp only [resolveInterface, Reported.lacks_bind, Reported.lacks_mapM, List.forM_eq_forM,
    Reported.lacks_forM] at clean
  refine ⟨?_, fun head member =>
    declared_of_lacks_checkHead place (written.methods head member) (clean.2.1 head member)⟩
  intro used member
  simp only [resolveInterface, Reported.value_bind, Reported.value_mapM] at member
  rcases List.mem_map.mp member with ⟨base, inside, same⟩
  subst same
  exact bound_bindInterface (clean.1 base inside)

/-- A clean class is linked, and the scopes behind it hold declared types. -/
theorem linked_resolveClass {model : SymbolModel} (closed : model.Closed)
    (declared : Scopes.Declared model scopes) {decl : ClassDecl} (written : decl.Written)
    (clean : (resolveClass model scopes decl).Lacks Problem.isError) :
    (resolveClass model scopes decl).value.1.Linked model ∧
      Scopes.Declared model (resolveClass model scopes decl).value.2 := by
  let inner : NamePlace := { model, className := some decl.name }
  simp only [resolveClass, Reported.lacks_bind, Reported.lacks_mapM,
    Reported.lacks_option_mapM] at clean
  rcases clean with ⟨parentClean, usesClean, fieldsClean, methodsClean, _⟩
  have methods := linked_resolveMethods inner closed decl.methods scopes declared written.methods
    methodsClean
  refine ⟨⟨?_, ?_, ?_, methods.1⟩, methods.2⟩
  · intro used member
    simp only [resolveClass, Reported.value_bind, Reported.value_option_mapM] at member
    rcases Option.map_eq_some_iff.mp member with ⟨parent, inside, same⟩
    subst same
    exact bound_bindParent (parentClean parent inside)
  · intro used member
    simp only [resolveClass, Reported.value_bind, Reported.value_mapM] at member
    rcases List.mem_map.mp member with ⟨base, inside, same⟩
    subst same
    exact bound_bindInterface (usesClean base inside)
  · intro field member
    simp only [resolveClass, Reported.value_bind, Reported.value_mapM] at member
    rcases List.mem_map.mp member with ⟨plain, inside, same⟩
    subst same
    exact linked_resolveDecl inner closed declared (written.fields plain inside)
      (fieldsClean plain inside)

/-- A clean declaration is linked, and the scopes behind it hold declared
types. -/
theorem linked_resolveItem {model : SymbolModel} (closed : model.Closed)
    (declared : Scopes.Declared model scopes) {item : Item} (written : item.Written)
    (clean : (resolveItem model scopes item).Lacks Problem.isError) :
    (resolveItem model scopes item).value.1.Linked model ∧
      Scopes.Declared model (resolveItem model scopes item).value.2 := by
  cases item with
  | inclusion decl => exact ⟨trivial, declared⟩
  | enumeration decl => exact ⟨trivial, declared⟩
  | interface decl =>
      rw [resolveItem, Reported.lacks_bind] at clean
      exact ⟨linked_resolveInterface { model } written clean.1, declared⟩
  | classDecl decl =>
      rw [resolveItem, Reported.lacks_bind] at clean
      exact linked_resolveClass closed declared written clean.1
  | function decl =>
      rw [resolveItem, Reported.lacks_bind] at clean
      exact linked_resolveFunction { model } closed declared written clean.1
  | globalVariable decl =>
      rw [resolveItem, Reported.lacks_bind] at clean
      exact ⟨linked_resolveDecl { model } closed declared written clean.1, declared⟩

/-- Clean declarations are linked. -/
theorem linked_resolveItems {model : SymbolModel} (closed : model.Closed) :
    ∀ (items : List Item) (scopes : List Scope), Scopes.Declared model scopes →
      (∀ item ∈ items, item.Written) →
      (resolveItems model scopes items).Lacks Problem.isError →
      ∀ item ∈ (resolveItems model scopes items).value.1, item.Linked model := by
  intro items
  induction items with
  | nil => intro _ _ _ _ item member; cases member
  | cons first rest inductionHypothesis =>
      intro scopes declared written clean
      simp only [resolveItems, Reported.lacks_bind] at clean
      rw [List.forall_mem_cons] at written
      have front := linked_resolveItem closed declared written.1 clean.1
      have behind := inductionHypothesis _ front.2 written.2 clean.2.1
      exact List.forall_mem_cons.mpr ⟨front.1, behind⟩

/-- The types that a clean declaration brings into the model are declared. -/
theorem declared_of_lacks_resolveItem {model : SymbolModel} {item : Item} (written : item.Written)
    (clean : (resolveItem model scopes item).Lacks Problem.isError) :
    ∀ ty ∈ item.tys, ty.Declared model := by
  cases item with
  | inclusion => intro ty member; cases member
  | enumeration => intro ty member; cases member
  | interface decl =>
      rw [resolveItem, Reported.lacks_bind] at clean
      have linked := linked_resolveInterface { model } written clean.1
      intro ty member
      rcases List.mem_flatMap.mp member with ⟨head, inside, inHead⟩
      exact linked.tys head inside ty inHead
  | classDecl decl =>
      rw [resolveItem, Reported.lacks_bind] at clean
      have classClean := clean.1
      simp only [resolveClass, Reported.lacks_bind, Reported.lacks_mapM] at classClean
      rcases classClean with ⟨_, _, fieldsClean, methodsClean, _⟩
      intro ty member
      rcases List.mem_append.mp member with inFields | inMethods
      · rcases List.mem_map.mp inFields with ⟨field, inside, same⟩
        subst same
        have fieldClean := fieldsClean field inside
        rw [resolveDecl, Reported.lacks_bind] at fieldClean
        exact declared_of_lacks_checkTy (written.fields field inside).ty fieldClean.1
      · rcases List.mem_flatMap.mp inMethods with ⟨method, inside, inHead⟩
        have headClean := lacks_checkHead_of_resolveMethods _ decl.methods scopes methodsClean
        exact declared_of_lacks_checkHead { model, className := some decl.name }
          (written.methods method inside).head (headClean method inside) ty inHead
  | function decl =>
      rw [resolveItem, Reported.lacks_bind] at clean
      have functionClean := clean.1
      simp only [resolveFunction, Reported.lacks_bind] at functionClean
      exact declared_of_lacks_checkHead { model } written.head functionClean.1
  | globalVariable decl =>
      rw [resolveItem, Reported.lacks_bind] at clean
      have declClean := clean.1
      rw [resolveDecl, Reported.lacks_bind] at declClean
      intro ty member
      cases List.mem_singleton.mp member
      exact declared_of_lacks_checkTy written.ty declClean.1

/-- The types that clean declarations bring into the model are declared. -/
theorem declared_of_lacks_resolveItems {model : SymbolModel} :
    ∀ (items : List Item) (scopes : List Scope), (∀ item ∈ items, item.Written) →
      (resolveItems model scopes items).Lacks Problem.isError →
      ∀ item ∈ items, ∀ ty ∈ item.tys, ty.Declared model := by
  intro items
  induction items with
  | nil => intro _ _ _ item member; cases member
  | cons first rest inductionHypothesis =>
      intro scopes written clean
      simp only [resolveItems, Reported.lacks_bind] at clean
      rw [List.forall_mem_cons] at written
      exact List.forall_mem_cons.mpr
        ⟨declared_of_lacks_resolveItem written.1 clean.1,
          inductionHypothesis _ written.2 clean.2.1⟩

end Resolution

section Files

variable {programs : List Program}

/-- Files that are resolved without error against their own model make that
model closed. -/
theorem SymbolModel.closed_of_lacks_resolve (written : ∀ program ∈ programs, program.Written)
    (clean : (programs.mapM (Program.resolve (ofPrograms programs).value)).Lacks
      Problem.isError) : (ofPrograms programs).value.Closed := by
  apply closed_ofPrograms
  intro program member
  have programClean := (Reported.lacks_mapM _ _).mp clean program member
  rw [Program.resolve, Reported.lacks_bind] at programClean
  exact Resolution.declared_of_lacks_resolveItems _ _ (written program member) programClean.1

/-- Files without scopes of their own that are resolved without error are
linked. -/
theorem Program.linked_of_lacks_resolve {model : SymbolModel} (closed : model.Closed)
    {program : Program} (written : program.Written) (fresh : program.scopes = [])
    (clean : (program.resolve model).Lacks Problem.isError) :
    (program.resolve model).value.Linked model := by
  rw [Program.resolve, Reported.lacks_bind] at clean
  refine Resolution.linked_resolveItems closed program.items program.scopes ?_ written clean.1
  rw [fresh]
  intro scope member
  cases member

end Files

end KnightFront
