import KnightFront.Proofs.Tree.Traversal
import KnightFront.Proofs.Typing.Decides

namespace KnightFront

/-!
# Accepted programs are fully annotated

Trees that can be handed on for code generation have all of their room filled
in.  Three passes share the work: resolution binds the names and opens the
scopes, typing records the types, and where one of them stays silent about a
name or an expression, some other part of the program has been reported.  So
no room stays empty unless an error has been found.
-/

/-- A file in which every expression has a type that can stand in a program,
every used name refers to something, and every construct that opens a scope
knows it. -/
structure Program.Annotated (program : Program) : Prop where
  types : ∀ node ∈ program.nodes, ∃ ty, node.ty = some ty ∧ ty ≠ .error ∧ ty ≠ .function
  names : ∀ used ∈ program.nameUses, ∃ binding, used.binding = some binding
  scopes : ∀ slot ∈ program.scopeSlots, ∃ scope, slot = some scope

variable {model : SymbolModel}

namespace Expr

/-- No operator takes functions. -/
private theorem ne_function_of_operatorHasTy {op : BinaryOp} {left right ty : Ty}
    (applies : op.HasTy model left right ty) : left ≠ .function ∧ right ≠ .function := by
  cases applies with
  | equality _ fits => cases fits <;> exact ⟨Ty.noConfusion, Ty.noConfusion⟩
  | _ => exact ⟨Ty.noConfusion, Ty.noConfusion⟩

/-- No call of declared parameters takes functions. -/
private theorem ne_function_of_accepts {callee : NameUse} {signature : Signature} {args : List Ty}
    (callable : callee.Callable model) (calls : callee.Calls signature)
    (accepts : signature.Accepts model args) : ∀ ty ∈ args, ty ≠ .function := by
  rcases callable with ⟨declaredSignature, bound, declared⟩
  have same := Option.some.inj (bound.symm.trans calls)
  subst same
  rintro _ member rfl
  rcases exists_of_mem_forall₂ accepts member with ⟨expected, inside, fits⟩
  exact fits.declared (declared.parameters expected inside) (Or.inr rfl)

/-- Expressions of types other than that of functions have values. -/
private theorem valued_of_haveTys : ∀ {exprs : List Expr} {tys : List Ty},
    LinkedList model exprs → HaveTys model exprs tys → (∀ ty ∈ tys, ty ≠ .function) →
    ∀ expr ∈ exprs, expr.Valued model
  | _, _, _, .nil, _ => List.forall_mem_nil _
  | _, _, linked, .cons firstTyped restTyped, plain => by
      rw [List.forall_mem_cons] at plain
      exact List.forall_mem_cons.mpr ⟨firstTyped.valued_of_ne_function linked.1 plain.1,
        valued_of_haveTys linked.2 restTyped plain.2⟩

mutual

/-- In an expression with a value, every node has a value. -/
theorem Valued.nodes : ∀ (expr : Expr), expr.Valued model → ∀ node ∈ expr.nodes, node.Valued model
  | .int .., valued => List.forall_mem_singleton.mpr valued
  | .string .., valued => List.forall_mem_singleton.mpr valued
  | .bool .., valued => List.forall_mem_singleton.mpr valued
  | .name .., valued => List.forall_mem_singleton.mpr valued
  | .binary info op left right, valued => by
      rcases valued.typed with ⟨ty, typed, _⟩
      cases typed with
      | binary leftTyped rightTyped applies =>
          have plain := ne_function_of_operatorHasTy applies
          exact List.forall_mem_cons.mpr ⟨valued, List.forall_mem_append.mpr
            ⟨Valued.nodes left (leftTyped.valued_of_ne_function valued.linked.1 plain.1),
              Valued.nodes right (rightTyped.valued_of_ne_function valued.linked.2 plain.2)⟩⟩
  | .call info callee args, valued => by
      rcases valued.typed with ⟨ty, typed, _⟩
      cases typed with
      | call calls argsTyped accepts =>
          exact List.forall_mem_cons.mpr ⟨valued,
            Valued.nodesOfList args (valued_of_haveTys valued.linked.2 argsTyped
              (ne_function_of_accepts valued.linked.1 calls accepts))⟩
  | .methodCall info receiver callee args, valued => by
      rcases valued.typed with ⟨ty, typed, _⟩
      rcases valued.linked with ⟨receiverLinked, argsLinked, member⟩
      cases typed with
      | methodCall receiverTyped calls argsTyped accepts =>
          have callable := (member.linked _ (staticTy?_of_hasTy receiverTyped)).2
          exact List.forall_mem_cons.mpr ⟨valued, List.forall_mem_append.mpr
            ⟨Valued.nodes receiver (member.valued receiverLinked receiverTyped),
              Valued.nodesOfList args (valued_of_haveTys argsLinked argsTyped
                (ne_function_of_accepts callable calls accepts))⟩⟩
  | .field info receiver used, valued => by
      rcases valued.typed with ⟨ty, typed, _⟩
      cases typed with
      | field receiverTyped bound =>
          exact List.forall_mem_cons.mpr ⟨valued,
            Valued.nodes receiver (valued.linked.2.valued valued.linked.1 receiverTyped)⟩
  | .newInstance .., valued => List.forall_mem_singleton.mpr valued
  | .newArray info element length, valued => by
      rcases valued.typed with ⟨ty, typed, _⟩
      cases typed with
      | newArray lengthTyped =>
          exact List.forall_mem_cons.mpr ⟨valued,
            Valued.nodes length (lengthTyped.valued valued.linked trivial)⟩
  | .index info base position, valued => by
      rcases valued.typed with ⟨ty, typed, _⟩
      cases typed with
      | index baseTyped positionTyped =>
          exact List.forall_mem_cons.mpr ⟨valued, List.forall_mem_append.mpr
            ⟨Valued.nodes base (baseTyped.valued valued.linked.1 trivial),
              Valued.nodes position (positionTyped.valued valued.linked.2 trivial)⟩⟩
  | .array info [], valued => List.forall_mem_singleton.mpr valued
  | .array info (first :: rest), valued => by
      rcases valued.typed with ⟨ty, typed, _⟩
      cases typed with
      | @array _ _ _ element firstTyped restTyped =>
          have plain : element.ty ≠ .function := by cases element <;> exact nofun
          refine List.forall_mem_cons.mpr ⟨valued, List.forall_mem_append.mpr
            ⟨Valued.nodes first (firstTyped.valued_of_ne_function valued.linked.1 plain),
              Valued.nodesOfList rest (valued_of_haveTys valued.linked.2 restTyped ?_)⟩⟩
          exact fun ty member => List.eq_of_mem_replicate member ▸ plain

theorem Valued.nodesOfList : ∀ (exprs : List Expr), (∀ expr ∈ exprs, expr.Valued model) →
    ∀ node ∈ nodesOfList exprs, node.Valued model
  | [], _ => nofun
  | first :: rest, valued =>
      List.forall_mem_append.mpr ⟨Valued.nodes first (valued first List.mem_cons_self),
        Valued.nodesOfList rest fun expr later => valued expr (List.mem_cons_of_mem _ later)⟩

end

/-- In an expression with a value, the name used in a node refers to
something. -/
theorem Valued.bound {expr : Expr} (valued : expr.Valued model) {used : NameUse}
    (uses : expr.nameUse? = some used) : ∃ binding, used.binding = some binding := by
  rcases valued.typed with ⟨ty, typed, _⟩
  cases typed with
  | name bound => cases uses; exact ⟨_, bound⟩
  | call calls =>
      cases uses
      rcases Option.bind_eq_some_iff.mp calls with ⟨binding, bound, _⟩
      exact ⟨binding, bound⟩
  | methodCall _ calls =>
      cases uses
      rcases Option.bind_eq_some_iff.mp calls with ⟨binding, bound, _⟩
      exact ⟨binding, bound⟩
  | field _ bound => cases uses; exact ⟨_, bound⟩
  | newInstance bound => cases uses; exact ⟨_, bound⟩
  | _ => cases uses

end Expr

namespace Stmt

mutual

/-- What is inside a linked statement is linked. -/
theorem Linked.nodes : ∀ (stmt : Stmt), stmt.Linked model → ∀ node ∈ stmt.nodes, node.Linked model
  | .varDecl .., linked => List.forall_mem_singleton.mpr linked
  | .assign .., linked => List.forall_mem_singleton.mpr linked
  | .fieldAssign .., linked => List.forall_mem_singleton.mpr linked
  | .call .., linked => List.forall_mem_singleton.mpr linked
  | .ifThen _ _ body, linked => List.forall_mem_cons.mpr ⟨linked, Linked.nodes body linked.2⟩
  | .ifElse _ _ body alternative, linked => List.forall_mem_cons.mpr ⟨linked,
      List.forall_mem_append.mpr
        ⟨Linked.nodes body linked.2.1, Linked.nodes alternative linked.2.2⟩⟩
  | .whileLoop _ _ body, linked => List.forall_mem_cons.mpr ⟨linked, Linked.nodes body linked.2⟩
  | .forLoop _ _ _ _ body _, linked =>
      List.forall_mem_cons.mpr ⟨linked, Linked.nodes body linked.2.2.2.1⟩
  | .ret .., linked => List.forall_mem_singleton.mpr linked
  | .block _ stmts _, linked =>
      List.forall_mem_cons.mpr ⟨linked, LinkedList.nodes stmts linked.1⟩

theorem LinkedList.nodes : ∀ (stmts : List Stmt), LinkedList model stmts →
    ∀ node ∈ nodesOfList stmts, node.Linked model
  | [], _ => nofun
  | first :: rest, linked => List.forall_mem_append.mpr
      ⟨Linked.nodes first linked.1, LinkedList.nodes rest linked.2⟩

end

mutual

/-- What is inside a well typed statement is well typed. -/
theorem WellTyped.nodes {returnTy : Ty} : ∀ (stmt : Stmt), stmt.WellTyped model returnTy →
    ∀ node ∈ stmt.nodes, node.WellTyped model returnTy
  | .varDecl .., typed => List.forall_mem_singleton.mpr typed
  | .assign .., typed => List.forall_mem_singleton.mpr typed
  | .fieldAssign .., typed => List.forall_mem_singleton.mpr typed
  | .call .., typed => List.forall_mem_singleton.mpr typed
  | .ifThen _ _ body, typed => List.forall_mem_cons.mpr ⟨typed, WellTyped.nodes body typed.2⟩
  | .ifElse _ _ body alternative, typed => List.forall_mem_cons.mpr ⟨typed,
      List.forall_mem_append.mpr
        ⟨WellTyped.nodes body typed.2.1, WellTyped.nodes alternative typed.2.2⟩⟩
  | .whileLoop _ _ body, typed => List.forall_mem_cons.mpr ⟨typed, WellTyped.nodes body typed.2⟩
  | .forLoop _ _ _ _ body _, typed =>
      List.forall_mem_cons.mpr ⟨typed, WellTyped.nodes body typed.2.2.2⟩
  | .ret .., typed => List.forall_mem_singleton.mpr typed
  | .block _ stmts _, typed =>
      List.forall_mem_cons.mpr ⟨typed, WellTypedList.nodes stmts typed⟩

theorem WellTypedList.nodes {returnTy : Ty} : ∀ (stmts : List Stmt),
    WellTypedList model returnTy stmts → ∀ node ∈ nodesOfList stmts, node.WellTyped model returnTy
  | [], _ => nofun
  | first :: rest, typed => List.forall_mem_append.mpr
      ⟨WellTyped.nodes first typed.1, WellTypedList.nodes rest typed.2⟩

end

/-- The target of an assignment refers to something. -/
private theorem bound_of_assigns {used : NameUse} {entity : Variable}
    (assigns : used.Assigns entity) : ∃ binding, used.binding = some binding := by
  rcases Option.bind_eq_some_iff.mp assigns with ⟨binding, bound, _⟩
  exact ⟨binding, bound⟩

/-- The targets of a well typed statement refer to something. -/
theorem WellTyped.bound {stmt : Stmt} {returnTy : Ty} (typed : stmt.WellTyped model returnTy) :
    ∀ used ∈ stmt.targets, ∃ binding, used.binding = some binding := by
  cases stmt with
  | assign assignment =>
      rcases typed with ⟨entity, assigns, _⟩
      exact List.forall_mem_singleton.mpr (bound_of_assigns assigns)
  | fieldAssign info receiver used value =>
      rcases typed with ⟨_, entity, assigns, _⟩
      exact List.forall_mem_singleton.mpr (bound_of_assigns assigns)
  | forLoop info init condition update body scope =>
      rcases typed with ⟨_, _, ⟨entity, assigns, _⟩, _⟩
      exact List.forall_mem_singleton.mpr (bound_of_assigns assigns)
  | _ => exact List.forall_mem_nil _

/-- A linked statement knows the scope that it opens. -/
theorem Linked.scoped {stmt : Stmt} (linked : stmt.Linked model) :
    ∀ slot ∈ stmt.scopeSlots, ∃ scope, slot = some scope := by
  cases stmt with
  | forLoop info init condition update body scope =>
      exact List.forall_mem_singleton.mpr (Option.isSome_iff_exists.mp linked.2.2.2.2)
  | block info stmts scope =>
      exact List.forall_mem_singleton.mpr (Option.isSome_iff_exists.mp linked.2)
  | _ => exact List.forall_mem_nil _

end Stmt

/-! ## Checking fills no other room -/

namespace Typing

mutual

/-- Checking an expression keeps the names in it. -/
theorem nameUses_checked : ∀ (expr : Expr),
    (expr.checked model).nodes.map Expr.nameUse? = expr.nodes.map Expr.nameUse?
  | .int .. => rfl
  | .string .. => rfl
  | .bool .. => rfl
  | .name .. => rfl
  | .binary info op left right => by
      have leftKept := nameUses_checked left
      have rightKept := nameUses_checked right
      simp only [Expr.checked] at leftKept rightKept ⊢
      simp [checkExpr, Expr.nodes, Expr.nameUse?, leftKept, rightKept]
  | .call info callee args => by
      have argsKept := nameUses_checkExprs args
      simp only [Expr.checked]
      simp [checkExpr, Expr.nodes, Expr.nameUse?, argsKept]
  | .methodCall info receiver callee args => by
      have receiverKept := nameUses_checked receiver
      have argsKept := nameUses_checkExprs args
      simp only [Expr.checked] at receiverKept ⊢
      simp [checkExpr, Expr.nodes, Expr.nameUse?, receiverKept, argsKept]
  | .field info receiver used => by
      have receiverKept := nameUses_checked receiver
      simp only [Expr.checked] at receiverKept ⊢
      simp [checkExpr, Expr.nodes, Expr.nameUse?, receiverKept]
  | .newInstance .. => rfl
  | .newArray info element length => by
      have lengthKept := nameUses_checked length
      simp only [Expr.checked] at lengthKept ⊢
      simp [checkExpr, Expr.nodes, Expr.nameUse?, lengthKept]
  | .index info base position => by
      have baseKept := nameUses_checked base
      have positionKept := nameUses_checked position
      simp only [Expr.checked] at baseKept positionKept ⊢
      simp [checkExpr, Expr.nodes, Expr.nameUse?, baseKept, positionKept]
  | .array info items => by
      have itemsKept := nameUses_checkExprs items
      simp only [Expr.checked]
      simp [checkExpr, Expr.nodes, Expr.nameUse?, itemsKept]

theorem nameUses_checkExprs : ∀ (exprs : List Expr),
    (Expr.nodesOfList (checkExprs model exprs).value.1).map Expr.nameUse? =
      (Expr.nodesOfList exprs).map Expr.nameUse?
  | [] => rfl
  | first :: rest => by
      have firstKept := nameUses_checked first
      have restKept := nameUses_checkExprs rest
      simp only [Expr.checked] at firstKept
      simp [checkExprs, Expr.nodesOfList, firstKept, restKept]

end

/-- The names that a statement assigns to, and the room for its scope. -/
def ownSlots (stmt : Stmt) : List NameUse × List (Option ScopeId) :=
  (stmt.targets, stmt.scopeSlots)

theorem target_checkAssignment (assignment : Assignment) :
    (checkAssignment model assignment).value.target = assignment.target := by
  unfold checkAssignment
  cases assignment.index <;> rfl

mutual

/-- Checking a statement keeps its targets and the scopes that it opens. -/
theorem ownSlots_checkStmt (place : TypingPlace) : ∀ (stmt : Stmt),
    (checkStmt place stmt).value.nodes.map ownSlots = stmt.nodes.map ownSlots
  | .varDecl .. => rfl
  | .assign assignment => by
      simp [checkStmt, Stmt.nodes, ownSlots, Stmt.targets, Stmt.scopeSlots, target_checkAssignment]
  | .fieldAssign .. => rfl
  | .call .. => rfl
  | .ifThen info condition body => by
      simp [checkStmt, Stmt.nodes, ownSlots_checkStmt place body, ownSlots, Stmt.targets,
        Stmt.scopeSlots]
  | .ifElse info condition body alternative => by
      simp [checkStmt, Stmt.nodes, ownSlots_checkStmt place body,
        ownSlots_checkStmt place alternative, ownSlots, Stmt.targets, Stmt.scopeSlots]
  | .whileLoop info condition body => by
      simp [checkStmt, Stmt.nodes, ownSlots_checkStmt place body, ownSlots, Stmt.targets,
        Stmt.scopeSlots]
  | .forLoop info init condition update body scope => by
      simp [checkStmt, Stmt.nodes, ownSlots_checkStmt place body, ownSlots, Stmt.targets,
        Stmt.scopeSlots, target_checkAssignment]
  | .ret .. => rfl
  | .block info stmts scope => by
      simp [checkStmt, Stmt.nodes, ownSlots_checkStmts place stmts, ownSlots, Stmt.targets,
        Stmt.scopeSlots]

theorem ownSlots_checkStmts (place : TypingPlace) : ∀ (stmts : List Stmt),
    (Stmt.nodesOfList (checkStmts place stmts).value).map ownSlots =
      (Stmt.nodesOfList stmts).map ownSlots
  | [] => rfl
  | first :: rest => by
      simp [checkStmts, Stmt.nodesOfList, ownSlots_checkStmt place first,
        ownSlots_checkStmts place rest]

end

/-- Checking a function keeps its scopes. -/
theorem scopes_checkFunction (decl : FunctionDecl) :
    (checkFunction model decl).value.paramScope = decl.paramScope ∧
      (checkFunction model decl).value.bodyScope = decl.bodyScope := by
  unfold checkFunction
  cases decl.closing <;> exact ⟨rfl, rfl⟩

theorem ownSlots_checkFunction (decl : FunctionDecl) :
    (checkFunction model decl).value.stmts.map ownSlots = decl.stmts.map ownSlots := by
  unfold checkFunction FunctionDecl.stmts
  cases decl.closing <;> exact ownSlots_checkStmts _ decl.body

theorem bodies_checkItem (item : Item) :
    (checkItem model item).value.bodies =
      item.bodies.map fun decl => (checkFunction model decl).value := by
  cases item with
  | classDecl decl =>
      simp [checkItem, checkClass, Item.bodies]
  | _ => rfl

theorem heritage_checkItem (item : Item) :
    (checkItem model item).value.heritage = item.heritage := by
  cases item <;> rfl

end Typing

namespace Program

variable {program : Program}

theorem bodies_check : (program.check model).value.bodies =
    program.bodies.map fun decl => (Typing.checkFunction model decl).value := by
  simp only [check, Reported.value_bind, Reported.value_pure, Reported.value_mapM, bodies]
  exact Typing.flatMap_map_of_forall program.items Typing.bodies_checkItem

theorem ownSlots_check :
    (program.check model).value.stmts.map Typing.ownSlots =
      program.stmts.map Typing.ownSlots := by
  calc
    (program.check model).value.stmts.map Typing.ownSlots =
        program.bodies.flatMap fun decl =>
          (Typing.checkFunction model decl).value.stmts.map Typing.ownSlots := by
      rw [stmts, bodies_check, List.flatMap_map, List.map_flatMap]
    _ = program.bodies.flatMap fun decl => decl.stmts.map Typing.ownSlots :=
      congrArg (program.bodies.flatMap ·) (funext Typing.ownSlots_checkFunction)
    _ = program.stmts.map Typing.ownSlots := List.map_flatMap.symm

/-- Checking keeps every name use of a file. -/
theorem nameUses_check : (program.check model).value.nameUses = program.nameUses := by
  have nodesKept : (program.check model).value.nodes.map Expr.nameUse? =
      program.nodes.map Expr.nameUse? := by
    calc
      (program.check model).value.nodes.map Expr.nameUse? =
          program.exprs.flatMap fun expr =>
            (expr.checked model).nodes.map Expr.nameUse? := by
        rw [nodes, exprs_check, List.flatMap_map, List.map_flatMap]
      _ = program.exprs.flatMap fun expr => expr.nodes.map Expr.nameUse? :=
        congrArg (program.exprs.flatMap ·) (funext Typing.nameUses_checked)
      _ = program.nodes.map Expr.nameUse? := List.map_flatMap.symm
  have inNodes : (program.check model).value.nodes.filterMap Expr.nameUse? =
      program.nodes.filterMap Expr.nameUse? := by
    have filtered := congrArg (List.filterMap id) nodesKept
    rwa [List.filterMap_map, List.filterMap_map] at filtered
  have inStmts : (program.check model).value.stmts.flatMap Stmt.targets =
      program.stmts.flatMap Stmt.targets := by
    have collected := congrArg (List.flatMap Prod.fst) (@ownSlots_check model program)
    rwa [List.flatMap_map, List.flatMap_map] at collected
  have inHeads : (program.check model).value.items.flatMap Item.heritage =
      program.items.flatMap Item.heritage := by
    simp only [check, Reported.value_bind, Reported.value_pure, Reported.value_mapM,
      List.flatMap_map]
    exact congrArg (program.items.flatMap ·) (funext Typing.heritage_checkItem)
  unfold nameUses
  rw [inNodes, inStmts, inHeads]

/-- Checking keeps the scopes of a file. -/
theorem scopeSlots_check : (program.check model).value.scopeSlots = program.scopeSlots := by
  have inStmts : (program.check model).value.stmts.flatMap Stmt.scopeSlots =
      program.stmts.flatMap Stmt.scopeSlots := by
    have collected := congrArg (List.flatMap Prod.snd) (@ownSlots_check model program)
    rwa [List.flatMap_map, List.flatMap_map] at collected
  have inBodies :
      (program.check model).value.bodies.flatMap (fun decl => [decl.paramScope, decl.bodyScope]) =
        program.bodies.flatMap fun decl => [decl.paramScope, decl.bodyScope] := by
    rw [bodies_check, List.flatMap_map]
    refine congrArg (program.bodies.flatMap ·) (funext fun decl => ?_)
    have kept := @Typing.scopes_checkFunction model decl
    rw [kept.1, kept.2]
  unfold scopeSlots
  rw [inBodies, inStmts]

/-- In a linked and well typed file, every name refers to something. -/
theorem WellTyped.bound (typed : program.WellTyped model) (linked : program.Linked model) :
    ∀ used ∈ program.nameUses, ∃ binding, used.binding = some binding := by
  rw [nameUses, List.forall_mem_append, List.forall_mem_append]
  refine ⟨⟨?_, ?_⟩, ?_⟩
  · intro used member
    rcases List.mem_filterMap.mp member with ⟨node, inNodes, uses⟩
    rcases List.mem_flatMap.mp inNodes with ⟨expr, inside, inExpr⟩
    exact (Expr.Valued.nodes expr (typed.valued linked expr inside) node inExpr).bound uses
  · intro used member
    rcases List.mem_flatMap.mp member with ⟨stmt, inStmts, isTarget⟩
    rcases List.mem_flatMap.mp inStmts with ⟨decl, inBodies, inBody⟩
    rcases List.mem_flatMap.mp inBodies with ⟨item, inside, isBody⟩
    have stmtTyped : ∃ returnTy, Stmt.WellTypedList model returnTy decl.body := by
      have itemTyped := typed item inside
      cases item with
      | classDecl owner => exact ⟨_, (itemTyped.methods decl isBody).body⟩
      | function found =>
          cases List.mem_singleton.mp isBody
          exact ⟨_, itemTyped.body⟩
      | _ => cases isBody
    rcases stmtTyped with ⟨returnTy, bodyTyped⟩
    exact (Stmt.WellTypedList.nodes decl.body bodyTyped stmt inBody).bound used isTarget
  · intro used member
    rcases List.mem_flatMap.mp member with ⟨item, inside, inHead⟩
    have headBound : used.Bound model := by
      have itemLinked := linked item inside
      cases item with
      | classDecl decl =>
          rcases List.mem_append.mp inHead with isParent | isUsed
          · exact itemLinked.parent used (Option.mem_toList.mp isParent)
          · exact itemLinked.uses used isUsed
      | interface decl => exact itemLinked.bases used inHead
      | _ => cases inHead
    rcases headBound with ⟨binding, bound, _⟩
    exact ⟨binding, bound⟩

/-- In a linked file, every construct that opens a scope knows it. -/
theorem Linked.scoped (linked : program.Linked model) :
    ∀ slot ∈ program.scopeSlots, ∃ scope, slot = some scope := by
  have bodyLinked : ∀ decl ∈ program.bodies, decl.Linked model := by
    intro decl member
    rcases List.mem_flatMap.mp member with ⟨item, inside, isBody⟩
    have itemLinked := linked item inside
    cases item with
    | classDecl owner => exact itemLinked.methods decl isBody
    | function found =>
        cases List.mem_singleton.mp isBody
        exact itemLinked
    | _ => cases isBody
  rw [scopeSlots, List.forall_mem_append]
  constructor
  · intro slot member
    rcases List.mem_flatMap.mp member with ⟨decl, inside, isOwn⟩
    have declLinked := bodyLinked decl inside
    rcases List.mem_cons.mp isOwn with same | isBody
    · exact Option.isSome_iff_exists.mp (same ▸ declLinked.paramScope)
    · cases List.mem_singleton.mp isBody
      exact Option.isSome_iff_exists.mp declLinked.bodyScope
  · intro slot member
    rcases List.mem_flatMap.mp member with ⟨stmt, inStmts, isOwn⟩
    rcases List.mem_flatMap.mp inStmts with ⟨decl, inside, inBody⟩
    exact (Stmt.LinkedList.nodes decl.body (bodyLinked decl inside).body stmt inBody).scoped slot
      isOwn

/-- Checking fills in all room of a linked and well typed file. -/
theorem WellTyped.annotated (typed : program.WellTyped model) (linked : program.Linked model) :
    (program.check model).value.Annotated := by
  have valued := typed.valued linked
  refine ⟨?_, ?_, ?_⟩
  · intro checked member
    rcases exists_of_mem_forall₂ (typed.records linked) member with ⟨node, inNodes, ty, unique, carries⟩
    rcases List.mem_flatMap.mp inNodes with ⟨expr, inside, inExpr⟩
    rcases (Expr.Valued.nodes expr (valued expr inside) node inExpr).typed with
      ⟨other, otherTyped, declared⟩
    rw [(unique other).mp otherTyped] at declared
    refine ⟨ty, by rw [Expr.ty, carries]; rfl, ?_, ?_⟩
    · rintro rfl
      exact declared
    · rintro rfl
      exact declared
  · rw [nameUses_check]
    exact typed.bound linked
  · rw [scopeSlots_check]
    exact linked.scoped

end Program

/-- If the trees of a compilation can be handed on for code generation, then
every one of them is fully annotated. -/
theorem Compilation.annotated_of_readyForCode {options : Options} {files : List SourceFile}
    {compilation : Compilation} (compiled : compile options files = .ok compilation)
    (ready : compilation.readyForCode = true) :
    ∀ program ∈ compilation.programs, program.Annotated := by
  unfold compile at compiled
  cases read : readFiles files with
  | error failure => rw [read] at compiled; cases compiled
  | ok programs =>
      rw [read] at compiled
      cases compiled
      rcases passes_of_readyForCode ready with ⟨_, resolves, checks, same⟩
      rw [same, Reported.value_mapM]
      intro program member
      rcases List.mem_map.mp member with ⟨resolved, inside, isChecked⟩
      subst isChecked
      have linked := linked_of_readFiles read resolves resolved inside
      have clean := ((Reported.lacks_mapM _ _).mp checks resolved inside).mono
        fun _ => Problem.isTypingError_of_isError
      exact ((Program.lacks_check_iff linked).mp clean).annotated linked

/-- A file with a class, a receiver of a member and a block. -/
def boxFile : SourceFile :=
  ⟨"box.kn", "class Box \x7b int size; \x7d " ++
    "fn main(): void \x7b Box box = new Box(); \x7b box.size = box.size + 1; \x7d \x7d"⟩

/-- The file is accepted, and its tree is fully annotated. -/
theorem Compilation.annotated_boxFile :
    ∃ compilation, compile {} [boxFile] = .ok compilation ∧
      compilation.readyForCode = true ∧ ∀ program ∈ compilation.programs, program.Annotated := by
  have passes : readWith (fun programs => (analyse {} programs).readyForCode) [boxFile] =
      true :=
    readWith_of_letters (.cons (.append .literal .literal) .nil) (by decide +kernel)
  rcases exists_of_readWith passes with ⟨programs, read, ready⟩
  have compiled : compile {} [boxFile] = .ok (analyse {} programs) := by
    rw [compile, read]
    rfl
  exact ⟨_, compiled, ready, annotated_of_readyForCode compiled ready⟩

end KnightFront
