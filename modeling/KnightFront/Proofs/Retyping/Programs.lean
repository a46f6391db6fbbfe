import KnightFront.Proofs.Edits.SpoiledProgram
import KnightFront.Proofs.Retyping.Declarations
import KnightFront.Proofs.Retyping.Statements

namespace KnightFront

/-!
# Programs with an unknown type in reach

What counts in a function, a class or a file that stood without error is that
its variables are of the unknown type.  Heads, parents and interfaces are judged
as before.
-/

open Analysis Resolution Typing

variable {unknown : String} {kind : Finding → Bool} {place other : NamePlace}
  {scopes others : List Scope}

/-- What is to be reported of variables that have the unknown type. -/
def unknownTysOf (unknown : String) (decls : List VarDecl) : List Finding :=
  decls.flatMap (VarDecl.unknownTys unknown)

@[simp]
theorem unknownTysOf_append (front back : List VarDecl) :
    unknownTysOf unknown (front ++ back) = unknownTysOf unknown front ++ unknownTysOf unknown back :=
  List.flatMap_append

section Entering

variable (retyped : List.Forall₂ (Scope.Retyped unknown) scopes others)

include retyped

/-- Declaring the same variables keeps scopes alike. -/
theorem Scopes.retyped_foldl_declare (entities : List Variable) (scope : ScopeId) :
    List.Forall₂ (Scope.Retyped unknown)
      (entities.foldl (fun scopes entity => Scopes.declare scopes scope entity) scopes)
      (entities.foldl (fun scopes entity => Scopes.declare scopes scope entity) others) := by
  induction entities generalizing scopes others with
  | nil => exact retyped
  | cons first rest inductionHypothesis =>
      exact inductionHypothesis (Scopes.retyped_declare retyped ⟨rfl, .same _⟩ scope)

theorem Resolution.paramScope_enterFunction (params : List Param) :
    (enterFunction others params).paramScope = (enterFunction scopes params).paramScope :=
  retyped.length_eq.symm

/-- Entering a function declares the same parameters. -/
theorem Resolution.retyped_declareParams (params : List Param) :
    List.Forall₂ (Scope.Retyped unknown)
      (declareParams (scopes ++ [.opened none .parameters]) scopes.length params)
      (declareParams (others ++ [.opened none .parameters]) others.length params) := by
  rw [← retyped.length_eq]
  exact Scopes.retyped_foldl_declare (Scopes.retyped_opened retyped none .parameters) _ _

theorem Resolution.bodyScope_enterFunction (params : List Param) :
    (enterFunction others params).bodyScope = (enterFunction scopes params).bodyScope :=
  (retyped_declareParams retyped params).length_eq.symm

theorem Resolution.retyped_enterFunction (params : List Param) :
    List.Forall₂ (Scope.Retyped unknown) (enterFunction scopes params).state.scopes
      (enterFunction others params).state.scopes := by
  have opened := Scopes.retyped_opened (retyped_declareParams retyped params) (some scopes.length)
    .block
  have length := retyped.length_eq
  unfold enterFunction ScopeState.openScope
  dsimp only
  rw [← length] at opened ⊢
  exact opened

end Entering

namespace RetypedSite

variable (site : RetypedSite unknown place other scopes others)

include site

/-- Entering a function brings the same parameters in reach. -/
theorem enterFunction {head : FunctionHead} (written : head.Written)
    (clean : (checkHead place head).tally Finding.isError = 0) :
    RetypedSite unknown (bodyPlace place (enterFunction scopes head.params))
      (bodyPlace other (Resolution.enterFunction others head.params))
      (Resolution.enterFunction scopes head.params).state.scopes
      (Resolution.enterFunction others head.params).state.scopes where
  site := site.site.enterFunction written (fun _ _ => trivial) clean
  strange := site.strange
  model := site.model
  className := site.className
  scope := congrArg some (bodyScope_enterFunction site.scopes head.params)
  functionScopes := congrArg some (Prod.ext (paramScope_enterFunction site.scopes head.params)
    (bodyScope_enterFunction site.scopes head.params))
  scopes := retyped_enterFunction site.scopes head.params

/-- Behind a function the same is in reach but for the types of variables. -/
theorem resolveFunction {decl decl' : FunctionDecl} (retyped : decl.Retyped unknown decl')
    (written : decl.Written) (clean : functionTally Finding.isError place scopes decl = 0) :
    RetypedSite unknown place other (resolveFunction place scopes decl).value.2
      (Resolution.resolveFunction other others decl').value.2 := by
  have behind := site.site.resolveFunction written (fun _ _ => trivial) clean
  rw [functionTally_eq] at clean
  dsimp only at clean
  have inside := site.enterFunction written.head (by omega)
  cases retyped with
  | body statements =>
      exact { site with
        site := behind
        scopes := retyped_resolveStmts inside.scope inside.functionScopes inside.scopes statements }

/-- In the return that closes a function nothing counts. -/
theorem tally_closing (spares : Spares unknown kind) {head : FunctionHead}
    (known : head.returnTy ≠ .named unknown) {closing : Option Return}
    (written : ∀ returned ∈ closing, returned.Written)
    (clean : closingTally Finding.isError place scopes head closing = 0) :
    closingTally kind other others head closing = 0 := by
  cases closing with
  | none => exact spares.tally_eq_zero clean
  | some returned => exact tally_retyped_return spares site known (written returned rfl) clean

/-- In a function that stood without error the unknown types of its locals count,
and nothing else. -/
theorem tally_function (spares : Spares unknown kind) {decl decl' : FunctionDecl}
    (retyped : decl.Retyped unknown decl') (written : decl.Written)
    (clean : functionTally Finding.isError place scopes decl = 0) :
    functionTally kind other others decl' =
      (unknownTysOf unknown decl'.localDecls).countP kind := by
  rw [functionTally_eq] at clean
  rw [functionTally_eq]
  dsimp only at clean ⊢
  rw [Nat.add_eq_zero_iff, Nat.add_eq_zero_iff] at clean
  rcases clean with ⟨⟨headClean, bodyClean⟩, closingClean⟩
  have inside := site.enterFunction written.head headClean
  have known : decl.head.returnTy ≠ .named unknown := by
    unfold checkHead at headClean
    rw [Reported.tally_bind, Nat.add_eq_zero_iff] at headClean
    exact ne_unknown_of_checkTy site headClean.2
  have writtenBody := Stmt.writtenList_iff.mpr written.body
  cases retyped with
  | @body body' statements =>
      have body := tally_retyped_stmts spares known inside statements writtenBody bodyClean
      have behind := inside.resolveStmts statements writtenBody
        (Nat.eq_zero_of_add_eq_zero bodyClean).1
      have closing := behind.tally_closing spares known written.closing closingClean
      have head : (checkHead other decl.head).tally kind = 0 := by
        rw [site.checkHead_eq, spares.tally_eq_zero headClean]
      rw [head, body, closing, Nat.zero_add, Nat.add_zero]
      rfl

/-- The methods of a class one after another, and what is in reach behind them. -/
theorem tally_methods (spares : Spares unknown kind) {methods methods' : List FunctionDecl}
    (retyped : List.Forall₂ (FunctionDecl.Retyped unknown) methods methods')
    (written : ∀ method ∈ methods, method.Written)
    (clean : methodsTally Finding.isError place scopes methods = 0) :
    methodsTally kind other others methods' =
        (unknownTysOf unknown (methods'.flatMap FunctionDecl.localDecls)).countP kind ∧
      RetypedSite unknown place other (resolveMethods place scopes methods).value.2
        (resolveMethods other others methods').value.2 := by
  induction retyped generalizing scopes others with
  | nil => exact ⟨rfl, site⟩
  | @cons method method' methods methods' head _ inductionHypothesis =>
      rw [List.forall_mem_cons] at written
      rw [methodsTally_cons, Nat.add_eq_zero_iff] at clean
      have behind := site.resolveFunction head written.1 clean.1
      rcases inductionHypothesis behind written.2 clean.2 with ⟨rest, last⟩
      refine ⟨?_, last⟩
      calc
        methodsTally kind other others (method' :: methods') =
            (unknownTysOf unknown method'.localDecls).countP kind +
              (unknownTysOf unknown (methods'.flatMap FunctionDecl.localDecls)).countP kind := by
          rw [methodsTally_cons, site.tally_function spares head written.1 clean.1, rest]
        _ = (unknownTysOf unknown
              ((method' :: methods').flatMap FunctionDecl.localDecls)).countP kind := by
          rw [List.flatMap_cons, unknownTysOf_append, List.countP_append]

end RetypedSite

/-- Interfaces are kept or not, whatever the types of fields and locals are. -/
theorem conformanceFindings_of_retyped {model other : SymbolModel}
    (models : model.Retyped unknown other) {decl decl' : ClassDecl} (name : decl'.name = decl.name)
    (span : decl'.span = decl.span) (uses : decl'.uses = decl.uses) :
    conformanceFindings other decl' = conformanceFindings model decl := by
  have both := models.rel_class? decl.name
  have methods (required : String) := models.rel_findMethod? decl.name required
  unfold conformanceFindings
  rw [name, span, uses, models.interfaceClosure_eq]
  generalize model.class? decl.name = first at both
  generalize other.class? decl.name = second at both
  cases both with
  | none => rfl
  | some same =>
      dsimp only
      rw [same.position]
      split
      · rfl
      · refine congrArg (List.flatMap · decl.uses) (funext fun used => ?_)
        refine congrArg (List.flatMap · (model.interfaceClosure used.text))
          (funext fun interface => ?_)
        refine congrArg (List.flatMap · interface.methods.sorted) (funext fun required => ?_)
        have found := methods required.name
        generalize model.findMethod? decl.name required.name = first at found ⊢
        generalize other.findMethod? decl.name required.name = second at found ⊢
        cases found with
        | none => rfl
        | some head =>
            dsimp only
            rw [head.2.signature, head.2.position]

/-! ## Declarations at the top level -/

/-- The variables of a declaration at the top level, without parameters. -/
def Item.varDecls (item : Item) : List VarDecl :=
  item.members ++ item.bodies.flatMap FunctionDecl.localDecls

/-- The variables of a file are those of its declarations. -/
theorem Program.perm_varDecls (program : Program) :
    program.varDecls.Perm (program.items.flatMap Item.varDecls) := by
  rw [Program.varDecls, Program.bodies, List.flatMap_assoc]
  exact List.flatMap_append_perm _ _ _

namespace RetypedSite

variable {model otherModel : SymbolModel}
  (site : RetypedSite unknown { model } { model := otherModel } scopes others)

include site

/-- The members of a class are in reach as well. -/
theorem inClass (className : String) :
    RetypedSite unknown { model, className := some className }
      { model := otherModel, className := some className } scopes others :=
  { site with
    site := site.site.inClass className
    className := rfl }

/-- What a class inherits and how it keeps its interfaces is judged as before. -/
theorem heritageTally_eq {decl decl' : ClassDecl} (retyped : decl.Retyped unknown decl') :
    heritageTally kind otherModel decl' = heritageTally kind model decl := by
  cases retyped with
  | members =>
      have inside := site.inClass decl.name
      unfold heritageTally
      dsimp only
      rw [funext inside.bindParent_eq, funext inside.bindInterface_eq,
        conformanceFindings_of_retyped site.model rfl rfl rfl]
      rfl

omit site in
/-- In the fields of a class the unknown types count. -/
theorem tally_fields (spares : Spares unknown kind)
    (site : RetypedSite unknown place other scopes others) {fields fields' : List VarDecl}
    (retyped : List.Forall₂ (VarDecl.Retyped unknown) fields fields')
    (written : ∀ field ∈ fields, field.Written)
    (clean : (fields.map (declTally Finding.isError place scopes)).sum = 0) :
    (fields'.map (declTally kind other others)).sum =
      (unknownTysOf unknown fields').countP kind := by
  induction retyped with
  | nil => rfl
  | @cons field field' fields fields' head _ inductionHypothesis =>
      rw [List.forall_mem_cons] at written
      rw [List.map_cons, List.sum_cons, Nat.add_eq_zero_iff] at clean
      calc
        ((field' :: fields').map (declTally kind other others)).sum =
            declTally kind other others field' +
              (fields'.map (declTally kind other others)).sum := rfl
        _ = (field'.unknownTys unknown).countP kind +
              (unknownTysOf unknown fields').countP kind := by
          rw [tally_retyped_decl spares site head written.1 clean.1,
            inductionHypothesis written.2 clean.2]
        _ = (unknownTysOf unknown (field' :: fields')).countP kind := List.countP_append.symm

/-- In a class that stood without error the unknown types of its fields and
locals count, and nothing else. -/
theorem tally_class (spares : Spares unknown kind) {decl decl' : ClassDecl}
    (retyped : decl.Retyped unknown decl') (written : decl.Written)
    (clean : classTally Finding.isError model scopes decl = 0) :
    classTally kind otherModel others decl' =
        (unknownTysOf unknown (Item.classDecl decl').varDecls).countP kind ∧
      RetypedSite unknown { model } { model := otherModel } (resolveClass model scopes decl).value.2
        (resolveClass otherModel others decl').value.2 := by
  have inside := site.inClass decl.name
  have heritage : heritageTally kind otherModel decl' = heritageTally kind model decl :=
    site.heritageTally_eq retyped
  rw [classTally_eq, Nat.add_eq_zero_iff, Nat.add_eq_zero_iff] at clean
  rcases clean with ⟨⟨heritageClean, fieldsClean⟩, methodsClean⟩
  have silent : heritageTally kind model decl = 0 := by
    unfold heritageTally Finding.isError at heritageClean
    dsimp only at heritageClean
    rw [Nat.add_eq_zero_iff, Nat.add_eq_zero_iff] at heritageClean
    unfold heritageTally
    dsimp only
    rw [spares.tally_eq_zero heritageClean.1.1, spares.tally_eq_zero heritageClean.1.2,
      spares.tally_eq_zero heritageClean.2]
  cases retyped with
  | @members fields' methods' fields methods =>
      have fieldsTally := tally_fields spares inside fields written.fields fieldsClean
      rcases inside.tally_methods spares methods written.methods methodsClean with
        ⟨methodsTally, behind⟩
      refine ⟨?_, ?_⟩
      · rw [classTally_eq, heritage, silent, fieldsTally, methodsTally, Nat.zero_add,
          ← List.countP_append, ← unknownTysOf_append]
        rfl
      · exact {
          site := ⟨site.site.closed, site.site.names, behind.site.declared, behind.site.scopeNames⟩
          strange := site.strange
          model := site.model
          className := rfl
          scope := rfl
          functionScopes := rfl
          scopes := behind.scopes }

/-- In a declaration at the top level that stood without error the unknown types
of variables count, and nothing else. -/
theorem tally_item (spares : Spares unknown kind) {item item' : Item}
    (retyped : item.Retyped unknown item') (written : item.Written)
    (clean : itemTally Finding.isError model scopes item = 0) :
    itemTally kind otherModel others item' = (unknownTysOf unknown item'.varDecls).countP kind ∧
      RetypedSite unknown { model } { model := otherModel } (resolveItem model scopes item).value.2
        (resolveItem otherModel others item').value.2 := by
  cases retyped with
  | inclusion | enumeration => exact ⟨rfl, site⟩
  | interface decl =>
      refine ⟨?_, site⟩
      have same : resolveInterface { model := otherModel } decl = resolveInterface { model } decl := by
        unfold resolveInterface
        rw [funext site.bindInterface_eq, funext site.checkHead_eq]
      rw [itemTally_interface, same]
      exact spares.tally_eq_zero ((itemTally_interface Finding.isError).symm.trans clean)
  | classDecl inside =>
      rw [itemTally_classDecl] at clean
      rw [itemTally_classDecl]
      exact site.tally_class spares inside written clean
  | @function decl decl' inside =>
      rw [itemTally_function] at clean
      rw [itemTally_function, site.tally_function spares inside written clean]
      refine ⟨?_, site.resolveFunction inside written clean⟩
      simp [Item.varDecls, Item.members, Item.bodies]
  | @globalVariable decl decl' inside =>
      rw [itemTally_globalVariable] at clean
      rw [itemTally_globalVariable, tally_retyped_decl spares site inside written clean]
      refine ⟨?_, site⟩
      simp [Item.varDecls, Item.members, Item.bodies, unknownTysOf]

theorem tally_items (spares : Spares unknown kind) {items items' : List Item}
    (retyped : List.Forall₂ (Item.Retyped unknown) items items')
    (written : ∀ item ∈ items, item.Written)
    (clean : itemsTally Finding.isError model scopes items = 0) :
    itemsTally kind otherModel others items' =
      (unknownTysOf unknown (items'.flatMap Item.varDecls)).countP kind := by
  induction retyped generalizing scopes others with
  | nil => rfl
  | @cons item item' items items' head _ inductionHypothesis =>
      rw [List.forall_mem_cons] at written
      rw [itemsTally_cons, Nat.add_eq_zero_iff] at clean
      rcases site.tally_item spares head written.1 clean.1 with ⟨first, behind⟩
      calc
        itemsTally kind otherModel others (item' :: items') =
            (unknownTysOf unknown item'.varDecls).countP kind +
              (unknownTysOf unknown (items'.flatMap Item.varDecls)).countP kind := by
          rw [itemsTally_cons, first, inductionHypothesis behind written.2 clean.2]
        _ = (unknownTysOf unknown ((item' :: items').flatMap Item.varDecls)).countP kind := by
          rw [List.flatMap_cons, unknownTysOf_append, List.countP_append]

end RetypedSite

/-- In a file that stood without error the unknown types of its variables count,
and nothing else. -/
theorem tally_program (spares : Spares unknown kind) {model otherModel : SymbolModel}
    (closed : model.Closed) (names : model.Names fun _ => True)
    (strange : model.isTypeName unknown = false)
    (models : model.Retyped unknown otherModel) {program program' : Program}
    (retyped : program.Retyped unknown program') (written : program.Written)
    (fresh : program.scopes = []) (clean : programTally Finding.isError model program = 0) :
    programTally kind otherModel program' =
      (unknownTysOf unknown program'.varDecls).countP kind := by
  have start : RetypedSite unknown { model } { model := otherModel } [] [] := {
    site := ⟨closed, names, nofun, nofun⟩
    strange := strange
    model := models
    className := rfl
    scope := rfl
    functionScopes := rfl
    scopes := .nil }
  rw [programTally_eq, fresh] at clean
  rw [programTally_eq]
  cases retyped with
  | @items items' inside =>
      dsimp only
      rw [fresh, start.tally_items spares inside written clean]
      have sameVariables := (Program.perm_varDecls { program with items := items' }).flatMap_right
        (VarDecl.unknownTys unknown)
      exact (sameVariables.countP_eq kind).symm

/-- So it is in several files. -/
theorem tally_programs (spares : Spares unknown kind) {model otherModel : SymbolModel}
    (closed : model.Closed) (names : model.Names fun _ => True)
    (strange : model.isTypeName unknown = false)
    (models : model.Retyped unknown otherModel) {programs programs' : List Program}
    (retyped : List.Forall₂ (Program.Retyped unknown) programs programs')
    (written : ∀ program ∈ programs, program.Written)
    (fresh : ∀ program ∈ programs, program.scopes = [])
    (clean : (programs.map (programTally Finding.isError model)).sum = 0) :
    (programs'.map (programTally kind otherModel)).sum =
      (unknownTysOf unknown (programs'.flatMap Program.varDecls)).countP kind := by
  induction retyped with
  | nil => rfl
  | @cons program program' programs programs' head _ inductionHypothesis =>
      rw [List.forall_mem_cons] at written fresh
      rw [List.map_cons, List.sum_cons, Nat.add_eq_zero_iff] at clean
      calc
        ((program' :: programs').map (programTally kind otherModel)).sum =
            programTally kind otherModel program' +
              (programs'.map (programTally kind otherModel)).sum := rfl
        _ = (unknownTysOf unknown program'.varDecls).countP kind +
              (unknownTysOf unknown (programs'.flatMap Program.varDecls)).countP kind := by
          rw [inductionHypothesis written.2 fresh.2 clean.2,
            tally_program spares closed names strange models head written.1 fresh.1 clean.1]
        _ = (unknownTysOf unknown ((program' :: programs').flatMap Program.varDecls)).countP
              kind := by
          rw [List.flatMap_cons, unknownTysOf_append, List.countP_append]

end KnightFront
