import KnightFront.Proofs.Analysis.Reading
import KnightFront.Proofs.Edits.JudgedItem
import KnightFront.Proofs.Edits.Edited
import KnightFront.Proofs.Edits.SpoiledStmt

namespace KnightFront

/-!
# One mistake in a program

A mistake in a function, in a class or in a file is reported once, and so it is
among all files.  The first pass finds the same as without the mistake, and
what stands outside the changed place is resolved and checked as before.
-/

open Analysis Resolution Typing

variable {edit : Edit} {allowed : String → Prop} {place : NamePlace} {scopes : List Scope}
variable {model : SymbolModel}

section Functions

/-- Entering a function whose head has no error brings its parameters in
reach. -/
theorem Site.enterFunction (site : Site allowed place scopes) {head : FunctionHead}
    (written : head.Written) (declared : ∀ name ∈ head.declaredNames, allowed name)
    (clean : (checkHead place head).tally Finding.isError = 0) :
    Site allowed (bodyPlace place (enterFunction scopes head.params))
      (enterFunction scopes head.params).state.scopes := by
  have tys := declared_of_lacks_checkHead place written ((Reported.errors_eq_zero_iff _).mp clean)
  have opened : Scopes.Names allowed (scopes ++ [Scope.opened none .parameters]) :=
    @Scopes.Each.openScope _ ⟨scopes, head.params.length⟩ site.scopeNames none .parameters
  have withParams : Scopes.Names allowed (declareParams (scopes ++ [Scope.opened none .parameters])
      scopes.length head.params) := by
    refine Scopes.Each.foldl_declare _ _ opened fun entity member => ?_
    rcases List.mem_mapIdx.mp member with ⟨index, inside, rfl⟩
    exact declared _ (List.mem_cons_of_mem _ (List.mem_map_of_mem (List.getElem_mem inside)))
  exact {
    closed := site.closed
    names := site.names
    declared := declared_enterFunction site.declared fun param member =>
      tys _ (List.mem_cons_of_mem _ (List.mem_map_of_mem member))
    scopeNames := @Scopes.Each.openScope _ ⟨_, head.params.length⟩ withParams _ _ }

/-- Behind a function without errors declared types are in reach. -/
theorem Site.resolveFunction (site : Site allowed place scopes) {decl : FunctionDecl}
    (written : decl.Written) (declared : ∀ name ∈ decl.declaredNames, allowed name)
    (clean : functionTally Finding.isError place scopes decl = 0) :
    Site allowed place (Resolution.resolveFunction place scopes decl).value.2 := by
  rw [functionTally_eq] at clean
  dsimp only at clean
  rw [FunctionDecl.declaredNames, List.forall_mem_append] at declared
  have inside := site.enterFunction written.head declared.1 (by omega)
  have bodyClean : stmtsTally Finding.isError (bodyPlace place (Resolution.enterFunction scopes
    decl.head.params)) decl.head (Resolution.enterFunction scopes decl.head.params).state
      decl.body = 0 := by omega
  have behind := inside.resolveStmts (Stmt.writtenList_iff.mpr written.body) declared.2
    (Nat.eq_zero_of_add_eq_zero bodyClean).1
  exact ⟨site.closed, site.names, behind.declared, behind.scopeNames⟩

theorem Site.resolveMethods (site : Site allowed place scopes) {methods : List FunctionDecl}
    (written : ∀ method ∈ methods, method.Written)
    (declared : ∀ method ∈ methods, ∀ name ∈ method.declaredNames, allowed name)
    (clean : methodsTally Finding.isError place scopes methods = 0) :
    Site allowed place (Resolution.resolveMethods place scopes methods).value.2 := by
  rw [methodsTally, resolveMethods_eq_handOn] at clean
  rw [resolveMethods_eq_handOn]
  exact Reported.state_handOn_of_invariant (Site allowed place) site
    (fun _ site method member clean =>
      site.resolveFunction (written method member) (declared method member) clean) clean

namespace FunctionDecl.Edited

variable {decl decl' : FunctionDecl}

/-- A change in one place leaves the scopes behind a function as they are. -/
theorem scopes_eq (edited : decl.Edited edit place scopes decl') :
    (resolveFunction place scopes decl').value.2 = (resolveFunction place scopes decl).value.2 := by
  cases edited with
  | body isBody edited =>
      simp only [resolveFunction, Reported.value_bind, Reported.value_pure, isBody]
      rw [state_resolveStmts_append_cons_congr edited.state_eq]
  | closing => rfl

/-- A mistake in one place of a function is reported once. -/
theorem spoiled (spoils : edit.Spoils allowed) (site : Site allowed place scopes)
    (edited : decl.Edited edit place scopes decl') (written : decl.Written)
    (declared : ∀ name ∈ decl.declaredNames, allowed name)
    (clean : functionTally Finding.isError place scopes decl = 0) :
    functionTally Finding.isError place scopes decl' = 1 := by
  rw [functionTally_eq] at clean ⊢
  dsimp only at clean
  rw [FunctionDecl.declaredNames, List.forall_mem_append] at declared
  have inside := site.enterFunction written.head declared.1 (by omega)
  have writtenBody := Stmt.writtenList_iff.mpr written.body
  cases edited with
  | @body front back stmt stmt' isBody edited =>
      rw [isBody] at clean declared writtenBody
      rw [Stmt.declaredNamesOfList_append, Stmt.declaredNamesOfList, List.forall_mem_append,
        List.forall_mem_append] at declared
      rw [stmtsTally_append_cons] at clean
      dsimp only at clean ⊢
      rw [stmtsTally_append_cons, state_resolveStmts_append_cons_congr edited.state_eq]
      dsimp only
      rw [edited.state_eq]
      have writtenParts := Stmt.WrittenList.of_append writtenBody
      have frontClean : stmtsTally Finding.isError (bodyPlace place (Resolution.enterFunction scopes
        decl.head.params)) decl.head (Resolution.enterFunction scopes decl.head.params).state
          front = 0 := by omega
      have behind := inside.resolveStmts writtenParts.1 declared.2.1
        (Nat.eq_zero_of_add_eq_zero frontClean).1
      have once := edited.spoiled spoils decl.head behind writtenParts.2.1 declared.2.2.1 (by omega)
      omega
  | @closing returned returned' isClosing edited =>
      rw [isClosing] at clean
      simp only [closingTally] at clean ⊢
      have bodyClean : stmtsTally Finding.isError (bodyPlace place (Resolution.enterFunction scopes
        decl.head.params)) decl.head (Resolution.enterFunction scopes decl.head.params).state
          decl.body = 0 := by omega
      have behind := inside.resolveStmts writtenBody declared.2
        (Nat.eq_zero_of_add_eq_zero bodyClean).1
      have once := edited.spoiled spoils behind (written.closing returned isClosing)
        (show returnTally Finding.isError _ _ decl.head returned = 0 by omega)
      omega

end FunctionDecl.Edited

end Functions

/-- The members of a class are in reach as well. -/
theorem Site.inClass (site : Site allowed { model } scopes) (className : String) :
    Site allowed { model, className := some className } scopes :=
  ⟨site.closed, site.names, site.declared, site.scopeNames⟩

/-- A mistake in one place of a class is reported once. -/
theorem ClassDecl.Edited.spoiled (spoils : edit.Spoils allowed) {decl decl' : ClassDecl}
    (site : Site allowed { model } scopes) (edited : decl.Edited edit model scopes decl')
    (written : decl.Written)
    (declared : ∀ name ∈ (Item.classDecl decl).declaredNames, allowed name)
    (clean : classTally Finding.isError model scopes decl = 0) :
    classTally Finding.isError model scopes decl' = 1 := by
  have inside := site.inClass decl.name
  rw [classTally_eq] at clean ⊢
  cases edited with
  | @field front back field field' isFields edited =>
      have heritage :
          heritageTally Finding.isError model { decl with fields := front ++ field' :: back } =
            heritageTally Finding.isError model decl := rfl
      simp only [isFields, heritage, List.map_append, List.map_cons, List.sum_append,
        List.sum_cons] at clean ⊢
      have once := edited.spoiled spoils inside (written.fields field (by simp [isFields]))
        (by omega)
      omega
  | @method front back method method' isMethods edited =>
      have heritage :
          heritageTally Finding.isError model { decl with methods := front ++ method' :: back } =
            heritageTally Finding.isError model decl := rfl
      rw [isMethods, methodsTally_append_cons] at clean
      rw [heritage, methodsTally_append_cons]
      dsimp only at clean ⊢
      have writtenMethods := written.methods
      rw [isMethods, List.forall_mem_append, List.forall_mem_cons] at writtenMethods
      have declaredMethods : ∀ method ∈ decl.methods, ∀ name ∈ method.declaredNames, allowed name :=
        fun method member name isName =>
          declared name (List.mem_append_right _ (List.mem_flatMap.mpr ⟨method, member, isName⟩))
      rw [isMethods, List.forall_mem_append, List.forall_mem_cons] at declaredMethods
      have behind := inside.resolveMethods writtenMethods.1 declaredMethods.1 (by omega)
      have once := edited.spoiled spoils behind writtenMethods.2.1 declaredMethods.2.1 (by omega)
      rw [edited.scopes_eq]
      omega

/-- A change in one place leaves the scopes behind a class as they are. -/
theorem ClassDecl.Edited.scopes_eq {decl decl' : ClassDecl}
    (edited : decl.Edited edit model scopes decl') :
    (resolveClass model scopes decl').value.2 = (resolveClass model scopes decl).value.2 := by
  cases edited with
  | field => rfl
  | method isMethods edited =>
      simp only [resolveClass, Reported.value_bind, Reported.value_pure, isMethods,
        resolveMethods_eq_handOn] at edited ⊢
      exact Reported.state_handOn_append_cons_congr edited.scopes_eq

/-- A change in one place leaves the scopes behind a declaration as they
are. -/
theorem Item.Edited.scopes_eq {item item' : Item} (edited : item.Edited edit model scopes item') :
    (resolveItem model scopes item').value.2 = (resolveItem model scopes item).value.2 := by
  cases edited with
  | classDecl edited => exact edited.scopes_eq
  | function edited => exact edited.scopes_eq
  | globalVariable => rfl

/-- A mistake in one place of a declaration is reported once. -/
theorem Item.Edited.spoiled (spoils : edit.Spoils allowed) {item item' : Item}
    (site : Site allowed { model } scopes) (edited : item.Edited edit model scopes item')
    (written : item.Written) (declared : ∀ name ∈ item.declaredNames, allowed name)
    (clean : itemTally Finding.isError model scopes item = 0) :
    itemTally Finding.isError model scopes item' = 1 := by
  cases edited with
  | classDecl edited =>
      rw [itemTally_classDecl] at clean ⊢
      exact edited.spoiled spoils site written declared clean
  | function edited =>
      rw [itemTally_function] at clean ⊢
      exact edited.spoiled spoils site written declared clean
  | globalVariable edited =>
      rw [itemTally_globalVariable] at clean ⊢
      exact edited.spoiled spoils site written clean

/-- Behind a declaration without errors declared types are in reach. -/
theorem Site.resolveItem (site : Site allowed { model } scopes) {item : Item}
    (written : item.Written) (declared : ∀ name ∈ item.declaredNames, allowed name)
    (clean : itemTally Finding.isError model scopes item = 0) :
    Site allowed { model } (Resolution.resolveItem model scopes item).value.2 := by
  cases item with
  | inclusion | enumeration | interface | globalVariable => exact site
  | function decl =>
      rw [itemTally_function] at clean
      exact site.resolveFunction written declared clean
  | classDecl decl =>
      rw [itemTally_classDecl, classTally_eq] at clean
      have behind := (site.inClass decl.name).resolveMethods written.methods
        (fun method member name isName => declared name
          (List.mem_append_right _ (List.mem_flatMap.mpr ⟨method, member, isName⟩))) (by omega)
      exact ⟨site.closed, site.names, behind.declared, behind.scopeNames⟩

/-! ## Files -/

/-- A mistake in one place of a file is reported once. -/
theorem Program.Edited.spoiled (spoils : edit.Spoils allowed) {program program' : Program}
    (closed : model.Closed) (names : model.Names allowed)
    (edited : program.Edited edit model program') (written : program.Written)
    (fresh : program.scopes = []) (declared : ∀ name ∈ program.declaredNames, allowed name)
    (clean : programTally Finding.isError model program = 0) :
    programTally Finding.isError model program' = 1 := by
  rw [programTally_eq] at clean ⊢
  cases edited with
  | @item front back item item' isItems edited =>
      have start : Site allowed { model } program.scopes :=
        ⟨closed, names, by rw [fresh]; exact nofun, by rw [fresh]; exact nofun⟩
      rw [isItems, itemsTally_append_cons] at clean
      rw [itemsTally_append_cons]
      dsimp only at clean ⊢
      rw [Program.Written, isItems, List.forall_mem_append, List.forall_mem_cons] at written
      have declaredItems : ∀ item ∈ program.items, ∀ name ∈ item.declaredNames, allowed name :=
        fun item member name isName => declared name (List.mem_flatMap.mpr ⟨item, member, isName⟩)
      rw [isItems, List.forall_mem_append, List.forall_mem_cons] at declaredItems
      have behind : Site allowed { model } (resolveItems model program.scopes front).value.2 := by
        have frontClean : itemsTally Finding.isError model program.scopes front = 0 := by omega
        rw [itemsTally, resolveItems_eq_handOn] at frontClean
        rw [resolveItems_eq_handOn]
        exact Reported.state_handOn_of_invariant (Site allowed { model }) start
          (fun _ site item member clean =>
            site.resolveItem (written.1 item member) (declaredItems.1 item member) clean) frontClean
      have once := edited.spoiled spoils behind written.2.1 declaredItems.2.1 (by omega)
      rw [edited.scopes_eq]
      omega

/-- A mistake in one place of several files is reported once. -/
theorem errorCount_analyse_of_edited (spoils : edit.Spoils allowed)
    {programs programs' : List Program}
    (builtin : ∀ builtin ∈ Builtin.all, allowed builtin.name)
    (written : ∀ program ∈ programs, program.Written)
    (fresh : ∀ program ∈ programs, program.scopes = [])
    (declared : ∀ program ∈ programs, ∀ name ∈ program.declaredNames, allowed name)
    (clean : (analyse {} programs).readyForCode = true)
    (edited : ProgramsEdited edit (SymbolModel.ofPrograms programs).value programs programs') :
    (analyse {} programs').log.errorCount = 1 := by
  rcases passes_of_readyForCode clean with ⟨declares, resolves, checks, -⟩
  have closed := SymbolModel.closed_of_lacks_resolve written resolves
  have names := SymbolModel.names_ofPrograms builtin declared
  have errors (programs : List Program) (model : SymbolModel) :
      (programs.mapM (Program.resolve model)).tally Finding.isError +
        ((programs.mapM (Program.resolve model)).value.mapM (Program.check model)).tally
            Finding.isError =
          (programs.map (programTally Finding.isError model)).sum :=
    Reported.tally_mapM_add_mapM _ _ _ _
  have none : (programs.map
      (programTally Finding.isError (SymbolModel.ofPrograms programs).value)).sum = 0 := by
    have resolved := (Reported.errors_eq_zero_iff _).mpr resolves
    have checked := (Reported.errors_eq_zero_iff _).mpr checks
    rw [← errors, ← resolveAll, resolved, checked]
  have silent := (Reported.errors_eq_zero_iff _).mpr declares
  rw [errorCount_analyse rfl, checkAll, resolveAll, edited.ofPrograms_eq]
  rw [silent, Nat.zero_add, errors]
  generalize (SymbolModel.ofPrograms programs).value = model at *
  cases edited with
  | @program front back program program' edited =>
      simp only [List.map_append, List.map_cons, List.sum_append, List.sum_cons] at none ⊢
      have once := edited.spoiled spoils closed names (written program (by simp))
        (fresh program (by simp)) (declared program (by simp)) (by omega)
      omega

/-- A node at no particular place. -/
def ExprInfo.unplaced : ExprInfo := ⟨0, ⟨.nowhere, .nowhere⟩, none⟩

/-- The use of a name at no particular place. -/
def NameUse.unplaced (text : String) : NameUse := ⟨text, ⟨.nowhere, .nowhere⟩, none⟩

/-- The declaration of a global number. -/
def numberDecl (name : String) (init : Expr) : VarDecl :=
  ⟨.int, ⟨.nowhere, .nowhere⟩, name, ⟨.nowhere, .nowhere⟩, some init⟩

/-- The declarations `int first = 1; int second = first + 1;`, with an expression
in the place where the second one uses the first. -/
def chainedNumbers (operand : Expr) : Program where
  file := "main.kn"
  items := [.globalVariable (numberDecl "first" (.int .unplaced 1)),
    .globalVariable (numberDecl "second" (.binary .unplaced .plus operand (.int .unplaced 1)))]

theorem isIdentifier_first : IsIdentifier "first" :=
  ⟨⟨'f', "irst".toList, rfl, by decide, List.all_eq_true.mp (by decide)⟩, by decide⟩

theorem isIdentifier_second : IsIdentifier "second" :=
  ⟨⟨'s', "econd".toList, rfl, by decide, List.all_eq_true.mp (by decide)⟩, by decide⟩

theorem written_chainedNumbers {operand : Expr} (written : operand.Written) :
    (chainedNumbers operand).Written := by
  have one : (Expr.int .unplaced 1).Written := Expr.written_int.mpr (by decide)
  refine List.forall_mem_cons.mpr ⟨⟨trivial, isIdentifier_first, ?_⟩,
    List.forall_mem_singleton.mpr ⟨trivial, isIdentifier_second, ?_⟩⟩
  · exact List.forall_mem_singleton.mpr one
  · exact List.forall_mem_singleton.mpr (Expr.written_binary.mpr ⟨written, one⟩)

theorem edited_chainedNumbers {operand operand' : Expr}
    (changed : edit.expr { model } [] .value operand operand') :
    ProgramsEdited edit model [chainedNumbers operand] [chainedNumbers operand'] := by
  have init : (numberDecl "second" (.binary .unplaced .plus operand (.int .unplaced 1))).Edited edit
      { model } [] (numberDecl "second" (.binary .unplaced .plus operand' (.int .unplaced 1))) :=
    .init rfl (.left (.here changed))
  exact @ProgramsEdited.program edit model [] [] _ _
    (@Program.Edited.item edit model (chainedNumbers operand)
      [.globalVariable (numberDecl "first" (.int .unplaced 1))] [] _ _ rfl (.globalVariable init))

/-!
## Ill-typed expressions

Where one expression of an accepted program is exchanged for one in which
typing finds one error, exactly one error is reported.  There is one exception.
Name resolution seeks a member in the type that names and literals decide for
the receiver, whether or not the receiver is well typed.  An ill-typed receiver
must not be given another type there than the receiver before it: behind
`1 - true`, which counts as a number, a member is reported as well.
-/

open Analysis Resolution Typing

/-- An expression in which name resolution finds no error and typing one, that
leaves the expression without a type.  In front of a member, names and literals
decide no other type for it than for the expression before. -/
structure IllTyped (place : NamePlace) (scopes : List Scope) (role : Role) (expr expr' : Expr) :
    Prop where
  resolves : (resolveExpr place scopes expr').tally Finding.isError = 0
  once : (checkExpr place.model (resolveExpr place scopes expr').value).tally Finding.isError = 1
  untyped : (checkExpr place.model (resolveExpr place scopes expr').value).value.2 = .error
  member : role = .receiver → memberTy? place scopes expr' = none ∨
    memberTy? place scopes expr' = memberTy? place scopes expr

/-- An ill-typed expression in one place where an expression stands. -/
def Edit.illTyping : Edit where
  expr := IllTyped
  target _ _ := False
  member _ _ := False

theorem Edit.spoils_illTyping : Edit.illTyping.Spoils fun _ => True where
  target _ _ := False.elim
  member _ _ _ := False.elim
  expr _ _ _ illTyped := by
    refine ⟨?_, .inr illTyped.untyped, fun isReceiver _ _ => illTyped.member isReceiver⟩
    rw [tally_judge, illTyped.resolves, illTyped.once]

/-- In files without error, where an expression is exchanged for an ill-typed
one, exactly one error is reported. -/
theorem errorCount_analyse_of_illTyped {programs programs' : List Program}
    (written : ∀ program ∈ programs, program.Written)
    (fresh : ∀ program ∈ programs, program.scopes = [])
    (clean : (analyse {} programs).readyForCode = true)
    (edited : ProgramsEdited .illTyping (SymbolModel.ofPrograms programs).value programs
      programs') :
    (analyse {} programs').log.errorCount = 1 :=
  errorCount_analyse_of_edited Edit.spoils_illTyping (fun _ _ => trivial) written fresh
    (fun _ _ _ _ => trivial) clean edited

/-- Of two numbers the second is declared with an ill-typed difference in the
place of the first. -/
theorem errorCount_analyse_illTyped_chainedNumbers :
    let programs := [chainedNumbers (.name .unplaced (.unplaced "first"))]
    let programs' := [chainedNumbers (.binary .unplaced .minus (.int .unplaced 1)
      (.bool .unplaced true))]
    (∀ program ∈ programs, program.Written) ∧ (∀ program ∈ programs, program.scopes = []) ∧
      (analyse {} programs).readyForCode = true ∧
        ProgramsEdited .illTyping (SymbolModel.ofPrograms programs).value programs programs' ∧
          (analyse {} programs').log.errorCount = 1 := by
  intro programs programs'
  have written : ∀ program ∈ programs, program.Written :=
    List.forall_mem_singleton.mpr
      (written_chainedNumbers (Expr.written_name.mpr ⟨isIdentifier_first, rfl⟩))
  have fresh : ∀ program ∈ programs, program.scopes = [] := List.forall_mem_singleton.mpr rfl
  have clean : (analyse {} programs).readyForCode = true := by decide +kernel
  have edited : ProgramsEdited .illTyping (SymbolModel.ofPrograms programs).value programs
      programs' := edited_chainedNumbers ⟨rfl, rfl, rfl, nofun⟩
  exact ⟨written, fresh, clean, edited, errorCount_analyse_of_illTyped written fresh clean edited⟩

/-- A file in which a method is called on what an expression gives. -/
def methodOn (receiver : String) : SourceFile :=
  ⟨"main.kn", "class A \x7b fn m(): int \x7b ret 1; \x7d \x7d " ++
    "fn main(): void \x7b A a = new A(); int x = " ++ receiver ++ ".m(); \x7d"⟩

/-- An ill-typed receiver that counts as a number is reported, and so is the
method behind it. -/
theorem errorCount_analyse_numberReceiver :
    (∃ programs, readFiles [methodOn "a"] = .ok programs ∧
      (analyse {} programs).readyForCode = true) ∧
    ∃ programs, readFiles [methodOn "(1 - true)"] = .ok programs ∧
      (analyse {} programs).log.errorCount = 2 := by
  constructor
  · exact exists_of_readWith (readWith_of_letters
      (.cons (.append (.append (.append .literal .literal) .literal) .literal) .nil)
      (by decide +kernel))
  · have counted : readWith (fun programs => decide (
        (SymbolModel.ofPrograms programs).tally Finding.isError +
        (resolveAll programs).tally Finding.isError +
        (checkAll programs).tally Finding.isError = 2))
          [methodOn "(1 - true)"] = true :=
      readWith_of_letters (.cons (.append (.append (.append .literal .literal) .literal) .literal)
        .nil) (by decide +kernel)
    rcases exists_of_readWith counted with ⟨programs, read, isTwo⟩
    exact ⟨programs, read, (errorCount_analyse rfl programs).trans (of_decide_eq_true isTwo)⟩

end KnightFront
