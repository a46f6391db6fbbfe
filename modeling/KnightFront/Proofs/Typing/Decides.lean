import KnightFront.Proofs.Analysis.Reading
import KnightFront.Proofs.Resolution.Clean
import KnightFront.Proofs.Typing.Recorded

namespace KnightFront

/-!
# Checking decides the type system

For files in which name resolution finds no error, the third pass makes no
typing error in a file exactly when that file is well typed, and then it
records the types that the rules give.  Besides, every expression of a well
typed file has a value: its own type is a declared one.
-/

variable {model : SymbolModel}

/-- A linked expression that has a declared type.  It is no name of a
function. -/
structure Expr.Valued (model : SymbolModel) (expr : Expr) : Prop where
  linked : expr.Linked model
  typed : ∃ ty, expr.HasTy model ty ∧ ty.Declared model

/-- Nothing but the function type takes what has the function type. -/
theorem Assignable.declared {expected actual : Ty} (fits : Assignable model expected actual)
    (declared : expected.Declared model) (either : actual.Declared model ∨ actual = .function) :
    actual.Declared model := by
  rcases either with isDeclared | rfl
  · exact isDeclared
  · cases fits with
    | same => exact declared

/-- What fits where a declared type is required has a value. -/
theorem Expr.Fits.valued {expr : Expr} {expected : Ty} (fits : expr.Fits model expected)
    (linked : expr.Linked model) (declared : expected.Declared model) : expr.Valued model := by
  rcases fits with ⟨actual, typed, assignable⟩
  exact ⟨linked, actual, typed, assignable.declared declared (linked.ty typed)⟩

/-- A linked expression of a type that is declared everywhere has a value. -/
theorem Expr.HasTy.valued {expr : Expr} {ty : Ty} (typed : expr.HasTy model ty)
    (linked : expr.Linked model) (declared : ty.Declared model) : expr.Valued model :=
  ⟨linked, ty, typed, declared⟩

/-- A linked expression that has a type, and is no name of a function, has a
value. -/
theorem Expr.HasTy.valued_of_ne_function {expr : Expr} {ty : Ty} (typed : expr.HasTy model ty)
    (linked : expr.Linked model) (plain : ty ≠ .function) : expr.Valued model :=
  typed.valued linked ((linked.ty typed).resolve_right plain)

/-- A receiver of a member is no name of a function. -/
theorem NameUse.MemberOf.valued {receiver : Expr} {used : NameUse} {isLinked : NameUse → Prop}
    (member : used.MemberOf receiver.staticTy? isLinked) (linked : receiver.Linked model) {ty : Ty}
    (typed : receiver.HasTy model ty) : receiver.Valued model :=
  typed.valued_of_ne_function linked (member.linked ty (Expr.staticTy?_of_hasTy typed)).1

/-- The value of a call is of the return type of a declared signature. -/
theorem Expr.Linked.valued_of_isCall {expr : Expr} (linked : expr.Linked model)
    (isCall : expr.isCall = true) {ty : Ty} (typed : expr.HasTy model ty) : expr.Valued model := by
  refine typed.valued linked ?_
  have found := staticTy?_of_hasTy typed
  cases expr with
  | call info callee args => exact linked.1.returnTy found
  | methodCall info receiver callee args =>
      cases typed with
      | methodCall receiverTyped _ _ _ =>
          exact (linked.2.2.linked _ (staticTy?_of_hasTy receiverTyped)).2.returnTy found
  | _ => cases isCall

theorem VarDecl.WellTyped.valued {decl : VarDecl} (wellTyped : decl.WellTyped model)
    (linked : decl.Linked model) : ∀ expr ∈ decl.exprs, expr.Valued model := by
  intro expr member
  have isInit := Option.mem_toList.mp member
  exact (wellTyped.init expr isInit).valued (linked.init expr isInit) linked.ty

theorem Assignment.WellTyped.valued {assignment : Assignment}
    (wellTyped : assignment.WellTyped model) (linked : assignment.Linked model) :
    ∀ expr ∈ assignment.exprs, expr.Valued model := by
  rcases wellTyped with ⟨entity, assigns, typed⟩
  have declared := Typing.declared_of_bound linked.target assigns
  intro expr member
  cases hasIndex : assignment.index with
  | none =>
      rw [hasIndex] at typed
      rw [Assignment.exprs, hasIndex] at member
      cases List.mem_singleton.mp member
      exact typed.valued linked.value declared
  | some index =>
      rw [hasIndex] at typed
      rw [Assignment.exprs, hasIndex] at member
      rcases typed with ⟨indexTyped, element, _, fits⟩
      rcases List.mem_cons.mp member with same | isValue
      · subst same
        exact indexTyped.valued (linked.index _ hasIndex) trivial
      · cases List.mem_singleton.mp isValue
        refine fits.valued linked.value ?_
        cases element <;> exact trivial

theorem Return.WellTyped.valued {returned : Return} {returnTy : Ty}
    (wellTyped : returned.WellTyped model returnTy) (linked : returned.Linked model)
    (declared : returnTy.Declared model) : ∀ expr ∈ returned.exprs, expr.Valued model := by
  intro expr member
  have isValue : returned.value = some expr := Option.mem_toList.mp member
  rw [Return.WellTyped, isValue] at wellTyped
  exact wellTyped.2.valued (linked expr isValue) declared

mutual

/-- The expressions of a well typed statement have values. -/
theorem Stmt.WellTyped.valued {returnTy : Ty} (declared : returnTy.Declared model) :
    ∀ (stmt : Stmt), stmt.WellTyped model returnTy → stmt.Linked model →
      ∀ expr ∈ stmt.exprs, expr.Valued model
  | .varDecl _ decl, wellTyped, linked => VarDecl.WellTyped.valued wellTyped linked
  | .assign assignment, wellTyped, linked => Assignment.WellTyped.valued wellTyped linked
  | .fieldAssign _ receiver used value, wellTyped, linked => by
      rcases wellTyped with ⟨⟨receiverTy, receiverTyped⟩, entity, assigns, fits⟩
      rcases linked with ⟨receiverLinked, member, valueLinked⟩
      have valued := (member.linked _ (Expr.staticTy?_of_hasTy receiverTyped)).2
      simp only [Stmt.exprs, List.forall_mem_cons]
      exact ⟨member.valued receiverLinked receiverTyped,
        fits.valued valueLinked (Typing.declared_of_valued valued assigns), nofun⟩
  | .call _ expr, ⟨ty, typed⟩, linked => by
      simp only [Stmt.exprs, List.forall_mem_cons]
      exact ⟨linked.1.valued_of_isCall linked.2 typed, nofun⟩
  | .ifThen _ condition body, wellTyped, linked =>
      List.forall_mem_cons.mpr ⟨wellTyped.1.valued linked.1 trivial,
        Stmt.WellTyped.valued declared body wellTyped.2 linked.2⟩
  | .ifElse _ condition body alternative, wellTyped, linked =>
      List.forall_mem_cons.mpr ⟨wellTyped.1.valued linked.1 trivial,
        List.forall_mem_append.mpr
          ⟨Stmt.WellTyped.valued declared body wellTyped.2.1 linked.2.1,
            Stmt.WellTyped.valued declared alternative wellTyped.2.2 linked.2.2⟩⟩
  | .whileLoop _ condition body, wellTyped, linked =>
      List.forall_mem_cons.mpr ⟨wellTyped.1.valued linked.1 trivial,
        Stmt.WellTyped.valued declared body wellTyped.2 linked.2⟩
  | .forLoop _ init condition update body _, wellTyped, linked =>
      List.forall_mem_append.mpr ⟨wellTyped.1.valued linked.1,
        List.forall_mem_cons.mpr ⟨wellTyped.2.1.valued linked.2.1 trivial,
          List.forall_mem_append.mpr ⟨wellTyped.2.2.1.valued linked.2.2.1,
            Stmt.WellTyped.valued declared body wellTyped.2.2.2 linked.2.2.2.1⟩⟩⟩
  | .ret _ returned, wellTyped, linked => Return.WellTyped.valued wellTyped linked declared
  | .block _ stmts _, wellTyped, linked =>
      Stmt.WellTypedList.valued declared stmts wellTyped linked.1

theorem Stmt.WellTypedList.valued {returnTy : Ty} (declared : returnTy.Declared model) :
    ∀ (stmts : List Stmt), Stmt.WellTypedList model returnTy stmts →
      Stmt.LinkedList model stmts → ∀ expr ∈ Stmt.exprsOfList stmts, expr.Valued model
  | [], _, _ => nofun
  | first :: rest, wellTyped, linked =>
      List.forall_mem_append.mpr ⟨Stmt.WellTyped.valued declared first wellTyped.1 linked.1,
        Stmt.WellTypedList.valued declared rest wellTyped.2 linked.2⟩

end

theorem FunctionDecl.WellTyped.valued {decl : FunctionDecl} (wellTyped : decl.WellTyped model)
    (linked : decl.Linked model) : ∀ expr ∈ decl.exprs, expr.Valued model := by
  have declared : decl.head.returnTy.Declared model := linked.tys _ List.mem_cons_self
  refine List.forall_mem_append.mpr ⟨?_, ?_⟩
  · exact Stmt.WellTypedList.valued declared decl.body wellTyped.body linked.body
  · intro expr member
    rcases List.mem_flatMap.mp member with ⟨returned, isClosing, inReturn⟩
    have closing := Option.mem_toList.mp isClosing
    exact (wellTyped.closing returned closing).valued (linked.closing returned closing) declared
      expr inReturn

theorem Item.WellTyped.valued {item : Item} (wellTyped : item.WellTyped model)
    (linked : item.Linked model) : ∀ expr ∈ item.exprs, expr.Valued model := by
  cases item with
  | inclusion => exact nofun
  | enumeration => exact nofun
  | interface => exact nofun
  | classDecl decl =>
      refine List.forall_mem_append.mpr ⟨?_, ?_⟩
      · intro expr member
        rcases List.mem_flatMap.mp member with ⟨field, inside, inField⟩
        exact (wellTyped.fields field inside).valued (linked.fields field inside) expr inField
      · intro expr member
        rcases List.mem_flatMap.mp member with ⟨method, inside, inMethod⟩
        exact (wellTyped.methods method inside).valued (linked.methods method inside) expr inMethod
  | function decl => exact FunctionDecl.WellTyped.valued wellTyped linked
  | globalVariable decl => exact VarDecl.WellTyped.valued wellTyped linked

/-- The expressions of a well typed file have values. -/
theorem Program.WellTyped.valued {program : Program} (wellTyped : program.WellTyped model)
    (linked : program.Linked model) : ∀ expr ∈ program.exprs, expr.Valued model := by
  intro expr member
  rcases List.mem_flatMap.mp member with ⟨item, inside, inItem⟩
  exact (wellTyped item inside).valued (linked item inside) expr inItem

/-- Checking a well typed file records on every node the type that the rules
give it. -/
theorem Program.WellTyped.records {program : Program} (wellTyped : program.WellTyped model)
    (linked : program.Linked model) :
    List.Forall₂ (Expr.Records model) program.nodes (program.check model).value.nodes := by
  rw [Program.nodes, Program.nodes, Program.exprs_check]
  refine Typing.records_flatMap_nodes fun expr inside => ?_
  rcases (wellTyped.valued linked expr inside).typed with ⟨ty, typed, _⟩
  exact ⟨ty, typed⟩

section Files

variable {files : List SourceFile} {programs : List Program}

/-- Files that are read and then resolved without error are linked. -/
theorem linked_of_readFiles (read : readFiles files = .ok programs)
    (resolves : (resolveAll programs).Lacks Problem.isError) :
    ∀ program ∈ (resolveAll programs).value,
      program.Linked (SymbolModel.ofPrograms programs).value := by
  have written := forall_of_readFiles read Program.written_ofSource
  have fresh := forall_of_readFiles read Program.scopes_ofSource
  have closed := SymbolModel.closed_of_lacks_resolve written resolves
  rw [resolveAll, Reported.value_mapM]
  intro program member
  rcases List.mem_map.mp member with ⟨plain, inside, same⟩
  subst same
  exact Program.linked_of_lacks_resolve closed (written plain inside) (fresh plain inside)
    ((Reported.lacks_mapM _ _).mp resolves plain inside)

/-- In files in which name resolution finds no error, a file passes the third
pass without an error, conformance aside, exactly when it is well typed.  Then
each of its nodes carries the one type that the rules give it. -/
theorem lacks_check_iff_wellTyped (read : readFiles files = .ok programs)
    (resolves : (resolveAll programs).Lacks Problem.isError) {program : Program}
    (member : program ∈ (resolveAll programs).value) :
    ((program.check (SymbolModel.ofPrograms programs).value).Lacks Problem.isTypingError ↔
        program.WellTyped (SymbolModel.ofPrograms programs).value) ∧
      (program.WellTyped (SymbolModel.ofPrograms programs).value →
        List.Forall₂ (Expr.Records (SymbolModel.ofPrograms programs).value) program.nodes
          (program.check (SymbolModel.ofPrograms programs).value).value.nodes) := by
  have linked := linked_of_readFiles read resolves program member
  exact ⟨Program.lacks_check_iff linked, fun wellTyped => wellTyped.records linked⟩

/-- Two files that use each other: a class, and another one that extends it. -/
def inheritingFiles : List SourceFile :=
  [⟨"base.kn", "class Base \x7b int size; fn grow(int by): int \x7b ret size + by; \x7d \x7d"⟩,
    ⟨"box.kn", "class Box ext Base \x7b Base other = new Box(); \x7d " ++
      "fn main(): string \x7b Box box = new Box(); ret \"size \" + box.grow(1); \x7d"⟩]

/-- Files that extend each other are resolved without error and well typed. -/
theorem wellTyped_inheritingFiles :
    ∃ programs, readFiles inheritingFiles = .ok programs ∧
      (resolveAll programs).Lacks Problem.isError ∧
      ∀ program ∈ (resolveAll programs).value,
        program.WellTyped (SymbolModel.ofPrograms programs).value := by
  have passes : readWith (fun programs => decide ((resolveAll programs).Lacks Problem.isError ∧
      ∀ program ∈ (resolveAll programs).value,
        (program.check (SymbolModel.ofPrograms programs).value).Lacks Problem.isTypingError))
      inheritingFiles = true :=
    readWith_of_letters (.cons .literal (.cons (.append .literal .literal) .nil))
      (by decide +kernel)
  rcases exists_of_readWith passes with ⟨programs, read, clean⟩
  rcases of_decide_eq_true clean with ⟨resolves, checks⟩
  refine ⟨programs, read, resolves, fun program member => ?_⟩
  exact (lacks_check_iff_wellTyped read resolves member).1.mp (checks program member)

end Files

end KnightFront
