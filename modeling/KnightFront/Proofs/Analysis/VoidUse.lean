import KnightFront.Proofs.Symbols.TakesFirst
import KnightFront.Proofs.Typing.Void

namespace KnightFront

/-!
# Void expressions in accepted programs

A void call has no value, so what it gives should not be handed on.  Checking
refuses void variables, and most places exclude void by their types.  But no
pass looks at the types of parameters, and where a parameter is void, void
arguments fit.  So an accepted program keeps void out exactly if it declares no
void parameter, and otherwise nothing but arguments and assigned values let it
in.
-/

namespace Resolution

variable (model : SymbolModel)

theorem heads_resolveMethods (place : NamePlace) (scopes : List Scope)
    (methods : List FunctionDecl) :
    (resolveMethods place scopes methods).value.1.map FunctionDecl.head =
      methods.map FunctionDecl.head := by
  induction methods generalizing scopes with
  | nil => rfl
  | cons first rest inductionHypothesis =>
      exact congrArg (first.head :: ·) (inductionHypothesis _)

/-- Resolution keeps the heads of functions and methods. -/
theorem heads_resolveItem (scopes : List Scope) (item : Item) :
    (resolveItem model scopes item).value.1.heads = item.heads := by
  cases item with
  | classDecl decl => exact heads_resolveMethods _ scopes decl.methods
  | _ => rfl

/-- Resolution keeps the types of fields and global variables. -/
theorem tys_resolveItem (scopes : List Scope) (item : Item) :
    (resolveItem model scopes item).value.1.members.map VarDecl.ty =
      item.members.map VarDecl.ty := by
  cases item with
  | classDecl decl =>
      simp [resolveItem, resolveClass, Item.members, resolveDecl, Function.comp_def]
  | _ => rfl

/-- What resolution keeps of each declaration it keeps of all. -/
theorem map_resolveItems {β : Type} (part : Item → β)
    (kept : ∀ scopes item, part (resolveItem model scopes item).value.1 = part item)
    (scopes : List Scope) (items : List Item) :
    (resolveItems model scopes items).value.1.map part = items.map part := by
  induction items generalizing scopes with
  | nil => rfl
  | cons first rest inductionHypothesis =>
      simp only [resolveItems, Reported.value_bind, Reported.value_pure, List.map_cons, kept,
        inductionHypothesis]

end Resolution

theorem Program.params_resolve (model : SymbolModel) (program : Program) :
    (program.resolve model).value.params = program.params := by
  have heads := Resolution.map_resolveItems model Item.heads (Resolution.heads_resolveItem model)
    program.scopes program.items
  have same := congrArg (fun heads => heads.flatten.flatMap FunctionHead.params) heads
  rwa [← List.flatMap_def, ← List.flatMap_def] at same

theorem Program.tys_resolve (model : SymbolModel) (program : Program) :
    ((program.resolve model).value.items.flatMap Item.members).map VarDecl.ty =
      (program.items.flatMap Item.members).map VarDecl.ty := by
  have tys := Resolution.map_resolveItems model (fun item => item.members.map VarDecl.ty)
    (Resolution.tys_resolveItem model) program.scopes program.items
  calc
    ((program.resolve model).value.items.flatMap Item.members).map VarDecl.ty =
        ((program.resolve model).value.items.map fun item =>
          item.members.map VarDecl.ty).flatten := by
      rw [List.map_flatMap, List.flatMap_def]
    _ = (program.items.map fun item => item.members.map VarDecl.ty).flatten :=
      congrArg List.flatten tys
    _ = (program.items.flatMap Item.members).map VarDecl.ty := by
      rw [List.map_flatMap, List.flatMap_def]

/-- What a declaration brings into the model meets the conditions. -/
structure Item.DeclaresWithin (rule : BindingRule) (item : Item) : Prop where
  members : ∀ decl ∈ item.members, rule.ofTy decl.ty
  heads : ∀ head ∈ item.heads, rule.ofSignature (Declarations.signature head)

theorem mem_of_mem_firsts {δ : Type} {name : δ → String} {member : δ} :
    ∀ {taken : List String} {list : List δ}, member ∈ firsts name taken list → member ∈ list
  | _, [], inside => inside
  | taken, first :: rest, inside => by
      rw [firsts] at inside
      split at inside
      · exact List.mem_cons_of_mem _ (mem_of_mem_firsts inside)
      · rcases List.mem_cons.mp inside with same | behind
        · exact same ▸ List.mem_cons_self
        · exact List.mem_cons_of_mem _ (mem_of_mem_firsts behind)

namespace Declarations

variable {rule : BindingRule} {model : SymbolModel}

/-- What holds of the entries of a table and of new ones holds behind adding
these. -/
theorem forall_entries_foldl_add {α δ : Type} [Named α] {holds : α → Prop} {table : Table α}
    {entry : δ → α} {decls : List δ} (old : ∀ record ∈ table.entries, holds record)
    (new : ∀ decl ∈ decls, holds (entry decl)) :
    ∀ record ∈ ((decls.map entry).foldl Table.add table).entries, holds record := by
  rw [entries_foldl_add, List.forall_mem_append]
  refine ⟨old, fun record member => ?_⟩
  rcases List.mem_map.mp member with ⟨decl, isFirst, rfl⟩
  exact new decl (mem_of_mem_firsts isFirst)

/-- A declaration within the conditions keeps a model within them. -/
theorem meets_addItem (numbers : rule.ofTy .int) (meets : model.Meets rule) {item : Item}
    (within : item.DeclaresWithin rule) : (addItem model item).value.Meets rule := by
  rw [value_addItem]
  have fields : ∀ decl ∈ item.classDecls, ∀ entity ∈ decl.record.fields.entries,
      rule.ofTy entity.ty := by
    intro decl isClass entity member
    rw [decl.entries_fields] at member
    rcases List.mem_map.mp member with ⟨field, isFirst, rfl⟩
    cases item with
    | classDecl own =>
        cases List.mem_singleton.mp isClass
        exact within.members field (mem_of_mem_firsts isFirst)
    | _ => cases isClass
  have methods : ∀ decl ∈ item.classDecls, ∀ method ∈ decl.record.methods.entries,
      rule.ofSignature method.signature := by
    intro decl isClass record member
    rw [decl.entries_methods] at member
    rcases List.mem_map.mp member with ⟨method, isFirst, rfl⟩
    cases item with
    | classDecl own =>
        cases List.mem_singleton.mp isClass
        exact within.heads method.head (List.mem_map_of_mem (mem_of_mem_firsts isFirst))
    | _ => cases isClass
  have interfaceMethods : ∀ decl ∈ item.interfaceDecls, ∀ method ∈ decl.record.methods.entries,
      rule.ofSignature method.signature := by
    intro decl isInterface record member
    rw [decl.entries_methods] at member
    rcases List.mem_map.mp member with ⟨head, isFirst, rfl⟩
    cases item with
    | interface own =>
        cases List.mem_singleton.mp isInterface
        exact within.heads head (mem_of_mem_firsts isFirst)
    | _ => cases isInterface
  have functions : ∀ decl ∈ item.functionDecls, rule.ofSignature decl.record.signature := by
    intro decl isFunction
    cases item with
    | function own =>
        cases List.mem_singleton.mp isFunction
        exact within.heads _ (List.mem_singleton_self _)
    | _ => cases isFunction
  have globals : ∀ decl ∈ item.globalDecls, rule.ofTy decl.entity.ty := by
    intro decl isGlobal
    cases item with
    | enumeration own =>
        rcases List.mem_map.mp isGlobal with ⟨member, _, rfl⟩
        exact numbers
    | globalVariable own =>
        cases List.mem_singleton.mp isGlobal
        exact within.members own (List.mem_singleton_self _)
    | _ => cases isGlobal
  exact
    { fields := forall_entries_foldl_add meets.fields fields
      methods := forall_entries_foldl_add meets.methods methods
      interfaceMethods := forall_entries_foldl_add meets.interfaceMethods interfaceMethods
      functions := forall_entries_foldl_add meets.functions functions
      globals := forall_entries_foldl_add meets.globals globals }

end Declarations

/-- The model of files meets conditions that their declarations and the builtin
functions meet. -/
theorem SymbolModel.meets_ofPrograms {rule : BindingRule} {programs : List Program}
    (numbers : rule.ofTy .int)
    (builtins : ∀ builtin ∈ Builtin.all, rule.ofSignature builtin.record.signature)
    (within : ∀ program ∈ programs, ∀ item ∈ program.items, item.DeclaresWithin rule) :
    (ofPrograms programs).value.Meets rule := by
  have start : withBuiltins.Meets rule := by
    have listed : withBuiltins.functions.entries = Builtin.all.map Builtin.record := rfl
    refine ⟨nofun, nofun, nofun, fun record member => ?_, nofun⟩
    rw [listed] at member
    rcases List.mem_map.mp member with ⟨builtin, isBuiltin, rfl⟩
    exact builtins builtin isBuiltin
  refine ofPrograms_of_invariant (SymbolModel.Meets rule) start ?_
  exact fun model meets program inFiles item member =>
    Declarations.meets_addItem numbers meets (within program inFiles item member)

/-- Whether some function, method or interface method has a void parameter. -/
def DeclaresVoidParam (programs : List Program) : Prop :=
  ∃ program ∈ programs, ∃ param ∈ program.params, param.ty = .void

/-- A file in which nothing void is declared, and an expression is void only
where it is a call that stands alone. -/
structure Program.KeepsVoidOut (program : Program) : Prop where
  varDecls : ∀ decl ∈ program.varDecls, decl.ty ≠ .void
  params : ∀ param ∈ program.params, param.ty ≠ .void
  places : ∀ place ∈ program.places, place.2.ty = some .void →
    place.1 = .standing ∧ place.2.isCall = true

section Files

variable {files : List SourceFile} {programs : List Program}

/-- The model of well typed files has void variables and parameters only if a
parameter is declared void. -/
theorem meets_voidOnlyIf (typed : ∀ program ∈ (resolveAll programs).value,
      program.WellTyped (SymbolModel.ofPrograms programs).value) :
    (SymbolModel.ofPrograms programs).value.Meets
      (voidOnlyIf (DeclaresVoidParam programs)) := by
  have builtins : ∀ builtin ∈ Builtin.all,
      .void ∉ builtin.record.signature.parameterTys := by decide
  refine SymbolModel.meets_ofPrograms nofun
    (fun builtin isBuiltin isVoid => absurd isVoid (builtins builtin isBuiltin)) ?_
  intro program inside item member
  constructor
  · intro decl isMember isVoid
    have listed : decl.ty ∈ (program.items.flatMap Item.members).map VarDecl.ty :=
      List.mem_map_of_mem (List.mem_flatMap.mpr ⟨item, member, isMember⟩)
    rw [← Program.tys_resolve (SymbolModel.ofPrograms programs).value] at listed
    rcases List.mem_map.mp listed with ⟨resolved, isResolved, same⟩
    have resolvedTyped := typed (program.resolve (SymbolModel.ofPrograms programs).value).value
      (by rw [resolveAll, Reported.value_mapM]; exact List.mem_map_of_mem inside)
    exact absurd (same.trans isVoid)
      (resolvedTyped.varDecls_ne_void resolved (List.mem_append_left _ isResolved))
  · intro head isHead isVoid
    rcases List.mem_map.mp isVoid with ⟨_, isParameter, sameTy⟩
    rcases List.mem_map.mp isParameter with ⟨param, isParam, rfl⟩
    exact ⟨program, inside, param, List.mem_flatMap.mpr
      ⟨head, List.mem_flatMap.mpr ⟨item, member, isHead⟩, isParam⟩, sameTy⟩

/-- The places of an accepted file take void as far as parameters do, and none
of its variables is void. -/
theorem voidStands_of_readFiles (read : readFiles files = .ok programs)
    (resolves : (resolveAll programs).Lacks Problem.isError)
    (typed : ∀ program ∈ (resolveAll programs).value,
      program.WellTyped (SymbolModel.ofPrograms programs).value)
    {program : Program} (inside : program ∈ (resolveAll programs).value) :
    VoidStands (SymbolModel.ofPrograms programs).value (DeclaresVoidParam programs)
      program.places := by
  have written := forall_of_readFiles read Program.written_ofSource
  have fresh := forall_of_readFiles read Program.scopes_ofSource
  have linked := linked_of_readFiles read resolves program inside
  have wellTyped := typed program inside
  refine wellTyped.voidStands linked ?_
  rw [resolveAll, Reported.value_mapM] at inside
  rcases List.mem_map.mp inside with ⟨plain, isPlain, rfl⟩
  refine Program.meets_resolve (meets_voidOnlyIf typed) (written plain isPlain)
    (fresh plain isPlain) fun decl isBody => ⟨?_, ?_⟩
  · intro param isParam isVoid
    rcases List.mem_flatMap.mp isBody with ⟨item, isItem, inItem⟩
    have inHeads : decl.head ∈ item.heads := by
      cases item with
      | classDecl owner => exact List.mem_map_of_mem inItem
      | function own =>
          cases List.mem_singleton.mp inItem
          exact List.mem_singleton_self _
      | _ => cases inItem
    refine ⟨plain, isPlain, param, ?_, isVoid⟩
    rw [← Program.params_resolve (SymbolModel.ofPrograms programs).value]
    exact List.mem_flatMap.mpr ⟨decl.head, List.mem_flatMap.mpr ⟨item, isItem, inHeads⟩, isParam⟩
  · intro stmt inBody own declares isVoid
    refine absurd isVoid (wellTyped.varDecls_ne_void own (List.mem_append_right _ ?_))
    exact List.mem_flatMap.mpr ⟨decl, isBody, List.mem_flatMap.mpr ⟨stmt, inBody, declares⟩⟩

/-- The type recorded in a place of a well typed file is the one that the rules
give. -/
theorem hasTy_of_ty_checked {model : SymbolModel} {program : Program}
    (typed : program.WellTyped model) (linked : program.Linked model)
    {place : ExprRole × Expr} (inside : place ∈ program.places) {ty : Ty}
    (recorded : (place.2.checked model).ty = some ty) : place.2.HasTy model ty := by
  have isNode : place.2 ∈ program.nodes :=
    program.perm_places.mem_iff.mp (List.mem_map_of_mem inside)
  rcases List.mem_flatMap.mp isNode with ⟨expr, inExprs, inExpr⟩
  rcases (Expr.Valued.nodes expr (typed.valued linked expr inExprs) place.2 inExpr).typed with
    ⟨own, ownTyped, _⟩
  rcases Typing.records_checked ownTyped with ⟨found, unique, carries⟩
  rw [Expr.ty, carries] at recorded
  cases recorded
  exact (unique ty).mpr rfl

/-- In an accepted program no variable is void, and a void expression is a call
that stands alone or, if a void parameter is declared somewhere, an argument or
an assigned value.  So nothing void is ever handed on exactly if no parameter is
void. -/
theorem Compilation.void_of_readyForCode {options : Options} {compilation : Compilation}
    (compiled : compile options files = .ok compilation)
    (ready : compilation.readyForCode = true) :
    (∀ program ∈ compilation.programs,
      (∀ decl ∈ program.varDecls, decl.ty ≠ .void) ∧
        ∀ place ∈ program.places, place.2.ty = some .void →
          TakesVoid (DeclaresVoidParam compilation.programs) place) ∧
      ((∀ program ∈ compilation.programs, program.KeepsVoidOut) ↔
        ¬ DeclaresVoidParam compilation.programs) := by
  unfold compile at compiled
  cases read : readFiles files with
  | error failure => rw [read] at compiled; cases compiled
  | ok programs =>
      rw [read] at compiled
      cases compiled
      rcases passes_of_readyForCode ready with ⟨_, resolves, checks, same⟩
      have linked := linked_of_readFiles read resolves
      have typed : ∀ program ∈ (resolveAll programs).value,
          program.WellTyped (SymbolModel.ofPrograms programs).value := by
        intro program inside
        have clean := ((Reported.lacks_mapM _ _).mp checks program inside).mono
          fun _ => Problem.isTypingError_of_isError
        exact (Program.lacks_check_iff (linked program inside)).mp clean
      have declares : DeclaresVoidParam (analyse options programs).programs ↔
          DeclaresVoidParam programs := by
        rw [same, Reported.value_mapM, resolveAll, Reported.value_mapM]
        simp [DeclaresVoidParam, Program.params_check, Program.params_resolve]
      have contained : ∀ program ∈ (analyse options programs).programs,
          (∀ decl ∈ program.varDecls, decl.ty ≠ .void) ∧
            ∀ place ∈ program.places, place.2.ty = some .void →
              TakesVoid (DeclaresVoidParam (analyse options programs).programs) place := by
        rw [declares, same, Reported.value_mapM]
        intro program member
        rcases List.mem_map.mp member with ⟨resolved, inside, rfl⟩
        rw [Program.varDecls_check, Program.places_check]
        constructor
        · intro decl isChecked
          rcases List.mem_map.mp isChecked with ⟨plain, isDecl, rfl⟩
          rw [Typing.ty_checkDecl]
          exact (typed resolved inside).varDecls_ne_void plain isDecl
        · intro place isChecked isVoid
          rcases List.mem_map.mp isChecked with ⟨plain, isPlace, rfl⟩
          have plainVoid := hasTy_of_ty_checked (typed resolved inside) (linked resolved inside)
            isPlace isVoid
          have takes := voidStands_of_readFiles read resolves typed inside plain isPlace plainVoid
          rwa [TakesVoid, Typing.isCall_checkPlace]
      refine ⟨contained, ⟨?_, ?_⟩⟩
      · rintro keeps ⟨program, inside, param, isParam, isVoid⟩
        exact (keeps program inside).params param isParam isVoid
      · intro plain program inside
        refine ⟨(contained program inside).1, ?_, ?_⟩
        · exact fun param isParam isVoid => plain ⟨program, inside, param, isParam, isVoid⟩
        · intro place isPlace isVoid
          exact ((contained program inside).2 place isPlace isVoid).resolve_right
            fun handedOn => plain handedOn.2

end Files

/-- A file whose function takes nothing, and is given the outcome of another
function that returns nothing. -/
def nothingFile : SourceFile :=
  ⟨"main.knight",
    "fn f(void v): void \x7b \x7d fn g(): void \x7b \x7d fn main(): void \x7b f(g()); \x7d"⟩

/-- The file is accepted, and it does not keep void out. -/
theorem Compilation.handsOnVoid_nothingFile :
    ∃ compilation, compile {} [nothingFile] = .ok compilation ∧
      compilation.readyForCode = true ∧
        ¬ ∀ program ∈ compilation.programs, program.KeepsVoidOut := by
  have passes : readWith (fun programs =>
      (analyse {} programs).readyForCode &&
        (analyse {} programs).programs.any fun program =>
          program.params.any fun param => decide (param.ty = .void)) [nothingFile] = true :=
    readWith_of_letters (.cons .literal .nil) (by decide +kernel)
  rcases exists_of_readWith passes with ⟨programs, read, holds⟩
  rcases (Bool.and_eq_true _ _).mp holds with ⟨ready, declares⟩
  have compiled : compile {} [nothingFile] = .ok (analyse {} programs) := by
    rw [compile, read]
    rfl
  refine ⟨_, compiled, ready, fun keeps => ?_⟩
  refine (void_of_readyForCode compiled ready).2.mp keeps ?_
  simpa [DeclaresVoidParam, List.any_eq_true] using declares

end KnightFront
