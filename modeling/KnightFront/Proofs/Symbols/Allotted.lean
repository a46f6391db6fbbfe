import KnightFront.Proofs.Symbols.FirstDeclared
import KnightFront.Proofs.Tree.Traversal

namespace KnightFront

/-!
# Slots of locals

The locals of a function take slots behind its parameters, in the order of the
text.  A declaration whose name is declared in its own block already takes none
and is reported.  All this can be told from the statements alone, and
`Stmt.allotted` tells it: it lists every declaration of a local with the slot
that it takes.  The first pass collects what is allotted and reports the rest.
-/

/-- A declaration of a local and the slot that it takes, if it takes one. -/
structure Allotment where
  decl : VarDecl
  slot : Option Nat

namespace Allotment

/-- The local with its slot. -/
def entity? (allotment : Allotment) : Option Variable :=
  allotment.slot.map fun slot =>
    ⟨allotment.decl.name, allotment.decl.ty, some slot, allotment.decl.nameSpan.start⟩

/-- The finding on a declaration that takes no slot. -/
def repeat? (display : String) (allotment : Allotment) : Option Finding :=
  match allotment.slot with
  | some _ => none
  | none => some ⟨allotment.decl.nameSpan.start, .duplicateLocal allotment.decl.name display⟩

/-- The locals among declarations. -/
def entities (allotments : List Allotment) : List Variable := allotments.filterMap entity?

/-- The findings on declarations. -/
def repeats (display : String) (allotments : List Allotment) : List Finding :=
  allotments.filterMap (repeat? display)

section Lists

variable {display : String} {first : Allotment} {front back : List Allotment}

@[simp]
theorem entities_nil : entities [] = [] := rfl

@[simp]
theorem repeats_nil : repeats display [] = [] := rfl

@[simp]
theorem entities_append : entities (front ++ back) = entities front ++ entities back :=
  List.filterMap_append

@[simp]
theorem repeats_append : repeats display (front ++ back) = repeats display front ++ repeats display back :=
  List.filterMap_append

end Lists

end Allotment

open Allotment (entities repeats)

/-- A declaration takes the next slot unless its name is taken. -/
def VarDecl.allotted (taken : List String) (next : Nat) (decl : VarDecl) : Allotment :=
  ⟨decl, if decl.name ∈ taken then none else some next⟩

namespace VarDecl

variable {taken : List String} {next : Nat} {decl : VarDecl}

theorem entities_of_mem (isTaken : decl.name ∈ taken) :
    entities [decl.allotted taken next] = [] := by
  simp [allotted, entities, Allotment.entity?, isTaken]

theorem entities_of_not_mem (free : decl.name ∉ taken) :
    entities [decl.allotted taken next] =
      [⟨decl.name, decl.ty, some next, decl.nameSpan.start⟩] := by
  simp [allotted, entities, Allotment.entity?, free]

end VarDecl

namespace Stmt

/-- The names that are taken in a block behind a statement. -/
def takes (taken : List String) : Stmt → List String
  | varDecl _ decl => taken.insert decl.name
  | _ => taken

mutual

/-- The declarations of a statement in a block where some names are taken, with
the slots that they take.  No name is taken where a block, a condition or a loop
begins. -/
def allotted (taken : List String) (next : Nat) : Stmt → List Allotment
  | varDecl _ decl => [decl.allotted taken next]
  | ifThen _ _ body => allotted [] next body
  | ifElse _ _ body alternative =>
      let front := allotted [] next body
      front ++ allotted [] (next + (entities front).length) alternative
  | whileLoop _ _ body => allotted [] next body
  | forLoop _ init _ _ body _ => init.allotted [] next :: allotted [] (next + 1) body
  | block _ stmts _ => allottedOfList [] next stmts
  | assign _ | fieldAssign .. | call .. | ret .. => []

/-- The declarations of statements one after another in one block. -/
def allottedOfList (taken : List String) (next : Nat) : List Stmt → List Allotment
  | [] => []
  | first :: rest =>
      let front := allotted taken next first
      front ++ allottedOfList (takes taken first) (next + (entities front).length) rest

end

mutual

/-- Every declaration is listed once, in the order of the text. -/
theorem map_decl_allotted (taken : List String) (next : Nat) :
    (stmt : Stmt) → (stmt.allotted taken next).map Allotment.decl = stmt.nodes.flatMap decls
  | .varDecl _ decl => rfl
  | .ifThen _ _ body => map_decl_allotted [] next body
  | .ifElse _ _ body alternative => by
      simp [allotted, nodes, decls, map_decl_allotted _ _ body, map_decl_allotted _ _ alternative]
  | .whileLoop _ _ body => map_decl_allotted [] next body
  | .forLoop _ init _ _ body _ => by
      simp [allotted, nodes, decls, VarDecl.allotted, map_decl_allotted _ _ body]
  | .block _ stmts _ => map_decl_allottedOfList [] next stmts
  | .assign _ | .fieldAssign .. | .call .. | .ret .. => rfl

theorem map_decl_allottedOfList (taken : List String) (next : Nat) :
    (stmts : List Stmt) →
      (allottedOfList taken next stmts).map Allotment.decl = (nodesOfList stmts).flatMap decls
  | [] => rfl
  | first :: rest => by
      simp [allottedOfList, nodesOfList, map_decl_allotted _ _ first,
        map_decl_allottedOfList _ _ rest]

end

end Stmt

/-- Declarations take the slots from a number on, one after another. -/
def Allotment.InTurn (next : Nat) (allotments : List Allotment) : Prop :=
  allotments.filterMap Allotment.slot = List.range' next (entities allotments).length

namespace Allotment.InTurn

variable {next : Nat} {front back : List Allotment}

theorem append (early : InTurn next front)
    (late : InTurn (next + (entities front).length) back) : InTurn next (front ++ back) := by
  calc
    (front ++ back).filterMap slot = front.filterMap slot ++ back.filterMap slot :=
      List.filterMap_append
    _ = List.range' next (entities front).length ++
          List.range' (next + (entities front).length) (entities back).length := by
      rw [early, late]
    _ = List.range' next ((entities front).length + (entities back).length) :=
      List.range'_append_1
    _ = List.range' next (entities (front ++ back)).length := by
      rw [entities_append, List.length_append]

theorem single (taken : List String) (next : Nat) (decl : VarDecl) :
    InTurn next [decl.allotted taken next] := by
  by_cases isTaken : decl.name ∈ taken <;>
    simp [InTurn, VarDecl.allotted, entities, entity?, isTaken]

end Allotment.InTurn

namespace Stmt

open Allotment (InTurn)

@[simp]
theorem entities_allotted_empty (next : Nat) (decl : VarDecl) (rest : List Allotment) :
    entities (decl.allotted [] next :: rest) =
      ⟨decl.name, decl.ty, some next, decl.nameSpan.start⟩ :: entities rest := rfl

@[simp]
theorem repeats_allotted_empty (display : String) (next : Nat) (decl : VarDecl)
    (rest : List Allotment) : repeats display (decl.allotted [] next :: rest) = repeats display rest :=
  rfl

mutual

/-- The slots of a statement follow one another. -/
theorem inTurn_allotted (taken : List String) (next : Nat) :
    (stmt : Stmt) → InTurn next (stmt.allotted taken next)
  | .varDecl _ decl => .single taken next decl
  | .ifThen _ _ body => inTurn_allotted [] next body
  | .ifElse _ _ body alternative =>
      (inTurn_allotted [] next body).append (inTurn_allotted [] _ alternative)
  | .whileLoop _ _ body => inTurn_allotted [] next body
  | .forLoop _ init _ _ body _ =>
      (InTurn.single [] next init).append (inTurn_allotted [] (next + 1) body)
  | .block _ stmts _ => inTurn_allottedOfList [] next stmts
  | .assign _ | .fieldAssign .. | .call .. | .ret .. => rfl

theorem inTurn_allottedOfList (taken : List String) (next : Nat) :
    (stmts : List Stmt) → InTurn next (allottedOfList taken next stmts)
  | [] => rfl
  | first :: rest =>
      (inTurn_allotted taken next first).append (inTurn_allottedOfList _ _ rest)

end

end Stmt

namespace FunctionDecl

/-- The declarations of locals in a function, with the slots that they take.
The body belongs to the same block as the parameters. -/
def allotted (decl : FunctionDecl) : List Allotment :=
  Stmt.allottedOfList (decl.head.params.map Param.name) decl.head.params.length decl.body

/-- The parameters of a function by name, each at its place. -/
def paramTable (decl : FunctionDecl) : Table Variable :=
  (decl.head.params.mapIdx Declarations.paramVariable).foldl Table.add .empty

end FunctionDecl

/-! ## What is collected -/

namespace Declarations

/-- The locals of a state and those of declarations behind them. -/
def LocalState.take (state : LocalState) (allotments : List Allotment) : LocalState :=
  ⟨(entities allotments).foldl Table.add state.locals,
    state.nextSlot + (entities allotments).length⟩

theorem LocalState.take_append (state : LocalState) (front back : List Allotment) :
    state.take (front ++ back) = (state.take front).take back := by
  simp [take, Nat.add_assoc]

@[simp]
theorem LocalState.nextSlot_take (state : LocalState) (allotments : List Allotment) :
    (state.take allotments).nextSlot = state.nextSlot + (entities allotments).length := rfl

/-- A declaration is collected as it is allotted. -/
theorem declareLocal_eq (display : String) (taken : List String) (state : LocalState)
    (decl : VarDecl) :
    declareLocal display taken state decl =
      ⟨(taken.insert decl.name, state.take [decl.allotted taken state.nextSlot]),
        repeats display [decl.allotted taken state.nextSlot]⟩ := by
  by_cases isTaken : decl.name ∈ taken
  · rw [declareLocal, if_pos (List.contains_iff_mem.mpr isTaken), List.insert_of_mem isTaken]
    simp [VarDecl.allotted, isTaken, LocalState.take, entities, repeats, Allotment.entity?,
      Allotment.repeat?]
    rfl
  · rw [declareLocal, if_neg (mt List.contains_iff_mem.mp isTaken),
      List.insert_of_not_mem isTaken]
    simp [VarDecl.allotted, isTaken, LocalState.take, entities, repeats, Allotment.entity?,
      Allotment.repeat?]
    rfl

mutual

/-- The locals of a statement are collected as they are allotted. -/
theorem collectLocals_eq (display : String) (taken : List String) (state : LocalState) :
    (stmt : Stmt) → collectLocals display taken state stmt =
      ⟨(stmt.takes taken, state.take (stmt.allotted taken state.nextSlot)),
        repeats display (stmt.allotted taken state.nextSlot)⟩
  | .varDecl _ decl => declareLocal_eq display taken state decl
  | .ifThen _ _ body => by
      apply Reported.ext <;>
        simp [collectLocals, collectLocals_eq display [] state body, Stmt.allotted, Stmt.takes]
  | .ifElse _ _ body alternative => by
      apply Reported.ext <;>
        simp [collectLocals, collectLocals_eq display [] state body,
          collectLocals_eq display [] _ alternative, Stmt.allotted, Stmt.takes,
          LocalState.take_append]
  | .whileLoop _ _ body => by
      apply Reported.ext <;>
        simp [collectLocals, collectLocals_eq display [] state body, Stmt.allotted, Stmt.takes]
  | .forLoop info init condition update body scope => by
      have parts : (Stmt.forLoop info init condition update body scope).allotted taken
          state.nextSlot = [init.allotted [] state.nextSlot] ++
            body.allotted [] (state.take [init.allotted [] state.nextSlot]).nextSlot := rfl
      rw [parts, LocalState.take_append, Allotment.repeats_append, collectLocals,
        declareLocal_eq display [] state init]
      apply Reported.ext <;> simp [collectLocals_eq display [] _ body, Stmt.takes]
  | .block _ stmts _ => by
      apply Reported.ext <;>
        simp [collectLocals, collectLocalsOfList_eq display [] state stmts, Stmt.allotted,
          Stmt.takes]
  | .assign _ | .fieldAssign .. | .call .. | .ret .. => rfl

theorem collectLocalsOfList_eq (display : String) (taken : List String) (state : LocalState) :
    (stmts : List Stmt) → collectLocalsOfList display taken state stmts =
      ⟨(stmts.foldl Stmt.takes taken, state.take (Stmt.allottedOfList taken state.nextSlot stmts)),
        repeats display (Stmt.allottedOfList taken state.nextSlot stmts)⟩
  | [] => rfl
  | first :: rest => by
      apply Reported.ext <;>
        simp [collectLocalsOfList, collectLocals_eq display taken state first,
          collectLocalsOfList_eq display _ _ rest, Stmt.allottedOfList, LocalState.take_append]

end

/-- What records of parameters have from their parameters does not depend on
their slots. -/
theorem map_mapIdx_paramVariable {β : Type} {ofEntity : Variable → β} {ofParam : Param → β}
    (same : ∀ slot param, ofEntity (paramVariable slot param) = ofParam param)
    (params : List Param) : (params.mapIdx paramVariable).map ofEntity = params.map ofParam := by
  calc
    (params.mapIdx paramVariable).map ofEntity =
        params.zipIdx.map fun indexed => ofEntity (paramVariable indexed.2 indexed.1) := by
      rw [List.mapIdx_eq_zipIdx_map, List.map_map]
      rfl
    _ = params.zipIdx.map fun indexed => ofParam indexed.1 := by simp only [same]
    _ = (params.zipIdx.map Prod.fst).map ofParam := List.map_map.symm
    _ = params.map ofParam := by rw [List.zipIdx_map_fst]

/-- A function is recorded with its parameters and with the locals that are
allotted, and the other declarations are reported behind repeated parameters. -/
theorem functionRecord_eq (display : String) (decl : FunctionDecl) :
    (functionRecord display decl).value.locals =
        (entities decl.allotted).foldl Table.add decl.paramTable ∧
      (functionRecord display decl).findings =
        (reportRepeatedParams display [] decl.head.params).findings ++
          repeats display decl.allotted := by
  have names : (decl.head.params.mapIdx paramVariable).map Variable.name =
      decl.head.params.map Param.name := map_mapIdx_paramVariable (fun _ _ => rfl) _
  simp [functionRecord, collectLocalsOfList_eq, names, LocalState.take, FunctionDecl.allotted,
    FunctionDecl.paramTable]

end Declarations

/-- Whether a problem is that the name of a local is taken. -/
def Problem.isRepeatedLocal : Problem → Bool
  | duplicateLocal .. => true
  | _ => false

namespace Reported

variable {α β : Type}

/-- The findings of a pass that the name of a local is taken. -/
def repeatedLocals (pass : Reported α) : List Finding :=
  pass.findings.filter fun finding => finding.problem.isRepeatedLocal

@[simp]
theorem repeatedLocals_pure (value : α) : (pure value : Reported α).repeatedLocals = [] := rfl

@[simp]
theorem repeatedLocals_bind (first : Reported α) (next : α → Reported β) :
    (first >>= next).repeatedLocals =
      first.repeatedLocals ++ (next first.value).repeatedLocals := by
  simp [repeatedLocals]

@[simp]
theorem repeatedLocals_map (change : α → β) (pass : Reported α) :
    (change <$> pass).repeatedLocals = pass.repeatedLocals := by
  simp [repeatedLocals]

/-- Where no such finding is made, none is listed. -/
theorem repeatedLocals_of_lacks {pass : Reported α} (lacks : pass.Lacks Problem.isRepeatedLocal) :
    pass.repeatedLocals = [] :=
  List.filter_eq_nil_iff.mpr fun finding member => by simp [lacks finding member]

/-- What each step reports, the pass reports of all items. -/
theorem repeatedLocals_foldlM {σ ι : Type} {step : σ → ι → Reported σ} {part : ι → List Finding}
    (each : ∀ state item, (step state item).repeatedLocals = part item) (items : List ι)
    (state : σ) : (items.foldlM step state).repeatedLocals = items.flatMap part := by
  induction items generalizing state with
  | nil => rfl
  | cons first rest inductionHypothesis =>
      calc
        ((first :: rest).foldlM step state).repeatedLocals =
            (step state first).repeatedLocals ++
              (rest.foldlM step (step state first).value).repeatedLocals := by
          rw [List.foldlM_cons, repeatedLocals_bind]
        _ = part first ++ rest.flatMap part := by rw [each, inductionHypothesis]
        _ = (first :: rest).flatMap part := List.flatMap_cons.symm

theorem repeatedLocals_foldlM_eq_nil {σ ι : Type} {step : σ → ι → Reported σ}
    (none : ∀ state item, (step state item).repeatedLocals = []) (items : List ι) (state : σ) :
    (items.foldlM step state).repeatedLocals = [] := by
  rw [repeatedLocals_foldlM none, List.flatMap_eq_nil_iff]
  exact fun _ _ => rfl

end Reported

namespace Declarations

theorem lacks_repeatedLocal_reportRepeatedParams (display : String) (seen : List String)
    (params : List Param) :
    (reportRepeatedParams display seen params).Lacks Problem.isRepeatedLocal := by
  induction params generalizing seen with
  | nil => simp [reportRepeatedParams]
  | cons first rest inductionHypothesis =>
      simp [reportRepeatedParams, inductionHypothesis, Problem.isRepeatedLocal]

theorem isRepeatedLocal_of_mem_repeats {display : String} {allotments : List Allotment}
    {finding : Finding} (member : finding ∈ repeats display allotments) :
    finding.problem.isRepeatedLocal = true := by
  rcases List.mem_filterMap.mp member with ⟨allotment, -, made⟩
  unfold Allotment.repeat? at made
  split at made
  · cases made
  · cases made
    rfl

/-- Of the locals of a function, those that take no slot are reported. -/
theorem repeatedLocals_functionRecord (display : String) (decl : FunctionDecl) :
    (functionRecord display decl).repeatedLocals = repeats display decl.allotted := by
  rw [Reported.repeatedLocals, (functionRecord_eq display decl).2, List.filter_append,
    List.filter_eq_self.mpr fun finding => isRepeatedLocal_of_mem_repeats]
  have params : (reportRepeatedParams display [] decl.head.params).repeatedLocals = [] :=
    Reported.repeatedLocals_of_lacks (lacks_repeatedLocal_reportRepeatedParams display [] _)
  rw [Reported.repeatedLocals] at params
  rw [params, List.nil_append]

theorem repeatedLocals_addEntry {α : Type} [Named α] (table : Table α) (entry : α)
    (position : Position) {problem : Problem} (other : problem.isRepeatedLocal = false) :
    (addEntry table entry position problem).repeatedLocals = [] :=
  Reported.repeatedLocals_of_lacks (by simp [addEntry, other])

theorem repeatedLocals_fieldTable (decl : ClassDecl) : (fieldTable decl).repeatedLocals = [] :=
  Reported.repeatedLocals_foldlM_eq_nil (fun _ _ => repeatedLocals_addEntry _ _ _ rfl) _ _

theorem repeatedLocals_headTable (decl : InterfaceDecl) : (headTable decl).repeatedLocals = [] := by
  refine Reported.repeatedLocals_foldlM_eq_nil (fun table head => ?_) _ _
  rw [Reported.repeatedLocals_bind, repeatedLocals_addEntry _ _ _ rfl, List.append_nil]
  exact Reported.repeatedLocals_of_lacks (lacks_repeatedLocal_reportRepeatedParams _ _ _)

theorem repeatedLocals_methodTable (decl : ClassDecl) :
    (methodTable decl).repeatedLocals = decl.methods.flatMap fun method =>
      repeats (decl.name ++ "." ++ method.head.name) method.allotted := by
  refine Reported.repeatedLocals_foldlM (fun table method => ?_) _ _
  rw [Reported.repeatedLocals_bind, repeatedLocals_functionRecord,
    repeatedLocals_addEntry _ _ _ rfl, List.append_nil]

end Declarations

namespace SymbolModel

/-- The functions that an item makes the first pass record in a model, with
their display names.  A class whose name is taken is not looked into. -/
def builds (model : SymbolModel) : Item → List (String × FunctionDecl)
  | .classDecl decl =>
      if model.classes.contains decl.name then []
      else decl.methods.map fun method => (decl.name ++ "." ++ method.head.name, method)
  | .function decl => [(decl.head.name, decl)]
  | _ => []

/-- The functions that items one after another make the first pass record. -/
def buildsAll (model : SymbolModel) : List Item → List (String × FunctionDecl)
  | [] => []
  | first :: rest =>
      model.builds first ++ buildsAll (Declarations.addItem model first).value rest

end SymbolModel

namespace Declarations

/-- The locals that an item repeats are those that its functions repeat. -/
theorem repeatedLocals_addItem (model : SymbolModel) (item : Item) :
    (addItem model item).repeatedLocals =
      (model.builds item).flatMap fun built => repeats built.1 built.2.allotted := by
  cases item with
  | inclusion decl => rfl
  | enumeration decl =>
      refine Reported.repeatedLocals_foldlM_eq_nil (fun model member => ?_) _ _
      rw [Reported.repeatedLocals_bind, repeatedLocals_addEntry _ _ _ rfl]
      rfl
  | interface decl =>
      by_cases taken : model.interfaces.contains decl.name = true
      · simp [addItem, addInterface, taken, SymbolModel.builds]
        rfl
      · simp [addItem, addInterface, taken, repeatedLocals_headTable, SymbolModel.builds]
  | classDecl decl =>
      by_cases taken : model.classes.contains decl.name = true
      · simp [addItem, addClass, taken, SymbolModel.builds]
        rfl
      · simp [addItem, addClass, taken, repeatedLocals_fieldTable, repeatedLocals_methodTable,
          SymbolModel.builds, List.flatMap_map]
  | function decl =>
      simp [addItem, repeatedLocals_functionRecord, SymbolModel.builds,
        repeatedLocals_addEntry _ _ _ (show (Problem.duplicateFunction _).isRepeatedLocal = _ from rfl)]
  | globalVariable decl =>
      simp [addItem, SymbolModel.builds,
        repeatedLocals_addEntry _ _ _ (show (Problem.duplicateVariable _).isRepeatedLocal = _ from rfl)]

/-- The locals that items repeat are those that their functions repeat. -/
theorem repeatedLocals_addItems (items : List Item) (model : SymbolModel) :
    (items.foldlM addItem model).repeatedLocals =
      (model.buildsAll items).flatMap fun built => repeats built.1 built.2.allotted := by
  induction items generalizing model with
  | nil => rfl
  | cons first rest inductionHypothesis =>
      let next := (addItem model first).value
      calc
        ((first :: rest).foldlM addItem model).repeatedLocals =
            (addItem model first).repeatedLocals ++
              (rest.foldlM addItem next).repeatedLocals := by
          rw [List.foldlM_cons, Reported.repeatedLocals_bind]
        _ = ((model.builds first).flatMap fun built => repeats built.1 built.2.allotted) ++
              (next.buildsAll rest).flatMap fun built => repeats built.1 built.2.allotted := by
          rw [repeatedLocals_addItem, inductionHypothesis]
        _ = (model.buildsAll (first :: rest)).flatMap fun built =>
              repeats built.1 built.2.allotted := List.flatMap_append.symm

end Declarations

/-- The first pass reports the locals that the functions it records repeat. -/
theorem SymbolModel.repeatedLocals_ofPrograms (programs : List Program) :
    (ofPrograms programs).repeatedLocals =
      (withBuiltins.buildsAll (programs.flatMap Program.items)).flatMap fun built =>
        repeats built.1 built.2.allotted := by
  have cycles (model : SymbolModel) :
      (⟨model, Declarations.cycleFindings model⟩ : Reported SymbolModel).repeatedLocals = [] :=
    Reported.repeatedLocals_of_lacks
      (Declarations.lacks_cycleFindings model (fun _ => rfl) fun _ => rfl)
  calc
    (ofPrograms programs).repeatedLocals =
        ((programs.flatMap Program.items).foldlM Declarations.addItem
          withBuiltins).repeatedLocals := by
      rw [ofPrograms_eq, Reported.repeatedLocals_bind, cycles, List.append_nil]
    _ = (withBuiltins.buildsAll (programs.flatMap Program.items)).flatMap fun built =>
          repeats built.1 built.2.allotted :=
      Declarations.repeatedLocals_addItems _ _

end KnightFront
