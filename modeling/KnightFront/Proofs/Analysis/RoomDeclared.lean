import KnightFront.Proofs.Analysis.RoomItem

namespace KnightFront

/-!
# Reports about what is declared

The pass that collects declarations reports on each at most once, where it is
declared, and leaves the room at the name of a function for a report that it lacks a
return.  Cycles are found at the end: each class or interface is found in one at most
once, and no other problem is told in the same words.
-/

namespace Declarations

variable (diagnostic : Diagnostic)

theorem times_reportIf_le_room (condition : Bool) (position : Position) {problem : Problem}
    (plain : problem.isPlain = true) :
    (Reported.reportIf condition position problem).tally diagnostic.tells ≤
      diagnostic.room position := by
  have room := diagnostic.plainRoom_add_callRoom position
  have reported : (Reported.reportIf condition position problem).tally diagnostic.tells ≤ _ :=
    Reported.times_reportIf_le_plainRoom plain condition
  split at reported <;> omega

/-- Parameters are reported on at most once, where they are declared. -/
theorem times_reportRepeatedParams (display : String) (seen : List String) (params : List Param) :
    (reportRepeatedParams display seen params).tally diagnostic.tells ≤
      diagnostic.rooms (params.map fun param => param.span.start) := by
  induction params generalizing seen with
  | nil => exact Nat.le_refl _
  | cons param rest inductionHypothesis =>
      have here : (Reported.reportIf (seen.contains param.name) param.span.start
          (.duplicateParameter param.name display)).tally diagnostic.tells ≤ _ :=
        times_reportIf_le_room diagnostic _ _ rfl
      have later := inductionHypothesis (param.name :: seen)
      rw [reportRepeatedParams, Reported.tally_bind, List.map_cons, diagnostic.rooms_cons]
      omega

/-- A local is reported on at most once, where it is declared. -/
theorem times_declareLocal (display : String) (declared : List String) (state : LocalState)
    (decl : VarDecl) :
    (declareLocal display declared state decl).tally diagnostic.tells ≤
      diagnostic.room decl.nameSpan.start := by
  unfold declareLocal
  split
  · rw [Reported.tally_bind, Reported.tally_pure]
    exact times_reportIf_le_room diagnostic true _ rfl
  · exact Nat.zero_le _

/-- Where locals of statements are declared. -/
def declPlaces (stmts : List Stmt) : List Position :=
  (stmts.flatMap Stmt.decls).map fun decl => decl.nameSpan.start

mutual

/-- The locals of a statement are reported on at most once, where they are declared. -/
theorem times_collectLocals (display : String) (declared : List String) (state : LocalState) :
    ∀ stmt : Stmt, (collectLocals display declared state stmt).tally diagnostic.tells ≤
      diagnostic.rooms (declPlaces stmt.nodes)
  | .varDecl .. => by
      simpa [collectLocals, declPlaces, Stmt.nodes, Stmt.decls] using
        times_declareLocal diagnostic display declared state _
  | .ifThen _ _ body => by
      have within := times_collectLocals display [] state body
      simpa [collectLocals, declPlaces, Stmt.nodes, Stmt.decls] using within
  | .ifElse _ _ body alternative => by
      have first := times_collectLocals display [] state body
      have second := times_collectLocals display []
        (collectLocals display [] state body).value.2 alternative
      simp [collectLocals, declPlaces, Stmt.nodes, Stmt.decls] at first second ⊢
      omega
  | .whileLoop _ _ body => by
      have within := times_collectLocals display [] state body
      simpa [collectLocals, declPlaces, Stmt.nodes, Stmt.decls] using within
  | .forLoop _ init _ _ body _ => by
      have first := times_declareLocal diagnostic display [] state init
      have second := times_collectLocals display [] (declareLocal display [] state init).value.2 body
      simp [collectLocals, declPlaces, Stmt.nodes, Stmt.decls] at second ⊢
      omega
  | .block _ stmts _ => by
      have within := times_collectLocalsOfList display [] state stmts
      simpa [collectLocals, declPlaces, Stmt.nodes, Stmt.decls] using within
  | .assign _ => Nat.zero_le _
  | .fieldAssign .. => Nat.zero_le _
  | .call .. => Nat.zero_le _
  | .ret .. => Nat.zero_le _

theorem times_collectLocalsOfList (display : String) (declared : List String)
    (state : LocalState) :
    ∀ stmts : List Stmt, (collectLocalsOfList display declared state stmts).tally diagnostic.tells ≤
      diagnostic.rooms (declPlaces (Stmt.nodesOfList stmts))
  | [] => Nat.zero_le _
  | first :: rest => by
      have here := times_collectLocals display declared state first
      have later := times_collectLocalsOfList display
        (collectLocals display declared state first).value.1
        (collectLocals display declared state first).value.2 rest
      simp [collectLocalsOfList, declPlaces, Stmt.nodesOfList] at here later ⊢
      omega

end

/-- The parameters and locals of a function are reported on at most once, where they
are declared. -/
theorem times_functionRecord (display : String) (decl : FunctionDecl) :
    (functionRecord display decl).tally diagnostic.tells ≤ diagnostic.rooms decl.localPlaces := by
  have params := times_reportRepeatedParams diagnostic display [] decl.head.params
  have locals (declared : List String) (state : LocalState) :=
    times_collectLocalsOfList diagnostic display declared state decl.body
  rw [functionRecord, Reported.tally_bind, Reported.tally_bind, Reported.tally_pure]
  rw [FunctionDecl.localPlaces, diagnostic.rooms_append]
  exact Nat.add_le_add params (locals _ _)

section Entries

variable {α : Type} [Named α] (table : Table α) (entry : α) {problem : Problem}

theorem times_addEntry (position : Position) (plain : problem.isPlain = true) :
    (addEntry table entry position problem).tally diagnostic.tells ≤ diagnostic.room position := by
  rw [addEntry, Reported.tally_bind, Reported.tally_pure]
  exact times_reportIf_le_room diagnostic _ _ plain

/-- An entry that is reported on at the name of a function leaves the room there for a
report that the function lacks a return. -/
theorem times_addEntry_of_head (head : FunctionHead) (plain : problem.isPlain = true)
    (other : problem.message ≠ (Problem.missingReturn head.name head.returnTy).message) :
    (addEntry table entry head.span.start problem).tally diagnostic.tells +
        diagnostic.returnRoom head ≤
      diagnostic.room head.span.start := by
  have room := diagnostic.plainRoom_add_callRoom head.span.start
  rw [addEntry, Reported.tally_bind, Reported.tally_pure, Diagnostic.returnRoom]
  split
  · next same =>
      rw [Reported.times_reportIf_of_ne (same ▸ other.symm)]
      omega
  · have reported := times_reportIf_le_room diagnostic (table.contains (Named.nameOf entry))
      head.span.start plain
    omega

end Entries

/-- Fields are reported on at most once, where they are declared. -/
theorem times_fieldTable (decl : ClassDecl) :
    (fieldTable decl).tally diagnostic.tells ≤
      diagnostic.rooms (decl.fields.map fun field => field.nameSpan.start) := by
  rw [diagnostic.rooms_map]
  refine Reported.times_foldlM_le diagnostic (fun table field _ => ?_) _
  have name : (addEntry table (unslotted field) field.nameSpan.start
      (.duplicateField field.name decl.name)).tally diagnostic.tells ≤ _ :=
    times_addEntry diagnostic table _ _ rfl
  exact name

/-- Methods are reported on at most once for everything that they declare, and the
room for a report that they lack a return is left. -/
theorem times_methodTable (decl : ClassDecl) :
    (methodTable decl).tally diagnostic.tells + diagnostic.returnRooms (.classDecl decl) ≤
      diagnostic.rooms (decl.methods.flatMap FunctionDecl.declares) := by
  rw [diagnostic.rooms_flatMap]
  refine Reported.times_foldlM_add_le diagnostic (fun table method _ => ?_) _
  have inside := times_functionRecord diagnostic (decl.name ++ "." ++ method.head.name) method
  have name (record : FunctionRecord) : (addEntry table record method.head.span.start
      (.duplicateMethod method.head.name decl.name)).tally diagnostic.tells +
        diagnostic.returnRoom method.head ≤ _ :=
    times_addEntry_of_head diagnostic table record method.head rfl
      (Problem.duplicateMethod_ne_missingReturn _ _ _ _)
  have name := name (functionRecord (decl.name ++ "." ++ method.head.name) method).value
  rw [Reported.tally_bind, FunctionDecl.declares, diagnostic.rooms_cons]
  omega

/-- The methods of an interface are reported on at most once for everything that they
declare. -/
theorem times_headTable (decl : InterfaceDecl) :
    (headTable decl).tally diagnostic.tells ≤
      diagnostic.rooms (decl.methods.flatMap FunctionHead.declares) := by
  rw [diagnostic.rooms_flatMap]
  refine Reported.times_foldlM_le diagnostic (fun table head _ => ?_) _
  have params := times_reportRepeatedParams diagnostic head.name [] head.params
  have name (record : FunctionRecord) : (addEntry table record head.span.start
      (.duplicateInterfaceMethod head.name decl.name)).tally diagnostic.tells ≤ _ :=
    times_addEntry diagnostic table record _ rfl
  rw [Reported.tally_bind, FunctionHead.declares, diagnostic.rooms_cons, Nat.add_comm]
  exact Nat.add_le_add (name _) params

theorem times_addClass (model : SymbolModel) (decl : ClassDecl) :
    (addClass model decl).tally diagnostic.tells + diagnostic.returnRooms (.classDecl decl) ≤
      diagnostic.rooms (Item.classDecl decl).declares := by
  have fields := times_fieldTable diagnostic decl
  have methods := times_methodTable diagnostic decl
  rw [Item.declares, diagnostic.rooms_cons, diagnostic.rooms_append]
  unfold addClass
  split
  · have taken :
        (Reported.report decl.span.start (.duplicateClass decl.name)).tally diagnostic.tells ≤
        diagnostic.room decl.span.start := times_reportIf_le_room diagnostic true _ rfl
    rw [Reported.tally_bind, Reported.tally_pure]
    omega
  · rw [Reported.tally_bind, Reported.tally_bind, Reported.tally_pure]
    omega

theorem times_addInterface (model : SymbolModel) (decl : InterfaceDecl) :
    (addInterface model decl).tally diagnostic.tells ≤
      diagnostic.rooms (Item.interface decl).declares := by
  have methods := times_headTable diagnostic decl
  rw [Item.declares, diagnostic.rooms_cons]
  unfold addInterface
  split
  · have taken : (Reported.report decl.span.start (.duplicateInterface decl.name)).tally
        diagnostic.tells ≤ diagnostic.room decl.span.start :=
      times_reportIf_le_room diagnostic true _ rfl
    rw [Reported.tally_bind, Reported.tally_pure]
    omega
  · rw [Reported.tally_bind, Reported.tally_pure]
    omega

theorem times_addEnum (model : SymbolModel) (decl : EnumDecl) :
    (addEnum model decl).tally diagnostic.tells ≤
      diagnostic.rooms (Item.enumeration decl).declares := by
  rw [Item.declares, diagnostic.rooms_map]
  refine Reported.times_foldlM_le diagnostic (fun model member _ => ?_) _
  rw [Reported.tally_bind, Reported.tally_pure]
  exact times_addEntry diagnostic model.globals _ _ rfl

/-- A declaration is reported on at most once for everything that it declares, and the
room for a report that a function lacks a return is left. -/
theorem times_addItem (model : SymbolModel) (item : Item) :
    (addItem model item).tally diagnostic.tells + diagnostic.returnRooms item ≤
      diagnostic.rooms item.declares := by
  cases item with
  | inclusion => exact Nat.zero_le _
  | enumeration decl => exact times_addEnum diagnostic model decl
  | interface decl => exact times_addInterface diagnostic model decl
  | classDecl decl => exact times_addClass diagnostic model decl
  | function decl =>
      have inside := times_functionRecord diagnostic decl.head.name decl
      have name (record : FunctionRecord) : (addEntry model.functions record decl.head.span.start
          (.duplicateFunction decl.head.name)).tally diagnostic.tells +
            diagnostic.returnRoom decl.head ≤ _ :=
        times_addEntry_of_head diagnostic model.functions record decl.head rfl
          (Problem.duplicateFunction_ne_missingReturn _ _)
      have name := name (functionRecord decl.head.name decl).value
      simp only [addItem, Item.declares, FunctionDecl.declares, Diagnostic.returnRooms, Item.bodies,
        diagnostic.rooms_cons, Reported.tally_bind, Reported.tally_pure, List.map_cons,
        List.map_nil, List.sum_cons, List.sum_nil]
      omega
  | globalVariable decl =>
      have name : (addEntry model.globals (unslotted decl) decl.nameSpan.start
          (.duplicateVariable decl.name)).tally diagnostic.tells ≤ _ :=
        times_addEntry diagnostic model.globals _ _ rfl
      simp only [addItem, Item.declares, Diagnostic.returnRooms, Item.bodies, diagnostic.rooms_cons,
        Reported.tally_bind, Reported.tally_pure, List.map_nil, List.sum_nil]
      omega

/-- No class or interface is found in two cycles. -/
theorem nodup_cycleFindings (model : SymbolModel) :
    ((cycleFindings model).map Finding.problem).Nodup := by
  have names {α : Type} [Named α] (table : Table α) (kept : α → Bool) :
      ((table.sorted.filter kept).map Named.nameOf).Nodup :=
    (((List.mergeSort_perm _ _).map _).nodup_iff.mpr table.distinct).sublist
      (List.filter_sublist.map _)
  have classes := (names model.classes fun record => model.hasCyclicInheritance record.name).map
    fun first second (same : Problem.cyclicInheritance first = .cyclicInheritance second) =>
      Problem.cyclicInheritance.inj same
  have interfaces := (names model.interfaces fun record => model.hasCyclicExtension record.name).map
    fun first second (same : Problem.cyclicExtension first = .cyclicExtension second) =>
      Problem.cyclicExtension.inj same
  rw [List.map_map] at classes interfaces
  rw [cycleFindings, List.map_append, List.map_map, List.map_map]
  refine List.nodup_append.mpr ⟨classes, interfaces, fun first inFirst second inSecond same => ?_⟩
  rcases List.mem_map.mp inFirst with ⟨record, _, rfl⟩
  rcases List.mem_map.mp inSecond with ⟨other, _, rfl⟩
  cases same

theorem isCycle_of_mem_cycleFindings {model : SymbolModel} {finding : Finding}
    (member : finding ∈ cycleFindings model) : finding.problem.isCycle = true := by
  rcases List.mem_append.mp member with ofClass | ofInterface
  · rcases List.mem_map.mp ofClass with ⟨record, _, rfl⟩
    rfl
  · rcases List.mem_map.mp ofInterface with ⟨record, _, rfl⟩
    rfl

/-- A report about a cycle is made at most once, and no other is among the cycles. -/
theorem times_cycleFindings (model : SymbolModel) :
    (Reported.mk model (cycleFindings model)).tally diagnostic.tells ≤
      if diagnostic.isCycle then 1 else 0 := by
  have single (finding : Finding) :
      [finding].countP diagnostic.tells = if finding.diagnostic = diagnostic then 1 else 0 := by
    rw [List.countP_singleton]
    simp only [Diagnostic.tells, decide_eq_true_eq]
  change (cycleFindings model).countP _ ≤ _
  rw [← List.flatMap_singleton' (cycleFindings model)]
  refine countP_flatMap_le_of_key (nodup_cycleFindings model) (fun finding member => ?_)
    fun first inFirst second inSecond firstTold secondTold => ?_
  · rw [single]
    split
    · next same =>
        rw [Finding.isCycle_of_diagnostic same, isCycle_of_mem_cycleFindings member]
        exact Nat.le_refl _
    · exact Nat.zero_le _
  · rw [single] at firstTold secondTold
    have firstSame : first.diagnostic = diagnostic := by
      by_contra other
      rw [if_neg other] at firstTold
      exact Nat.lt_irrefl 0 firstTold
    have secondSame : second.diagnostic = diagnostic := by
      by_contra other
      rw [if_neg other] at secondTold
      exact Nat.lt_irrefl 0 secondTold
    exact Problem.eq_of_isCycle (isCycle_of_mem_cycleFindings inFirst)
      (isCycle_of_mem_cycleFindings inSecond)
      (congrArg Diagnostic.message (firstSame.trans secondSame.symm))

end Declarations

/-- The pass that collects declarations reports on each at most once for everything
that it declares, and besides at most once on a cycle. -/
theorem times_ofPrograms (diagnostic : Diagnostic) (programs : List Program) :
    (SymbolModel.ofPrograms programs).tally diagnostic.tells +
        ((programs.flatMap Program.items).map diagnostic.returnRooms).sum ≤
      ((programs.flatMap Program.items).map fun item => diagnostic.rooms item.declares).sum +
        if diagnostic.isCycle then 1 else 0 := by
  have items := Reported.times_foldlM_add_le diagnostic
    (fun model item (_ : item ∈ programs.flatMap Program.items) =>
      Declarations.times_addItem diagnostic model item) SymbolModel.withBuiltins
  have cycles := Declarations.times_cycleFindings diagnostic
    ((programs.flatMap Program.items).foldlM Declarations.addItem SymbolModel.withBuiltins).value
  rw [SymbolModel.ofPrograms_eq, Reported.tally_bind]
  omega

end KnightFront
