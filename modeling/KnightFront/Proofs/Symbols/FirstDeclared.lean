import KnightFront.Proofs.Symbols.Collected

namespace KnightFront

/-!
# First declarations

A table takes the first declaration of each name, and each later one is
reported once, where it stands.  The same is true of every table: those of
classes, interfaces, functions and global variables, and those of the members
of a class or an interface.  They differ in what they take from a declaration
and in how a clash is worded.

A pass over declarations that fills a table is described by the names that are
taken when it begins.  From each step follows what the whole pass takes and
reports, because the names that are taken behind one part of the declarations
are those from which the next part goes on.
-/

section Firsts

variable {δ : Type} (name : δ → String)

/-- The members of a list whose name is not taken, neither at the beginning nor
by an earlier member. -/
def firsts (taken : List String) : List δ → List δ
  | [] => []
  | first :: rest =>
      if name first ∈ taken then firsts taken rest
      else first :: firsts (taken ++ [name first]) rest

/-- The members of a list whose name is taken, at the beginning or by an earlier
member. -/
def laters (taken : List String) : List δ → List δ
  | [] => []
  | first :: rest =>
      if name first ∈ taken then first :: laters taken rest
      else laters (taken ++ [name first]) rest

/-- The names that are taken behind a list. -/
def takenBehind (taken : List String) (list : List δ) : List String :=
  taken ++ (firsts name taken list).map name

/-- What is said of a list, beginning with some names taken, is said of its
parts one after another. -/
structure Consecutive {β : Type} (outcome : List String → List δ → List β) : Prop where
  nil : ∀ taken, outcome taken [] = []
  append : ∀ taken front back, outcome taken (front ++ back) =
    outcome taken front ++ outcome (takenBehind name taken front) back

variable {name}

theorem consecutive_firsts {β : Type} (part : δ → List β) :
    Consecutive name fun taken list => (firsts name taken list).flatMap part := by
  refine ⟨fun taken => rfl, fun taken front back => ?_⟩
  induction front generalizing taken with
  | nil => simp [firsts, takenBehind]
  | cons first rest inductionHypothesis =>
      by_cases isTaken : name first ∈ taken
      · simpa [firsts, takenBehind, isTaken] using inductionHypothesis taken
      · simpa [firsts, takenBehind, isTaken] using inductionHypothesis (taken ++ [name first])

theorem consecutive_laters {β : Type} (part : δ → β) :
    Consecutive name fun taken list => (laters name taken list).map part := by
  refine ⟨fun taken => rfl, fun taken front back => ?_⟩
  induction front generalizing taken with
  | nil => simp [laters, firsts, takenBehind]
  | cons first rest inductionHypothesis =>
      by_cases isTaken : name first ∈ taken
      · simpa [laters, firsts, takenBehind, isTaken] using inductionHypothesis taken
      · simpa [laters, firsts, takenBehind, isTaken] using
          inductionHypothesis (taken ++ [name first])

theorem consecutive_none {β : Type} : Consecutive name fun _ _ => ([] : List β) :=
  ⟨fun _ => rfl, fun _ _ _ => rfl⟩

end Firsts

/-- The tables in which names can clash. -/
inductive TableKind where
  | classes
  | interfaces
  | functions
  | globals
  | fields
  | methods
  | heads
deriving DecidableEq, Repr, Inhabited

/-- The table in which a problem says that a name is taken. -/
def Problem.clash? : Problem → Option TableKind
  | duplicateClass _ => some .classes
  | duplicateInterface _ => some .interfaces
  | duplicateFunction _ => some .functions
  | duplicateVariable _ => some .globals
  | duplicateEnumMember .. => some .globals
  | duplicateField .. => some .fields
  | duplicateMethod .. => some .methods
  | duplicateInterfaceMethod .. => some .heads
  | _ => none

/-- Whether a problem is that a name is taken in some table. -/
def Problem.isClash (problem : Problem) : Bool := problem.clash?.isSome

namespace Reported

variable {α β : Type} {kind : TableKind}

/-- The findings of a pass that a name is taken in a table of a kind. -/
def clashes (kind : TableKind) (pass : Reported α) : List Finding :=
  pass.findings.filter fun finding => decide (finding.problem.clash? = some kind)

@[simp]
theorem clashes_pure (value : α) : (pure value : Reported α).clashes kind = [] := rfl

@[simp]
theorem clashes_bind (first : Reported α) (next : α → Reported β) :
    (first >>= next).clashes kind = first.clashes kind ++ (next first.value).clashes kind := by
  simp [clashes]

@[simp]
theorem clashes_map (change : α → β) (pass : Reported α) :
    (change <$> pass).clashes kind = pass.clashes kind := by
  simp [clashes]

@[simp]
theorem clashes_report (position : Position) (problem : Problem) :
    (report position problem).clashes kind =
      if problem.clash? = some kind then [⟨position, problem⟩] else [] := by
  by_cases same : problem.clash? = some kind <;> simp [clashes, report, same]

/-- Without a clash in any table there is none in one. -/
theorem clashes_of_lacks {pass : Reported α} (lacks : pass.Lacks Problem.isClash) :
    pass.clashes kind = [] := by
  refine List.filter_eq_nil_iff.mpr fun finding member same => ?_
  have none := lacks finding member
  simp [Problem.isClash, of_decide_eq_true same] at none

end Reported

/-- The names of a table, in the order of declaration. -/
def Table.names {α : Type} [Named α] (table : Table α) : List String :=
  table.entries.map Named.nameOf

theorem Table.contains_iff_mem_names {α : Type} [Named α] {table : Table α} {name : String} :
    table.contains name = true ↔ name ∈ table.names := by
  simp [Table.contains_eq_true_iff, Table.names]

namespace Declarations

section Functions

variable {other : Problem → Bool}

/-- Among parameters nothing is found but repeated ones. -/
theorem lacks_reportRepeatedParams
    (params : ∀ name function, other (.duplicateParameter name function) = false)
    (display : String) (seen : List String) (list : List Param) :
    (reportRepeatedParams display seen list).Lacks other := by
  induction list generalizing seen with
  | nil => simp [reportRepeatedParams]
  | cons first rest inductionHypothesis => simp [reportRepeatedParams, inductionHypothesis, params]

theorem lacks_declareLocal (locals : ∀ name function, other (.duplicateLocal name function) = false)
    (display : String) (declared : List String) (state : LocalState) (decl : VarDecl) :
    (declareLocal display declared state decl).Lacks other := by
  rw [declareLocal]
  split <;> simp [locals]

mutual

theorem lacks_collectLocals
    (locals : ∀ name function, other (.duplicateLocal name function) = false)
    (display : String) (declared : List String) (state : LocalState) :
    (stmt : Stmt) → (collectLocals display declared state stmt).Lacks other
  | .varDecl _ decl => by
      rw [collectLocals]
      exact lacks_declareLocal locals display declared state decl
  | .ifThen _ _ body => by
      simp [collectLocals, lacks_collectLocals locals display _ _ body]
  | .ifElse _ _ body alternative => by
      simp [collectLocals, lacks_collectLocals locals display _ _ body,
        lacks_collectLocals locals display _ _ alternative]
  | .whileLoop _ _ body => by
      simp [collectLocals, lacks_collectLocals locals display _ _ body]
  | .forLoop _ init _ _ body _ => by
      simp [collectLocals, lacks_declareLocal locals, lacks_collectLocals locals display _ _ body]
  | .block _ stmts _ => by
      simp [collectLocals, lacks_collectLocalsOfList locals display _ _ stmts]
  | .assign _ | .fieldAssign .. | .call .. | .ret .. => by simp [collectLocals]

theorem lacks_collectLocalsOfList
    (locals : ∀ name function, other (.duplicateLocal name function) = false)
    (display : String) (declared : List String) (state : LocalState) :
    (stmts : List Stmt) → (collectLocalsOfList display declared state stmts).Lacks other
  | [] => by simp [collectLocalsOfList]
  | first :: rest => by
      simp [collectLocalsOfList, lacks_collectLocals locals display _ _ first,
        lacks_collectLocalsOfList locals display _ _ rest]

end

/-- In a function nothing is found but repeated parameters and locals. -/
theorem lacks_functionRecord
    (params : ∀ name function, other (.duplicateParameter name function) = false)
    (locals : ∀ name function, other (.duplicateLocal name function) = false)
    (display : String) (decl : FunctionDecl) : (functionRecord display decl).Lacks other := by
  simp [functionRecord, lacks_reportRepeatedParams params, lacks_collectLocalsOfList locals]

end Functions

/-- A step of a pass puts the first declarations of an item into a table. -/
structure Fills {σ ι δ α : Type} [Named α] (step : σ → ι → Reported σ) (table : σ → Table α)
    (decls : ι → List δ) (entry : δ → α) : Prop where
  entries : ∀ state item, (table (step state item).value).entries =
    (table state).entries ++
      (firsts (fun decl => Named.nameOf (entry decl)) (table state).names (decls item)).map entry

section Fills

variable {σ ι δ α : Type} [Named α] {step : σ → ι → Reported σ} {table : σ → Table α}
  {decls : ι → List δ} {entry : δ → α}

/-- The name under which a declaration is entered. -/
abbrev entryName (entry : δ → α) (decl : δ) : String := Named.nameOf (entry decl)

theorem Fills.names (fills : Fills step table decls entry) (state : σ) (item : ι) :
    (table (step state item).value).names =
      takenBehind (entryName entry) (table state).names (decls item) := by
  simp [Table.names, fills.entries, takenBehind, Function.comp_def]

/-- A pass whose steps fill a table fills it with the first declarations of all
items. -/
theorem Fills.entries_foldlM (fills : Fills step table decls entry) (items : List ι) (state : σ) :
    (table (items.foldlM step state).value).entries =
      (table state).entries ++
        (firsts (entryName entry) (table state).names (items.flatMap decls)).map entry := by
  have parts : Consecutive (entryName entry) fun taken list =>
      (firsts (entryName entry) taken list).map entry := by
    simpa only [← List.map_eq_flatMap] using consecutive_firsts fun decl => [entry decl]
  induction items generalizing state with
  | nil => simp [firsts]
  | cons first rest inductionHypothesis =>
      let next := (step state first).value
      calc
        (table ((first :: rest).foldlM step state).value).entries =
            (table next).entries ++
              (firsts (entryName entry) (table next).names (rest.flatMap decls)).map entry := by
          rw [List.foldlM_cons, Reported.value_bind, inductionHypothesis]
        _ = (table state).entries ++
              ((firsts (entryName entry) (table state).names (decls first)).map entry ++
                (firsts (entryName entry)
                  (takenBehind (entryName entry) (table state).names (decls first))
                  (rest.flatMap decls)).map entry) := by
          rw [fills.entries, fills.names, List.append_assoc]
        _ = (table state).entries ++
              (firsts (entryName entry) (table state).names
                ((first :: rest).flatMap decls)).map entry := by
          rw [List.flatMap_cons, parts.append]

/-- What each step reports of a table, the pass reports of all items. -/
theorem Fills.clashes_foldlM (fills : Fills step table decls entry) {kind : TableKind}
    {outcome : List String → List δ → List Finding}
    (consecutive : Consecutive (entryName entry) outcome)
    (clashes : ∀ state item,
      (step state item).clashes kind = outcome (table state).names (decls item))
    (items : List ι) (state : σ) :
    (items.foldlM step state).clashes kind =
      outcome (table state).names (items.flatMap decls) := by
  induction items generalizing state with
  | nil => simp [consecutive.nil]
  | cons first rest inductionHypothesis =>
      let next := (step state first).value
      calc
        ((first :: rest).foldlM step state).clashes kind =
            (step state first).clashes kind ++
              outcome (table next).names (rest.flatMap decls) := by
          rw [List.foldlM_cons, Reported.clashes_bind, inductionHypothesis]
        _ = outcome (table state).names (decls first) ++
              outcome (takenBehind (entryName entry) (table state).names (decls first))
                (rest.flatMap decls) := by
          rw [clashes, fills.names]
        _ = outcome (table state).names ((first :: rest).flatMap decls) := by
          rw [List.flatMap_cons, consecutive.append]

end Fills

section Entries

variable {α δ : Type} [Named α]

theorem mem_names_iff {table : Table α} {name : String} :
    name ∈ table.names ↔ table.contains name = true :=
  Table.contains_iff_mem_names.symm

theorem entries_add (table : Table α) (entry : δ → α) (decl : δ) :
    (table.add (entry decl)).entries =
      table.entries ++ (firsts (entryName entry) table.names [decl]).map entry := by
  by_cases taken : table.contains (Named.nameOf (entry decl)) = true
  · simp [Table.add_of_contains taken, firsts, mem_names_iff, taken]
  · rw [Table.entries_add_of_not_contains (Bool.not_eq_true _ ▸ taken)]
    simp [firsts, mem_names_iff, taken]

/-- An entry whose name is taken is a clash, and nothing else is. -/
theorem clashes_addEntry (table : Table α) (entry : δ → α) (clash : δ → Finding) (decl : δ)
    (kind : TableKind) :
    (addEntry table (entry decl) (clash decl).position (clash decl).problem).clashes kind =
      if (clash decl).problem.clash? = some kind then
        (laters (entryName entry) table.names [decl]).map clash
      else [] := by
  by_cases taken : table.contains (Named.nameOf (entry decl)) = true
  · simp [addEntry, Reported.reportIf, laters, mem_names_iff, taken]
  · simp [addEntry, Reported.reportIf, laters, mem_names_iff, taken]

/-- A step adds an entry to a table of a kind, and reports it if it clashes. -/
structure Enters (step : Table α → δ → Reported (Table α)) (kind : TableKind) (entry : δ → α)
    (clash : δ → Finding) : Prop where
  adds : ∀ table decl, (step table decl).value = table.add (entry decl)
  clashes : ∀ table decl other, (step table decl).clashes other =
    if other = kind then (laters (entryName entry) table.names [decl]).map clash else []

variable {step : Table α → δ → Reported (Table α)} {kind : TableKind} {entry : δ → α}
  {clash : δ → Finding}

/-- A step that builds an entry without a clash and then adds it. -/
theorem Enters.of_built (build : δ → Reported α) (clash : δ → Finding)
    (isClash : ∀ decl, (clash decl).problem.clash? = some kind)
    (built : ∀ decl other, (build decl).clashes other = []) :
    Enters (fun table decl => do
      let record ← build decl
      addEntry table record (clash decl).position (clash decl).problem)
      kind (fun decl => (build decl).value) clash := by
  refine ⟨fun _ _ => rfl, fun table decl other => ?_⟩
  have entered := clashes_addEntry table (fun decl => (build decl).value) clash decl other
  rw [Reported.clashes_bind, built, List.nil_append]
  rw [entered, isClash]
  by_cases same : other = kind
  · simp [same]
  · simp [same, Ne.symm same]

theorem Enters.fills (enters : Enters step kind entry clash) :
    Fills step (fun table => table) (fun decl => [decl]) entry :=
  ⟨fun table decl => by rw [enters.adds, entries_add]⟩

/-- Entries that are added one after another are those of the first
declarations. -/
theorem Enters.entries (enters : Enters step kind entry clash) (decls : List δ) :
    (decls.foldlM step .empty).value.entries = (firsts (entryName entry) [] decls).map entry := by
  have filled := enters.fills.entries_foldlM decls .empty
  rwa [List.flatMap_singleton'] at filled

/-- Every later declaration is reported once, and nothing else clashes. -/
theorem Enters.clashes_foldlM (enters : Enters step kind entry clash) (decls : List δ)
    (other : TableKind) :
    (decls.foldlM step .empty).clashes other =
      if other = kind then (laters (entryName entry) [] decls).map clash else [] := by
  by_cases same : other = kind
  · have found := enters.fills.clashes_foldlM (consecutive_laters clash)
      (fun table decl => by rw [enters.clashes, if_pos same]) decls .empty
    rw [List.flatMap_singleton'] at found
    rw [if_pos same]
    exact found
  · rw [if_neg same]
    exact enters.fills.clashes_foldlM consecutive_none
      (fun table decl => by rw [enters.clashes, if_neg same]) decls .empty

end Entries

@[simp]
theorem clashes_functionRecord (display : String) (decl : FunctionDecl) (kind : TableKind) :
    (functionRecord display decl).clashes kind = [] :=
  Reported.clashes_of_lacks (lacks_functionRecord (fun _ _ => rfl) (fun _ _ => rfl) display decl)

@[simp]
theorem clashes_reportRepeatedParams (display : String) (params : List Param) (kind : TableKind) :
    (reportRepeatedParams display [] params).clashes kind = [] :=
  Reported.clashes_of_lacks (lacks_reportRepeatedParams (fun _ _ => rfl) display [] params)

end Declarations

end KnightFront
