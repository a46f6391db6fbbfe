import KnightFront.Proofs.Analysis.Reading
import KnightFront.Proofs.Parse.LocalPlaces
import KnightFront.Proofs.Resolution.Allotted

namespace KnightFront

/-!
# The passes agree on locals

The first pass records the locals of a function by name, for those who ask for
them later; name resolution declares them in scopes and binds uses to them.
Both come to the same variables.  A local is accepted by both or by neither, at
one slot, and one that neither accepts is reported once, by the first pass.

In a file that has been read no two parameters or locals of a function stand at
the same place, so a place tells which of them is meant.
-/

open Allotment (entities repeats)

theorem Table.sublist_foldl_add {α : Type} [Named α] (entries : List α) (table : Table α) :
    (entries.foldl Table.add table).entries.Sublist (table.entries ++ entries) := by
  induction entries generalizing table with
  | nil => simp
  | cons first rest inductionHypothesis =>
      refine (inductionHypothesis (table.add first)).trans ?_
      cases taken : table.contains (Named.nameOf first) with
      | true =>
          rw [Table.add_of_contains taken]
          exact (List.sublist_cons_self first rest).append_left _
      | false => simp [Table.entries_add_of_not_contains taken]

namespace FunctionDecl

variable {decl : FunctionDecl}

theorem sublist_paramPlaces (decl : FunctionDecl) :
    (decl.paramTable.entries.map Variable.position).Sublist
      (decl.head.params.map fun param => param.span.start) := by
  have places : (decl.head.params.mapIdx Declarations.paramVariable).map Variable.position =
      decl.head.params.map fun param => param.span.start :=
    Declarations.map_mapIdx_paramVariable (fun _ _ => rfl) _
  rw [← places]
  exact (Table.sublist_foldl_add _ .empty).map _

/-- Each local is allotted once, in the order of the text. -/
theorem map_decl_allotted (decl : FunctionDecl) :
    decl.allotted.map Allotment.decl = decl.localDecls :=
  Stmt.map_decl_allottedOfList _ _ decl.body

theorem position_of_entity? {allotment : Allotment} {entity : Variable}
    (same : allotment.entity? = some entity) :
    entity.position = allotment.decl.nameSpan.start := by
  rcases Option.map_eq_some_iff.mp same with ⟨slot, -, rfl⟩
  rfl

theorem sublist_localPlaces (decl : FunctionDecl) :
    ((entities decl.allotted).map Variable.position).Sublist
      (decl.localDecls.map fun decl => decl.nameSpan.start) := by
  rw [← map_decl_allotted, List.map_map]
  generalize decl.allotted = allotments
  induction allotments with
  | nil => exact List.Sublist.refl _
  | cons first rest inductionHypothesis =>
      rw [entities, List.filterMap_cons]
      split
      · exact inductionHypothesis.cons _
      · next entity same =>
          rw [List.map_cons, position_of_entity? same]
          exact inductionHypothesis.cons_cons _

/-- The variables that resolving a function declares in the scopes opened for
it. -/
def resolvedLocals (place : NamePlace) (scopes : List Scope) (decl : FunctionDecl) :
    List Variable :=
  Scopes.entries ((Resolution.resolveFunction place scopes decl).value.2.drop scopes.length)

/-- The finding that the name of a local is taken. -/
def repeatFinding (display : String) (decl : VarDecl) : Finding :=
  ⟨decl.nameSpan.start, .duplicateLocal decl.name display⟩

/-- The first pass, speaking of a function by its display name, and resolution,
at a place and behind some scopes, agree on its locals. -/
structure LocalsAgree (display : String) (place : NamePlace) (scopes : List Scope)
    (decl : FunctionDecl) : Prop where
  /-- Each local is allotted once, in the order of the text. -/
  lists : decl.allotted.map Allotment.decl = decl.localDecls
  /-- Those that take a slot take the next one behind the parameters. -/
  inTurn : Allotment.InTurn decl.head.params.length decl.allotted
  /-- The first pass records the parameters and what takes a slot. -/
  recorded : (Declarations.functionRecord display decl).value.locals =
    (entities decl.allotted).foldl Table.add decl.paramTable
  /-- Resolution declares them in new scopes, and nothing else anywhere. -/
  declared : (decl.resolvedLocals place scopes).Perm
    (decl.paramTable.entries ++ entities decl.allotted)
  keeps : (Resolution.resolveFunction place scopes decl).value.2.take scopes.length = scopes
  /-- A local is declared if and only if it takes a slot, and then at this slot. -/
  accepted : ∀ allotment ∈ decl.allotted, ∀ entity,
    entity ∈ decl.resolvedLocals place scopes ∧
        entity.position = allotment.decl.nameSpan.start ↔
      allotment.entity? = some entity
  /-- A recorded variable is the one that is declared at its position. -/
  entries : ∀ entity ∈ (Declarations.functionRecord display decl).value.locals.entries,
    ∀ other, other ∈ decl.resolvedLocals place scopes ∧ other.position = entity.position ↔
      other = entity
  /-- Each local that is not declared is reported, once and in turn. -/
  dropped : (Declarations.functionRecord display decl).repeatedLocals =
    (decl.localDecls.filter fun decl' => decide (∀ entity ∈ decl.resolvedLocals place scopes,
      entity.position ≠ decl'.nameSpan.start)).map (repeatFinding display)

section Places

variable {place : NamePlace} {scopes : List Scope} (apart : decl.localPlaces.Nodup)
  (declared : (decl.resolvedLocals place scopes).Perm
    (decl.paramTable.entries ++ entities decl.allotted))

include apart

/-- No two allotments are at one place. -/
theorem allotment_eq_of_place {first second : Allotment} (inFirst : first ∈ decl.allotted)
    (inSecond : second ∈ decl.allotted)
    (same : first.decl.nameSpan.start = second.decl.nameSpan.start) : first = second := by
  have distinct := (List.nodup_append.mp apart).2.1
  rw [← map_decl_allotted, List.map_map] at distinct
  exact List.inj_on_of_nodup_map distinct inFirst inSecond same

include declared

/-- No two variables of a function are declared at one place. -/
theorem entity_eq_of_position {first second : Variable}
    (inFirst : first ∈ decl.resolvedLocals place scopes)
    (inSecond : second ∈ decl.resolvedLocals place scopes)
    (same : first.position = second.position) : first = second := by
  have places : ((decl.paramTable.entries ++ entities decl.allotted).map Variable.position).Sublist
      decl.localPlaces := by
    rw [List.map_append]
    exact decl.sublist_paramPlaces.append decl.sublist_localPlaces
  have distinct := (declared.map Variable.position).nodup_iff.mpr (places.nodup apart)
  exact List.inj_on_of_nodup_map distinct inFirst inSecond same

/-- A variable is declared at the place of a local if and only if it is that
local, with the slot that it takes. -/
theorem mem_resolvedLocals_iff {allotment : Allotment} (member : allotment ∈ decl.allotted)
    (entity : Variable) :
    entity ∈ decl.resolvedLocals place scopes ∧
        entity.position = allotment.decl.nameSpan.start ↔
      allotment.entity? = some entity := by
  constructor
  · rintro ⟨present, position⟩
    rcases List.mem_append.mp (declared.mem_iff.mp present) with param | taken
    · -- The place of a parameter is not that of a local.
      have inParams := decl.sublist_paramPlaces.subset (List.mem_map_of_mem param)
      have inLocals : allotment.decl.nameSpan.start ∈
          decl.localDecls.map fun decl => decl.nameSpan.start := by
        rw [← map_decl_allotted, List.map_map]
        exact List.mem_map_of_mem member
      exact absurd position ((List.nodup_append.mp apart).2.2 _ inParams _ inLocals)
    · rcases List.mem_filterMap.mp taken with ⟨other, isOther, same⟩
      have place := (position_of_entity? same).symm.trans position
      rwa [← allotment_eq_of_place apart isOther member place]
  · intro same
    have taken : entity ∈ entities decl.allotted := List.mem_filterMap.mpr ⟨_, member, same⟩
    exact ⟨declared.mem_iff.mpr (List.mem_append_right _ taken), position_of_entity? same⟩

end Places

/-- The passes agree on a function that source text can write, whose parameters
and locals stand at different places. -/
theorem locals_agree (written : decl.Written) (apart : decl.localPlaces.Nodup) (display : String)
    (place : NamePlace) (scopes : List Scope) : decl.LocalsAgree display place scopes := by
  rcases Resolution.allots_resolveFunction written place scopes with ⟨keeps, declared⟩
  have recorded := (Declarations.functionRecord_eq display decl).1
  have accepted {allotment : Allotment} (member : allotment ∈ decl.allotted) :=
    mem_resolvedLocals_iff apart declared member
  refine ⟨decl.map_decl_allotted, Stmt.inTurn_allottedOfList _ _ _, recorded, declared, keeps,
    fun _ => accepted, fun entity member other => ?_, ?_⟩
  · rw [recorded] at member
    have present := declared.mem_iff.mpr ((Table.sublist_foldl_add _ _).subset member)
    constructor
    · rintro ⟨isOther, same⟩
      exact entity_eq_of_position apart declared isOther present same
    · rintro rfl
      exact ⟨present, rfl⟩
  · rw [Declarations.repeatedLocals_functionRecord, ← map_decl_allotted, List.filter_map,
      List.map_map, ← List.filterMap_eq_map, List.filterMap_filter]
    refine List.filterMap_congr fun allotment member => ?_
    cases slot : allotment.slot with
    | none =>
        have missing : ∀ entity ∈ decl.resolvedLocals place scopes,
            entity.position ≠ allotment.decl.nameSpan.start := by
          intro entity present position
          have taken := (accepted member entity).mp ⟨present, position⟩
          simp [Allotment.entity?, slot] at taken
        simpa [Allotment.repeat?, slot, repeatFinding] using missing
    | some taken =>
        have present := (accepted member _).mpr (by rw [Allotment.entity?, slot]; rfl)
        simpa [Allotment.repeat?, slot] using ⟨_, present⟩

end FunctionDecl

/-- What the first pass records of items are functions and methods of them. -/
theorem SymbolModel.mem_bodies_of_mem_buildsAll {items : List Item} {model : SymbolModel}
    {built : String × FunctionDecl} (member : built ∈ model.buildsAll items) :
    built.2 ∈ items.flatMap Item.bodies := by
  induction items generalizing model with
  | nil => cases member
  | cons first rest inductionHypothesis =>
      rw [List.flatMap_cons]
      rcases List.mem_append.mp member with early | late
      · refine List.mem_append_left _ ?_
        cases first with
        | classDecl decl =>
            rw [builds] at early
            by_cases taken : model.classes.contains decl.name = true
            · rw [if_pos taken] at early
              cases early
            · rw [if_neg taken] at early
              rcases List.mem_map.mp early with ⟨method, isMethod, rfl⟩
              exact isMethod
        | function decl =>
            cases List.mem_singleton.mp early
            exact List.mem_singleton_self _
        | _ => cases early
      · exact List.mem_append_right _ (inductionHypothesis late)

theorem Program.Written.of_mem_bodies {program : Program} (written : program.Written)
    {decl : FunctionDecl} (member : decl ∈ program.bodies) : decl.Written := by
  rcases List.mem_flatMap.mp member with ⟨item, inFile, inItem⟩
  have itemWritten := written item inFile
  cases item with
  | classDecl => exact itemWritten.methods decl inItem
  | function =>
      cases List.mem_singleton.mp inItem
      exact itemWritten
  | _ => cases inItem

/-- The passes agree on the locals of every function that the first pass
records, which are the functions of files and the methods of the classes that
it takes; and what it reports of locals, it reports of those functions. -/
theorem SymbolModel.passes_agree_on_locals {files : List SourceFile} {programs : List Program}
    (read : readFiles files = .ok programs) :
    let recorded := withBuiltins.buildsAll (programs.flatMap Program.items)
    (∀ built ∈ recorded, ∀ place scopes, built.2.LocalsAgree built.1 place scopes) ∧
      (ofPrograms programs).repeatedLocals = recorded.flatMap fun built =>
        (Declarations.functionRecord built.1 built.2).repeatedLocals := by
  refine ⟨fun built member place scopes => ?_, ?_⟩
  · have inFiles := mem_bodies_of_mem_buildsAll member
    rw [List.flatMap_assoc] at inFiles
    rcases List.mem_flatMap.mp inFiles with ⟨program, isRead, inProgram⟩
    have written := forall_of_readFiles read Program.written_ofSource program isRead
    have ordered := forall_of_readFiles read Program.ordered_localPlaces program isRead
    have apart : built.2.localPlaces.Nodup :=
      ((List.pairwise_flatMap.mp ordered).1 built.2 inProgram).imp Position.Precedes.ne
    exact FunctionDecl.locals_agree (written.of_mem_bodies inProgram) apart built.1 place scopes
  · simp only [Declarations.repeatedLocals_functionRecord]
    exact repeatedLocals_ofPrograms programs

/-- A file with locals that hide others and with names that are taken: by a
parameter, in a block and in the body.  The first of two parameters counts, and
the second of two classes is not looked into. -/
def shadowingFile : SourceFile :=
  ⟨"shadow.kn", "fn f(int a, bool a): void \x7b int a; int b; \x7b int a; bool b; \x7d " ++
    "for (int b = 0; b < 1; b = b + 1) \x7b int b; bool b; \x7d int b; \x7d " ++
    "class C \x7b fn m(): void \x7b if (true) \x7b int x; \x7d int x; bool x; \x7d \x7d " ++
    "class C \x7b fn m(): void \x7b int y; int y; \x7d \x7d"⟩

/-- The passes agree on the function and the method that are recorded. -/
theorem SymbolModel.passes_agree_on_locals_shadowingFile :
    ∃ programs, readFiles [shadowingFile] = .ok programs ∧
      let recorded := withBuiltins.buildsAll (programs.flatMap Program.items)
      (∀ built ∈ recorded, ∀ place scopes, built.2.LocalsAgree built.1 place scopes) ∧
        recorded.map (fun built => (built.1, built.2.allotted.map Allotment.slot)) =
          [("f", [none, some 2, some 3, some 4, some 5, some 6, none, none]),
            ("C.m", [some 0, some 1, none])] ∧
        (ofPrograms programs).repeatedLocals.map Finding.problem =
          [.duplicateLocal "a" "f", .duplicateLocal "b" "f", .duplicateLocal "b" "f",
            .duplicateLocal "x" "C.m"] := by
  have found : readWith (fun programs =>
      let recorded := withBuiltins.buildsAll (programs.flatMap Program.items)
      decide (recorded.map (fun built => (built.1, built.2.allotted.map Allotment.slot)) =
          [("f", [none, some 2, some 3, some 4, some 5, some 6, none, none]),
            ("C.m", [some 0, some 1, none])] ∧
        (recorded.flatMap fun built =>
            (Declarations.functionRecord built.1 built.2).repeatedLocals).map Finding.problem =
          [.duplicateLocal "a" "f", .duplicateLocal "b" "f", .duplicateLocal "b" "f",
            .duplicateLocal "x" "C.m"])) [shadowingFile] = true :=
    readWith_of_letters
      (.cons (.append (.append (.append .literal .literal) .literal) .literal) .nil)
      (by decide +kernel)
  rcases exists_of_readWith found with ⟨programs, read, tested⟩
  rcases of_decide_eq_true tested with ⟨slots, problems⟩
  rcases passes_agree_on_locals read with ⟨agree, reported⟩
  exact ⟨programs, read, agree, slots, by rw [reported, problems]⟩

end KnightFront
