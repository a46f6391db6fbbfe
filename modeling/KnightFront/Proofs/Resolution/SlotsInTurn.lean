import KnightFront.Proofs.Resolution.Nesting
import KnightFront.Proofs.Resolution.SameLocals

namespace KnightFront

/-!
# Slots follow one another

The variables in the scopes of a function have slots of their own.  Those of
the parameters count the parameter list, and those of the locals go on from
there without a gap, however deep the block of a local is and however many
scopes have been closed before it.

A function is resolved behind the scopes of others.  What it declares stays as
it is when more functions follow, so this can be said of the scopes of the
whole file.
-/

open Allotment (entities)

theorem Table.find?_foldl_add {α : Type} [Named α] (entries : List α) (table : Table α)
    (name : String) : (entries.foldl Table.add table).find? name =
      (table.find? name).or (entries.find? fun entry => Named.nameOf entry == name) := by
  induction entries generalizing table with
  | nil => simp
  | cons first rest inductionHypothesis =>
      have added : ((table.add first).find? name) =
          (table.find? name).or (if Named.nameOf first = name then some first else none) :=
        find?_add table first name
      rw [List.foldl_cons, inductionHypothesis, added, Option.or_assoc]
      by_cases same : Named.nameOf first = name
      · simp [same]
      · simp [same, beq_eq_false_iff_ne.mpr same]

namespace Declarations

/-- A name is found at the slot that counts the parameters in front. -/
theorem map_slot_find?_paramVariable (params : List Param) (name : String) :
    ((params.mapIdx paramVariable).find? fun entity => entity.name == name).map Variable.slot =
      (params.findIdx? fun param => param.name == name).map some := by
  have behind (start : Nat) : ((params.mapIdx fun slot => paramVariable (start + slot)).find?
      fun entity => entity.name == name).map Variable.slot =
        (params.findIdx? fun param => param.name == name).map
          fun index => some (start + index) := by
    induction params generalizing start with
    | nil => rfl
    | cons first rest inductionHypothesis =>
        have later := inductionHypothesis (start + 1)
        rw [List.mapIdx_cons, List.find?_cons, List.findIdx?_cons]
        cases same : first.name == name with
        | true => simp [paramVariable, same]
        | false =>
            simpa [paramVariable, same, Nat.add_assoc, Nat.add_comm 1, Function.comp_def]
              using later
  simpa using behind 0

theorem map_slot_paramVariable (params : List Param) :
    (params.mapIdx paramVariable).map Variable.slot = (List.range params.length).map some := by
  refine List.ext_getElem? fun index => ?_
  rcases Nat.lt_or_ge index params.length with inside | outside
  · simp [inside, paramVariable]
  · simp [outside]

end Declarations

namespace FunctionDecl

variable (decl : FunctionDecl)

/-- A name stands for the first parameter that has it. -/
theorem slot_find?_paramTable (name : String) :
    (decl.paramTable.find? name).map Variable.slot =
      (decl.head.params.findIdx? fun param => param.name == name).map some := by
  have empty : (Table.empty : Table Variable).find? name = none := rfl
  rw [paramTable, Table.find?_foldl_add, empty, Option.none_or]
  exact Declarations.map_slot_find?_paramVariable decl.head.params name

theorem sublist_paramSlots :
    (decl.paramTable.entries.map Variable.slot).Sublist
      ((List.range decl.head.params.length).map some) := by
  rw [← Declarations.map_slot_paramVariable]
  exact (Table.sublist_foldl_add _ .empty).map _

/-- The locals that take a slot take the slots behind the parameters. -/
theorem map_slot_entities :
    (entities decl.allotted).map Variable.slot =
      (List.range' decl.head.params.length (entities decl.allotted).length).map some := by
  have inTurn : Allotment.InTurn decl.head.params.length decl.allotted :=
    Stmt.inTurn_allottedOfList _ _ decl.body
  rw [← inTurn, entities, List.map_filterMap, List.map_filterMap]
  refine List.filterMap_congr fun allotment _ => ?_
  rw [Allotment.entity?, Option.map_map]
  rfl

/-- The scopes of a function, that of its parameters and those of its body and
of the constructs in it, declare what this function asks for. -/
structure SlotsInTurn (params : Scope) (blocks : List Scope) : Prop where
  /-- No two variables of the function are at one slot. -/
  distinct : ((Scopes.entries (params :: blocks)).map Variable.slot).Nodup
  slotted : ∀ entity ∈ Scopes.entries (params :: blocks), entity.slot.isSome = true
  /-- A parameter's name has the place of the first parameter with this name. -/
  paramSlots : ∀ name, (params.entries.find? name).map Variable.slot =
    (decl.head.params.findIdx? fun param => param.name == name).map some
  /-- The blocks declare the accepted locals. -/
  accepted : (Scopes.entries blocks).Perm (entities decl.allotted)
  /-- In the order of the text they have the slots behind the parameters. -/
  ordered : ((entities decl.allotted).map Variable.position).Pairwise Position.Precedes
  localSlots : (entities decl.allotted).map Variable.slot =
    (List.range' decl.head.params.length (entities decl.allotted).length).map some

variable {decl}

theorem slotsInTurn {params : Scope} {blocks : List Scope}
    (table : params.entries = decl.paramTable)
    (accepted : (Scopes.entries blocks).Perm (entities decl.allotted))
    (apart : decl.localPlaces.Pairwise Position.Precedes) : decl.SlotsInTurn params blocks := by
  let paramSlots := decl.paramTable.entries.map Variable.slot
  let localSlots := (entities decl.allotted).map Variable.slot
  have all : ((Scopes.entries (params :: blocks)).map Variable.slot).Perm
      (paramSlots ++ localSlots) := by
    have locals := (accepted.map Variable.slot).append_left paramSlots
    simpa [Scopes.entries, table, paramSlots] using locals
  have within : (paramSlots ++ localSlots).Sublist
      ((List.range (decl.head.params.length + (entities decl.allotted).length)).map some) := by
    have locals : localSlots =
        ((List.range (entities decl.allotted).length).map (decl.head.params.length + ·)).map some := by
      rw [← List.range'_eq_map_range]
      exact decl.map_slot_entities
    rw [List.range_add, List.map_append, ← locals]
    exact decl.sublist_paramSlots.append_right localSlots
  constructor
  case distinct =>
    exact all.nodup_iff.mpr (within.nodup (List.nodup_range.map fun _ _ => Option.some.inj))
  case slotted =>
    intro entity member
    have among := within.subset (all.subset (List.mem_map_of_mem member))
    obtain ⟨slot, -, same⟩ := List.mem_map.mp among
    simp [← same]
  case paramSlots => exact fun name => table ▸ decl.slot_find?_paramTable name
  case accepted => exact accepted
  case ordered => exact (List.pairwise_append.mp apart).2.1.sublist decl.sublist_localPlaces
  case localSlots => exact decl.map_slot_entities

end FunctionDecl

namespace Scopes

variable {scopes behind : List Scope}

/-- What is recorded in a list of scopes is at its place there. -/
theorem map_scope_of_openings (scopes : List Scope) :
    (openings scopes).map (fun opening => opening.scope.bind (scopes[·]?)) = scopes.map some := by
  refine List.ext_getElem? fun index => ?_
  simp only [openings, List.getElem?_map, List.getElem?_mapIdx]
  cases present : scopes[index]? <;> simp [present]

/-- Constructs that were opened behind some scopes are recorded as what comes
behind. -/
theorem map_scope_of_opened {before after : List Scope} {made : List Opening}
    (opened : openings after = openings before ++ made) :
    made.map (fun opening => opening.scope.bind (after[·]?)) =
      (after.drop before.length).map some := by
  have all := map_scope_of_openings after
  rw [opened, List.map_append] at all
  let slot (opening : Opening) := opening.scope.bind (after[·]?)
  calc
    made.map slot = ((openings before).map slot ++ made.map slot).drop before.length := by
      rw [List.drop_append_of_le_length (by simp), List.drop_of_length_le (by simp),
        List.nil_append]
    _ = (after.map some).drop before.length := by rw [all]
    _ = (after.drop before.length).map some := List.map_drop.symm

/-- What has been recorded stays when more scopes come behind. -/
theorem map_scope_append {made : List Opening} {found : List Scope}
    (recorded : made.map (fun opening => opening.scope.bind (scopes[·]?)) = found.map some)
    (grown : scopes <+: behind) :
    made.map (fun opening => opening.scope.bind (behind[·]?)) = found.map some := by
  rw [← recorded]
  refine List.map_congr_left fun opening member => ?_
  obtain ⟨scope, -, same⟩ := List.mem_map.mp (recorded ▸ List.mem_map_of_mem member)
  obtain ⟨identity, isScope, present⟩ := Option.bind_eq_some_iff.mp same.symm
  obtain ⟨later, rfl⟩ := grown
  rw [isScope, Option.bind_some, Option.bind_some,
    List.getElem?_append_left (List.getElem?_eq_some_iff.mp present).1]

end Scopes

namespace Resolution

/-- In front of the scope of a function's body stay the scopes that were there
and that of the parameters. -/
theorem take_resolveFunction {decl : FunctionDecl} (written : decl.Written)
    (place : NamePlace) (scopes : List Scope) :
    (resolveFunction place scopes decl).value.2.take (scopes.length + 1) =
      scopes ++ [⟨none, .parameters, decl.paramTable⟩] := by
  let entry := enterFunction scopes decl.head.params
  have start : entry.state.scopes = scopes ++ [⟨none, .parameters, decl.paramTable⟩] ++
      [Scope.opened (some scopes.length) .block] := by
    rw [← declareParams_eq]
    rfl
  have bodyScope : entry.bodyScope = scopes.length + 1 := by
    change (declareParams _ scopes.length decl.head.params).length = _
    rw [declareParams_eq, List.length_append, List.length_singleton]
  rcases inside_enterFunction place scopes decl with ⟨inside, hides⟩
  have keeps := (resolved_resolveStmts _ _ _ [decl.paramFrame] decl.hidden [] decl.body inside hides
    (Stmt.writtenList_iff.mpr written.body)).keeps
  calc
    _ = (resolveStmts (bodyPlace place entry) entry.state decl.body).value.2.scopes.take
        entry.bodyScope := by simp [resolveFunction, bodyScope, entry]
    _ = entry.state.scopes.take entry.bodyScope := keeps.take_eq
    _ = _ := by rw [bodyScope, start, List.take_left' (by simp)]

/-- The scopes of a function, which come behind those that were there, declare
what it asks for. -/
theorem slotsInTurn_resolveFunction {decl : FunctionDecl} (written : decl.Written)
    (apart : decl.localPlaces.Pairwise Position.Precedes) (place : NamePlace)
    (scopes : List Scope) :
    ∃ params blocks, decl.SlotsInTurn params blocks ∧
      (resolveFunction place scopes decl).value.2 = scopes ++ params :: blocks := by
  let after := (resolveFunction place scopes decl).value.2
  let params : Scope := ⟨none, .parameters, decl.paramTable⟩
  have split : after = scopes ++ params :: after.drop (scopes.length + 1) := by
    rw [List.append_cons, ← take_resolveFunction written place scopes, List.take_append_drop]
  obtain ⟨-, declared⟩ := allots_resolveFunction written place scopes
  refine ⟨params, _, FunctionDecl.slotsInTurn rfl ?_ apart, split⟩
  change (Scopes.entries (after.drop scopes.length)).Perm _ at declared
  rw [split, List.drop_left] at declared
  exact (List.perm_append_left_iff decl.paramTable.entries).mp declared

/-- The scopes recorded in a function, among those of its file. -/
def Declares (scopes : List Scope) (parsed resolved : FunctionDecl) : Prop :=
  ∃ params blocks,
    resolved.openings.map (fun opening => opening.scope.bind (scopes[·]?)) =
        (params :: blocks).map some ∧
      parsed.SlotsInTurn params blocks

/-- Functions that are resolved one after another declare what they ask for. -/
theorem FunctionRun.declares {before after : List Scope} {decls resolved : List FunctionDecl}
    (run : FunctionRun before decls resolved after) (written : ∀ decl ∈ decls, decl.Written)
    (apart : ∀ decl ∈ decls, decl.localPlaces.Pairwise Position.Precedes) :
    List.Forall₂ (Declares after) decls resolved ∧ before <+: after := by
  induction run with
  | done scopes => exact ⟨.nil, List.prefix_refl _⟩
  | @next scopes after first rest resolved place _ inductionHypothesis =>
      rw [List.forall_mem_cons] at written apart
      obtain ⟨later, grown⟩ := inductionHypothesis written.2 apart.2
      obtain ⟨params, blocks, inTurn, split⟩ :=
        slotsInTurn_resolveFunction written.1 apart.1 place scopes
      have opens := opens_resolveFunction scopes first place
      have recorded := Scopes.map_scope_of_opened opens.openings
      rw [split, List.drop_left, ← split] at recorded
      refine ⟨.cons ⟨params, blocks, Scopes.map_scope_append recorded grown, inTurn⟩ later, ?_⟩
      exact .trans (split ▸ List.prefix_append _ _) grown

end Resolution

/-- In a file that has been read and resolved, the scopes of each function
declare its parameters and its locals at slots that follow one another. -/
theorem Program.declares_resolve {file source : String} {program : Program}
    (accepted : ofSource file source = .ok program) (model : SymbolModel) :
    let resolved := (program.resolve model).value
    List.Forall₂ (Resolution.Declares resolved.scopes) program.bodies resolved.bodies := by
  have written := written_ofSource accepted
  have ordered := ordered_localPlaces accepted
  exact ((program.run_resolve model).declares (fun _ member => written.of_mem_bodies member)
    (List.pairwise_flatMap.mp ordered).1).1

/-- Names that are taken by a parameter, in a block and in the body take no
slot. -/
theorem Program.declares_resolve_shadowingFile :
    ∃ program, ofSource shadowingFile.name shadowingFile.text = .ok program ∧
      let resolved := (program.resolve (SymbolModel.ofPrograms [program]).value).value
      List.Forall₂ (Resolution.Declares resolved.scopes) program.bodies resolved.bodies ∧
        resolved.scopes.map (fun scope => scope.entries.entries.map fun entity =>
            (entity.name, entity.slot)) =
          [[("a", some 0)], [("b", some 2)], [("a", some 3), ("b", some 4)], [("b", some 5)],
            [("b", some 6)], [], [("x", some 1)], [("x", some 0)], [], [("y", some 0)]] := by
  have passes : acceptedWith (fun program =>
      let resolved := (program.resolve (SymbolModel.ofPrograms [program]).value).value
      decide (resolved.scopes.map (fun scope => scope.entries.entries.map fun entity =>
            (entity.name, entity.slot)) =
          [[("a", some 0)], [("b", some 2)], [("a", some 3), ("b", some 4)], [("b", some 5)],
            [("b", some 6)], [], [("x", some 1)], [("x", some 0)], [], [("y", some 0)]]))
      shadowingFile.name shadowingFile.text = true :=
    acceptedWith_of_letters (.append (.append (.append .literal .literal) .literal) .literal)
      (by decide +kernel)
  obtain ⟨program, accepted, tested⟩ := exists_of_acceptedWith passes
  exact ⟨program, accepted, declares_resolve accepted _, of_decide_eq_true tested⟩

end KnightFront
