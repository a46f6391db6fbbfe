import KnightFront.Proofs.Analysis.RoomHeritage
import KnightFront.Proofs.Analysis.RoomStmt
import KnightFront.Proofs.Edits.SpoiledProgram
import Mathlib.Algebra.Order.BigOperators.Group.List
import Mathlib.Algebra.Order.Group.Nat

namespace KnightFront

/-!
# Reports about declarations

In the passes that resolve and check, a declaration is reported on at most once for
every token that it mentions and for every conversion, except that a function without
a closing return is reported on where its name is declared.  The first pass may report on the name
there too, but never in the same words; so the room at the name goes to the one or
to the other, depending on the message that is counted.
-/

namespace Diagnostic

variable (diagnostic : Diagnostic) (head : FunctionHead)

/-- The room at the name of a function for a report that it lacks a return. -/
def returnRoom : Nat :=
  if diagnostic.message = (Problem.missingReturn head.name head.returnTy).message then
    diagnostic.plainRoom head.span.start
  else 0

/-- The room at the names of the functions and methods of a declaration for reports
that they lack a return. -/
def returnRooms (item : Item) : Nat :=
  (item.bodies.map fun decl => diagnostic.returnRoom decl.head).sum

end Diagnostic

namespace Analysis

open Resolution Typing

variable {diagnostic : Diagnostic}

section Functions

variable (place : NamePlace)

/-- The head of a function is reported on at most once for every type. -/
theorem times_checkHead (diagnostic : Diagnostic) (head : FunctionHead) :
    (checkHead place head).tally diagnostic.tells ≤ diagnostic.rooms head.mentions := by
  have type (ty : Ty) (position : Position) :
      (checkTy place ty position).tally diagnostic.tells ≤ diagnostic.room position :=
    Nat.le_trans (Nat.le_add_right _ _) (times_ty diagnostic place ty position head.name)
  have params : (head.params.map fun param =>
      (checkTy place param.ty param.tySpan.start).tally diagnostic.tells).sum ≤
        (head.params.map fun param => diagnostic.room param.tySpan.start).sum :=
    List.sum_le_sum fun param _ => type param.ty param.tySpan.start
  have returned := type head.returnTy head.returnTySpan.start
  calc
    (checkHead place head).tally diagnostic.tells =
        (head.params.map fun param =>
          (checkTy place param.ty param.tySpan.start).tally diagnostic.tells).sum +
            (checkTy place head.returnTy head.returnTySpan.start).tally diagnostic.tells := by
      rw [checkHead, Reported.tally_bind, List.forM_eq_forM, Reported.tally_forM]
    _ ≤ (head.params.map fun param => diagnostic.room param.tySpan.start).sum +
          diagnostic.room head.returnTySpan.start := Nat.add_le_add params returned
    _ = diagnostic.rooms head.mentions := by
      rw [FunctionHead.mentions, diagnostic.rooms_append, diagnostic.rooms_map]
      rfl

theorem times_missingReturn (diagnostic : Diagnostic) (head : FunctionHead) (condition : Bool) :
    (Reported.reportIf condition head.span.start
        (.missingReturn head.name head.returnTy)).tally diagnostic.tells ≤
      diagnostic.returnRoom head := by
  unfold Diagnostic.returnRoom
  split
  · refine Nat.le_trans (Reported.times_reportIf_le_plainRoom rfl _) ?_
    split
    · exact Nat.le_refl _
    · exact Nat.zero_le _
  · next other => exact Nat.le_of_eq (Reported.times_reportIf_of_ne other condition)

/-- A function is reported on at most once for every token that it mentions and for
every conversion, and once where it is named if it lacks a return. -/
theorem times_function (diagnostic : Diagnostic) (scopes : List Scope) {decl : FunctionDecl}
    (written : decl.Written) (anchored : ∀ expr ∈ decl.exprs, expr.Anchored) :
    functionTally diagnostic.tells place scopes decl ≤
      diagnostic.share decl.mentions decl.exprs + diagnostic.returnRoom decl.head := by
  let entry := enterFunction scopes decl.head.params
  let inner := bodyPlace place entry
  rw [FunctionDecl.exprs, List.forall_mem_append] at anchored
  have head := times_checkHead place diagnostic decl.head
  have body : stmtsTally diagnostic.tells inner decl.head entry.state decl.body ≤ _ :=
    times_stmts diagnostic _ _ _ (Stmt.writtenList_iff.mpr written.body) anchored.1
  have parts : diagnostic.share decl.mentions decl.exprs =
      diagnostic.rooms decl.head.mentions +
        (diagnostic.share (Stmt.mentionsOfList decl.body) (Stmt.exprsOfList decl.body) +
          diagnostic.share (decl.closing.toList.flatMap Return.mentions)
            (decl.closing.toList.flatMap Return.exprs)) := by
    rw [← diagnostic.share_append]
    exact diagnostic.share_append decl.head.mentions _ [] decl.exprs
  rw [functionTally_eq, parts]
  dsimp only [inner, entry] at body ⊢
  cases closing : decl.closing with
  | none =>
      have missing := times_missingReturn diagnostic decl.head
        (differs .void decl.head.returnTy)
      rw [closingTally]
      omega
  | some returned =>
      let behind := (resolveStmts inner entry.state decl.body).value.2.scopes
      have closes := times_return diagnostic decl.head inner behind (written.closing returned closing)
        fun expr inside => anchored.2 expr (by simp [closing, inside])
      rw [closingTally, Option.toList_some, List.flatMap_singleton, List.flatMap_singleton]
      dsimp only [behind, inner, entry] at closes
      omega

end Functions

/-- What stands in front of a name is unknown, or nothing is reported. -/
theorem times_bindParent (diagnostic : Diagnostic) (place : NamePlace) (parent : NameUse) :
    (bindParent place parent).tally diagnostic.tells ≤ diagnostic.room parent.span.start := by
  have room := diagnostic.plainRoom_add_callRoom parent.span.start
  unfold bindParent
  cases (place.model.class? parent.text).map fun _ => Binding.classType parent.text with
  | some _ => exact Nat.zero_le _
  | none =>
      have reported : (Reported.report parent.span.start (.undefinedClass parent.text)).tally
          diagnostic.tells ≤ diagnostic.plainRoom parent.span.start :=
        Reported.times_report_le_plainRoom rfl
      rw [bindName, Reported.tally_bind, Reported.tally_pure]
      omega

/-- The interfaces of a class are reported on at most once where they are named. -/
theorem times_uses (other : diagnostic.OfNoMismatchedMethod) (place : NamePlace)
    (names : place.model.Names Unquoted) (decl : ClassDecl) :
    let uses := decl.uses.mapM (bindInterface place)
    uses.tally diagnostic.tells + (Reported.mk () (conformanceFindings place.model
        { decl with uses := uses.value })).tally diagnostic.tells ≤
      diagnostic.rooms (decl.uses.map fun used => used.span.start) := by
  intro uses
  let bound := { decl with uses := uses.value }
  have conformance := times_conformanceFindings_le place.model bound diagnostic
  have each (used : NameUse) (_ : used ∈ decl.uses) := times_bindInterface bound other names used
  have total := List.sum_le_sum each
  rw [List.sum_map_add] at total
  rw [diagnostic.rooms_map]
  simp only [bound, uses, Reported.value_mapM, List.map_map, Function.comp_def] at conformance total ⊢
  rw [Reported.tally_mapM]
  omega

/-- A class is reported on at most once for every token that it mentions and for every
conversion, and once where a method is named that lacks a return. -/
theorem times_class (other : diagnostic.OfNoMismatchedMethod) {model : SymbolModel}
    (names : model.Names Unquoted) (scopes : List Scope) {decl : ClassDecl}
    (written : decl.Written) (anchored : ∀ expr ∈ decl.exprs, expr.Anchored) :
    classTally diagnostic.tells model scopes decl ≤
      diagnostic.share (Item.classDecl decl).mentions decl.exprs +
        diagnostic.returnRooms (.classDecl decl) := by
  let place : NamePlace := { model, className := some decl.name }
  rw [ClassDecl.exprs, List.forall_mem_append] at anchored
  have parent : (decl.parent.mapM (bindParent place)).tally diagnostic.tells ≤
      diagnostic.rooms (decl.parent.toList.map fun parent => parent.span.start) := by
    cases decl.parent with
    | none => exact Nat.zero_le _
    | some parent =>
        have bound := times_bindParent diagnostic place parent
        simpa using bound
  have uses := times_uses other place names decl
  have fields : (decl.fields.map (declTally diagnostic.tells place scopes)).sum ≤
      diagnostic.share (decl.fields.flatMap VarDecl.mentions)
        (decl.fields.flatMap VarDecl.exprs) := by
    rw [diagnostic.share_flatMap]
    refine List.sum_le_sum fun field inside => ?_
    exact times_decl diagnostic place scopes (written.fields field inside) fun expr member =>
      anchored.1 expr (List.mem_flatMap.mpr ⟨field, inside, member⟩)
  have methods : methodsTally diagnostic.tells place scopes decl.methods ≤
      diagnostic.share (decl.methods.flatMap FunctionDecl.mentions)
        (decl.methods.flatMap FunctionDecl.exprs) +
          diagnostic.returnRooms (.classDecl decl) := by
    have rooms : diagnostic.share (decl.methods.flatMap FunctionDecl.mentions)
        (decl.methods.flatMap FunctionDecl.exprs) + diagnostic.returnRooms (.classDecl decl) =
          (decl.methods.map fun method => diagnostic.share method.mentions method.exprs +
            diagnostic.returnRoom method.head).sum := by
      rw [diagnostic.share_flatMap, Diagnostic.returnRooms, Item.bodies, ← List.sum_map_add]
    rw [methodsTally, resolveMethods_eq_handOn, rooms]
    refine Reported.handOnTally_le (fun scopes method inside => ?_) scopes
    exact times_function place diagnostic scopes (written.methods method inside) fun expr member =>
      anchored.2 expr (List.mem_flatMap.mpr ⟨method, inside, member⟩)
  have parts : diagnostic.share (Item.classDecl decl).mentions decl.exprs =
      diagnostic.rooms (decl.parent.toList.map fun parent => parent.span.start) +
        (diagnostic.rooms (decl.uses.map fun used => used.span.start) +
          (diagnostic.share (decl.fields.flatMap VarDecl.mentions)
              (decl.fields.flatMap VarDecl.exprs) +
            diagnostic.share (decl.methods.flatMap FunctionDecl.mentions)
              (decl.methods.flatMap FunctionDecl.exprs))) := by
    rw [← diagnostic.share_append]
    unfold Diagnostic.share
    simp only [Item.mentions, diagnostic.rooms_append, ClassDecl.exprs]
    omega
  rw [classTally_eq, heritageTally, parts]
  dsimp only [place] at parent uses fields methods ⊢
  omega

/-- An interface is reported on at most once for every token that it mentions. -/
theorem times_interface (other : diagnostic.OfNoMismatchedMethod) (place : NamePlace)
    (names : place.model.Names Unquoted) (decl : InterfaceDecl) :
    (resolveInterface place decl).tally diagnostic.tells ≤
      diagnostic.rooms (Item.interface decl).mentions := by
  have bases : (decl.bases.map fun base => (bindInterface place base).tally diagnostic.tells).sum ≤
      (decl.bases.map fun base => diagnostic.room base.span.start).sum :=
    List.sum_le_sum fun base _ =>
      Nat.le_trans (Nat.le_add_right _ _) (times_bindInterface default other names base)
  have heads : (decl.methods.map fun head => (checkHead place head).tally diagnostic.tells).sum ≤
      (decl.methods.map fun head => diagnostic.rooms head.mentions).sum :=
    List.sum_le_sum fun head _ => times_checkHead place diagnostic head
  simp only [resolveInterface, Item.mentions, diagnostic.rooms_append, diagnostic.rooms_map,
    diagnostic.rooms_flatMap, Reported.tally_bind, Reported.tally_pure, Reported.tally_mapM,
    List.forM_eq_forM, Reported.tally_forM]
  omega

/-- A declaration is reported on at most once for every token that it mentions and for
every conversion, and once where a function is named that lacks a return. -/
theorem times_item (other : diagnostic.OfNoMismatchedMethod) {model : SymbolModel}
    (names : model.Names Unquoted) (scopes : List Scope) {item : Item} (written : item.Written)
    (anchored : ∀ expr ∈ item.exprs, expr.Anchored) :
    itemTally diagnostic.tells model scopes item ≤
      diagnostic.share item.mentions item.exprs + diagnostic.returnRooms item := by
  cases item with
  | inclusion => exact Nat.zero_le _
  | enumeration => exact Nat.zero_le _
  | interface decl =>
      have within := times_interface other { model } names decl
      rw [itemTally_interface]
      exact Nat.le_trans within (Nat.le_add_right _ _)
  | classDecl decl =>
      rw [itemTally_classDecl]
      exact times_class other names scopes written anchored
  | function decl =>
      have within := times_function { model } diagnostic scopes written anchored
      rw [itemTally_function]
      simpa [Item.mentions, Item.exprs, Diagnostic.returnRooms, Item.bodies] using within
  | globalVariable decl =>
      have within := times_decl diagnostic { model } scopes written anchored
      rw [itemTally_globalVariable]
      exact Nat.le_trans within (Nat.le_add_right _ _)

/-- A file is reported on in both passes at most once for every token that it mentions
and for every conversion, and once where a function is named that lacks a return. -/
theorem times_program (other : diagnostic.OfNoMismatchedMethod) {model : SymbolModel}
    (names : model.Names Unquoted) {program : Program} (written : program.Written)
    (anchored : ∀ item ∈ program.items, ∀ expr ∈ item.exprs, expr.Anchored) :
    programTally diagnostic.tells model program ≤
      (program.items.map fun item =>
        diagnostic.share item.mentions item.exprs + diagnostic.returnRooms item).sum := by
  have each (scopes : List Scope) (item : Item) (inside : item ∈ program.items) :=
    times_item other names scopes (written item inside) (anchored item inside)
  rw [programTally_eq, itemsTally, resolveItems_eq_handOn]
  exact Reported.handOnTally_le each program.scopes

end Analysis

open Analysis in
/-- In the passes that resolve and check, files are reported on at most once for every
token that they mention and for every conversion, and once where a function is named
that lacks a return. -/
theorem times_resolveAll_add_checkAll {diagnostic : Diagnostic}
    (other : diagnostic.OfNoMismatchedMethod)
    {programs : List Program} (written : ∀ program ∈ programs, program.Written)
    (anchored : ∀ program ∈ programs, ∀ item ∈ program.items, ∀ expr ∈ item.exprs,
      expr.Anchored) :
    (resolveAll programs).tally diagnostic.tells + (checkAll programs).tally diagnostic.tells ≤
      ((programs.flatMap Program.items).map fun item =>
        diagnostic.share item.mentions item.exprs + diagnostic.returnRooms item).sum := by
  have names := SymbolModel.unquoted_ofPrograms written
  let model := (SymbolModel.ofPrograms programs).value
  let room (item : Item) :=
    diagnostic.share item.mentions item.exprs + diagnostic.returnRooms item
  calc
    (resolveAll programs).tally diagnostic.tells + (checkAll programs).tally diagnostic.tells =
        (programs.map (programTally diagnostic.tells model)).sum := by
      rw [resolveAll, checkAll, resolveAll, Reported.tally_mapM_add_mapM]
      rfl
    _ ≤ (programs.map fun program => (program.items.map room).sum).sum :=
      List.sum_le_sum fun program inFiles =>
        times_program other names (written program inFiles) (anchored program inFiles)
    _ = ((programs.flatMap Program.items).map room).sum := by
      rw [List.map_flatMap, List.flatMap_def, List.sum_flatten, List.map_map]
      rfl

end KnightFront
