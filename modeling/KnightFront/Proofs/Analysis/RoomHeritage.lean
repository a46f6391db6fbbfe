import KnightFront.Proofs.Analysis.RoomExpr
import KnightFront.Proofs.Relabelling.Interfaces
import KnightFront.Proofs.Symbols.Names
import KnightFront.Proofs.Symbols.Rearranged

namespace KnightFront

/-!
# Reports about the interfaces of a class

A class that does not keep an interface is reported on where it names the
interface, once for every method that it lacks.  An interface can be reached in
many ways from one that is named, but the walk visits it once, so no two of these
reports name the same method and the same interface.  What a report names can be
read off it, since names hold no quotation marks.
-/

/-- No quotation mark is in a name. -/
def Unquoted (name : String) : Prop := '\'' ∉ name.toList

theorem IsIdentifier.unquoted {name : String} (identifier : IsIdentifier name) : Unquoted name := by
  rcases identifier.1 with ⟨first, more, spelled, starts, goesOn⟩
  rw [Unquoted, spelled, List.mem_cons, not_or]
  constructor
  · rintro rfl
    exact absurd starts (by decide)
  · exact fun member => absurd (goesOn _ member) (by decide)

namespace Stmt

mutual

/-- The locals of a statement that can be written have names without quotation
marks. -/
theorem Written.unquoted : ∀ (stmt : Stmt), stmt.Written →
    ∀ name ∈ stmt.declaredNames, Unquoted name
  | .varDecl .., written => List.forall_mem_singleton.mpr written.name.unquoted
  | .assign _, _ => List.forall_mem_nil _
  | .fieldAssign .., _ => List.forall_mem_nil _
  | .call .., _ => List.forall_mem_nil _
  | .ifThen _ _ body, written => Written.unquoted body written.2.1
  | .ifElse _ _ body alternative, written => List.forall_mem_append.mpr
      ⟨Written.unquoted body written.2.1, Written.unquoted alternative written.2.2.1⟩
  | .whileLoop _ _ body, written => Written.unquoted body written.2.1
  | .forLoop _ _ _ _ body _, written => List.forall_mem_cons.mpr
      ⟨written.1.name.unquoted, Written.unquoted body written.2.2.2.1⟩
  | .ret .., _ => List.forall_mem_nil _
  | .block _ stmts _, written => WrittenList.unquoted stmts written

theorem WrittenList.unquoted : ∀ (stmts : List Stmt), WrittenList stmts →
    ∀ name ∈ declaredNamesOfList stmts, Unquoted name
  | [], _ => List.forall_mem_nil _
  | first :: rest, written => List.forall_mem_append.mpr
      ⟨Written.unquoted first written.1, WrittenList.unquoted rest written.2⟩

end

end Stmt

theorem FunctionHead.Written.unquoted {head : FunctionHead} (written : head.Written) :
    ∀ name ∈ head.declaredNames, Unquoted name := by
  refine List.forall_mem_cons.mpr ⟨written.name.unquoted, fun name member => ?_⟩
  rcases List.mem_map.mp member with ⟨param, inHead, rfl⟩
  exact (written.params param inHead).name.unquoted

theorem FunctionDecl.Written.unquoted {decl : FunctionDecl} (written : decl.Written) :
    ∀ name ∈ decl.declaredNames, Unquoted name :=
  List.forall_mem_append.mpr ⟨written.head.unquoted,
    Stmt.WrittenList.unquoted _ (Stmt.writtenList_iff.mpr written.body)⟩

theorem Item.Written.unquoted {item : Item} (written : item.Written) :
    ∀ name ∈ item.declaredNames, Unquoted name := by
  cases item with
  | inclusion => exact List.forall_mem_nil _
  | enumeration decl =>
      refine List.forall_mem_cons.mpr ⟨written.1.unquoted, fun name member => ?_⟩
      rcases List.mem_map.mp member with ⟨part, inEnum, rfl⟩
      exact (written.2 part inEnum).unquoted
  | interface decl =>
      refine List.forall_mem_cons.mpr ⟨written.name.unquoted, fun name member => ?_⟩
      rcases List.mem_flatMap.mp member with ⟨head, inInterface, declares⟩
      exact (written.methods head inInterface).unquoted name declares
  | classDecl decl =>
      refine List.forall_mem_append.mpr ⟨List.forall_mem_cons.mpr ⟨written.name.unquoted, ?_⟩, ?_⟩
      · intro name member
        rcases List.mem_map.mp member with ⟨field, inClass, rfl⟩
        exact (written.fields field inClass).name.unquoted
      · intro name member
        rcases List.mem_flatMap.mp member with ⟨method, inClass, declares⟩
        exact (written.methods method inClass).unquoted name declares
  | function decl => exact FunctionDecl.Written.unquoted written
  | globalVariable decl => exact List.forall_mem_singleton.mpr written.name.unquoted

/-- The model of files that have been read holds no name with a quotation mark. -/
theorem SymbolModel.unquoted_ofPrograms {programs : List Program}
    (written : ∀ program ∈ programs, program.Written) :
    (ofPrograms programs).value.Names Unquoted := by
  refine names_ofPrograms ?_ fun program inFiles name member => ?_
  · have all : (Builtin.all.all fun builtin => !builtin.name.toList.contains '\'') = true := by
      decide
    intro builtin listed
    have plain := List.all_eq_true.mp all builtin listed
    simpa [Unquoted] using plain
  · rcases List.mem_flatMap.mp member with ⟨item, inFile, declares⟩
    exact (written program inFiles item inFile).unquoted name declares

namespace SymbolModel

/-- A walk visits no two interfaces of one name. -/
theorem nodup_closureWithin (unvisited : List InterfaceRecord) (pending : List String)
    (distinct : (unvisited.map Named.nameOf).Nodup) :
    ((closureWithin unvisited pending).map Named.nameOf).Nodup := by
  fun_induction closureWithin unvisited pending with
  | case1 unvisited => exact List.nodup_nil
  | case2 unvisited name later missing inductionHypothesis => exact inductionHypothesis distinct
  | case3 unvisited name later record found inductionHypothesis =>
      have named : Named.nameOf record = name := by simpa using List.find?_some found
      rw [List.map_cons, List.nodup_cons]
      refine ⟨fun again => ?_, inductionHypothesis (nodup_crossOff distinct name)⟩
      rcases List.mem_map.mp again with ⟨other, reached, same⟩
      have left := List.of_mem_filter (mem_closureWithin _ _ reached)
      simp [same, named] at left

/-- The methods that an interface requires, its own and those of all that it
extends, each with the interface that declares it. -/
def requirements (model : SymbolModel) (interface : String) :
    List (InterfaceRecord × FunctionRecord) :=
  (model.interfaceClosure interface).flatMap fun owner => owner.methods.sorted.map (owner, ·)

/-- No requirement recurs. -/
theorem nodup_requirements (model : SymbolModel) (interface : String) :
    ((model.requirements interface).map fun required =>
      (required.1.name, required.2.name)).Nodup := by
  have owners : ((model.interfaceClosure interface).map InterfaceRecord.name).Nodup :=
    nodup_closureWithin _ _ model.interfaces.distinct
  rw [requirements, List.map_flatMap, List.nodup_flatMap]
  constructor
  · intro owner _
    have methods : (owner.methods.sorted.map FunctionRecord.name).Nodup :=
      ((List.mergeSort_perm _ _).map _).nodup_iff.mpr owner.methods.distinct
    have paired : ((owner.methods.sorted.map FunctionRecord.name).map (Prod.mk owner.name)).Nodup :=
      methods.map fun _ _ same => (Prod.mk.inj same).2
    rw [List.map_map] at paired ⊢
    exact paired
  · refine (List.pairwise_map.mp owners).imp fun different => List.disjoint_left.mpr ?_
    rintro ⟨owner, method⟩ inFirst inSecond
    simp only [List.map_map, List.mem_map, Function.comp_apply, Prod.mk.injEq] at inFirst inSecond
    rcases inFirst with ⟨_, _, same, _⟩
    rcases inSecond with ⟨_, _, same', _⟩
    exact different (same.trans same'.symm)

end SymbolModel

/-- A diagnostic does not tell that a method fails to match its declaration in an
interface. -/
def Diagnostic.OfNoMismatchedMethod (diagnostic : Diagnostic) : Prop :=
  ∀ problem : Problem, problem.isMismatchedMethod = true → diagnostic.message ≠ problem.message

namespace Analysis

open Resolution Typing

variable {diagnostic : Diagnostic} (model : SymbolModel) (decl : ClassDecl)

/-- The findings about one interface that a class names. -/
def useFindings (used : NameUse) : List Finding :=
  (model.interfaceClosure used.text).flatMap fun interface =>
    interface.methods.sorted.flatMap (requiredFindings model decl used interface)

theorem useFindings_eq_flatMap (used : NameUse) :
    useFindings model decl used = (model.requirements used.text).flatMap fun required =>
      requiredFindings model decl used required.1 required.2 := by
  simp only [useFindings, SymbolModel.requirements, List.flatMap_assoc, List.flatMap_map]

/-- A required method is missed where the interface is named.  A method of another
signature is not counted. -/
theorem times_requiredFindings (other : diagnostic.OfNoMismatchedMethod) (used : NameUse)
    (required : InterfaceRecord × FunctionRecord) :
    (Reported.mk () (requiredFindings model decl used required.1 required.2)).tally
        diagnostic.tells ≤
      if diagnostic.message =
          (Problem.missingMethod decl.name required.2.name required.1.name).message then
        diagnostic.plainRoom used.span.start
      else 0 := by
  unfold requiredFindings
  split
  · have reported : (Reported.report used.span.start
        (.missingMethod decl.name required.2.name required.1.name)).tally diagnostic.tells ≤
          diagnostic.plainRoom used.span.start :=
      Reported.times_report_le_plainRoom rfl
    split
    · exact reported
    · next differs =>
        exact Nat.le_of_eq (Reported.times_reportIf_of_ne differs true)
  · next _ found _ =>
      have silent : (Reported.reportIf (!found.signature.agrees required.2.signature) found.position
          (.mismatchedMethod decl.name required.2.name required.1.name)).tally
            diagnostic.tells = 0 :=
        Reported.times_reportIf_of_ne (other _ rfl) _
      split
      · exact Nat.zero_le _
      · next disagrees =>
          rw [Bool.not_eq_true] at disagrees
          rw [disagrees] at silent
          exact Nat.le_trans (Nat.le_of_eq silent) (Nat.zero_le _)

/-- What an interface requires is missed at most once where it is named. -/
theorem times_useFindings (other : diagnostic.OfNoMismatchedMethod) (names : model.Names Unquoted)
    (used : NameUse) :
    (Reported.mk () (useFindings model decl used)).tally diagnostic.tells ≤
      diagnostic.plainRoom used.span.start := by
  have each (required : InterfaceRecord × FunctionRecord) :=
    times_requiredFindings model decl other used required
  have told (required : InterfaceRecord × FunctionRecord)
      (reported : 0 < (Reported.mk () (requiredFindings model decl used required.1
        required.2)).tally diagnostic.tells) :
      diagnostic.message =
        (Problem.missingMethod decl.name required.2.name required.1.name).message := by
    by_contra differs
    have bound := each required
    rw [if_neg differs] at bound
    omega
  have unquoted (required : InterfaceRecord × FunctionRecord)
      (member : required ∈ model.requirements used.text) : Unquoted required.2.name := by
    rcases List.mem_flatMap.mp member with ⟨owner, reached, listed⟩
    rcases List.mem_map.mp listed with ⟨method, inOwner, rfl⟩
    exact names.interfaceMethods owner (SymbolModel.mem_closureWithin _ _ reached) method
      ((List.mergeSort_perm _ _).mem_iff.mp inOwner)
  rw [useFindings_eq_flatMap]
  refine countP_flatMap_le_of_key (model.nodup_requirements used.text)
    (fun required _ => ?_) fun first inFirst second inSecond firstTold secondTold => ?_
  · refine Nat.le_trans (each required) ?_
    split
    · exact Nat.le_refl _
    · exact Nat.zero_le _
  · have same := Problem.missingMethod_inj (unquoted first inFirst) (unquoted second inSecond)
      ((told first firstTold).symm.trans (told second secondTold))
    exact Prod.ext same.2 same.1

/-- An interface that is named is unknown, or what it requires may be missed. -/
theorem times_bindInterface (other : diagnostic.OfNoMismatchedMethod) {place : NamePlace}
    (names : place.model.Names Unquoted) (used : NameUse) :
    (bindInterface place used).tally diagnostic.tells +
        (Reported.mk () (useFindings place.model decl (bindInterface place used).value)).tally
          diagnostic.tells ≤
      diagnostic.room used.span.start := by
  have room := diagnostic.plainRoom_add_callRoom used.span.start
  have missed := times_useFindings place.model decl other names used
  unfold bindInterface
  cases found : place.model.interface? used.text with
  | none =>
      have reported : (Reported.report used.span.start (.undefinedInterface used.text)).tally
          diagnostic.tells ≤ diagnostic.plainRoom used.span.start :=
        Reported.times_report_le_plainRoom rfl
      have unknown : place.model.interfaceClosure used.text = [] := by
        rw [SymbolModel.interfaceClosure, SymbolModel.closureWithin_of_missing found,
          SymbolModel.closureWithin]
      have silent : useFindings place.model decl used = [] := by
        rw [useFindings, unknown, List.flatMap_nil]
      simp only [bindName, Option.map_none, Reported.tally_bind, Reported.tally_pure,
        Reported.value_bind, Reported.value_pure, silent]
      change (Reported.report _ _).tally _ + 0 + 0 ≤ _
      omega
  | some record =>
      simp only [bindName, Option.map_some, Reported.tally_pure, Reported.value_pure]
      change 0 + (Reported.mk () (useFindings place.model decl used)).tally diagnostic.tells ≤ _
      omega

/-- Only the class that the model has taken up is judged by its interfaces. -/
theorem times_conformanceFindings_le (diagnostic : Diagnostic) :
    (Reported.mk () (conformanceFindings model decl)).tally diagnostic.tells ≤
      (decl.uses.map fun used =>
        (Reported.mk () (useFindings model decl used)).tally diagnostic.tells).sum := by
  unfold conformanceFindings
  split
  · exact Nat.zero_le _
  · split
    · exact Nat.zero_le _
    · exact Nat.le_of_eq List.countP_flatMap

end Analysis

end KnightFront
