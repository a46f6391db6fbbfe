import KnightFront.Symbols.Model

namespace KnightFront

/-!
# Class and interface hierarchies

A class has at most one parent, an interface extends any number of others,
and neither relation needs to be sound: names may be undeclared, and a walk
along the relation may come back to where it began.  Both walks below cross
off what they have visited, so each visits every declaration at most once and
ends.
-/

/-- The records of other names. -/
def crossOff {α : Type} [Named α] (records : List α) (name : String) : List α :=
  records.filter fun other => !(Named.nameOf other == name)

theorem crossOff_cons {α : Type} [Named α] (first : α) (rest : List α) (name : String) :
    crossOff (first :: rest) name =
      if Named.nameOf first == name then crossOff rest name else first :: crossOff rest name := by
  cases same : Named.nameOf first == name <;> simp [crossOff, same]

/-- Crossing off a name that is present makes a list shorter. -/
theorem length_crossOff_lt {α : Type} [Named α] {records : List α} {name : String} {record : α}
    (found : records.find? (fun other => Named.nameOf other == name) = some record) :
    (crossOff records name).length < records.length := by
  have named : (Named.nameOf record == name) = true := by simpa using List.find?_some found
  exact List.length_filter_lt_length_iff_exists.mpr
    ⟨record, List.mem_of_find?_eq_some found, by simp [named]⟩

namespace SymbolModel

/-- The class of a name and its ancestors among the classes not yet visited,
nearest first.  An undeclared or visited parent ends the chain. -/
def chainWithin (unvisited : List ClassRecord) (name : String) : List ClassRecord :=
  match _found : unvisited.find? (fun record => Named.nameOf record == name) with
  | none => []
  | some record =>
      record ::
        match record.parent with
        | none => []
        | some parent => chainWithin (crossOff unvisited name) parent
termination_by unvisited.length
decreasing_by exact length_crossOff_lt _found

/-- A class and its ancestors, nearest first.  The walk stops at the first
undeclared parent or at the first class that it meets twice. -/
def classChain (model : SymbolModel) (name : String) : List ClassRecord :=
  chainWithin model.classes.entries name

/-- The nearest method of a name on a class or its ancestors, with the class
that declares it. -/
def findMethod? (model : SymbolModel) (className method : String) :
    Option (ClassRecord × FunctionRecord) :=
  (model.classChain className).findSome? fun owner =>
    (owner.methods.find? method).map fun record => (owner, record)

/-- The nearest field of a name on a class or its ancestors, with the class
that declares it. -/
def findField? (model : SymbolModel) (className field : String) :
    Option (ClassRecord × Variable) :=
  (model.classChain className).findSome? fun owner =>
    (owner.fields.find? field).map fun entity => (owner, entity)

/-- Whether one class is another or has it among its ancestors. -/
def isSubclass (model : SymbolModel) (lower upper : String) : Bool :=
  (model.classChain lower).any fun record => record.name == upper

/-- Whether a class comes back to itself from parent to parent.  A class that
only leads into a cycle does not. -/
def hasCyclicInheritance (model : SymbolModel) (name : String) : Bool :=
  match (model.class? name).bind ClassRecord.parent with
  | none => false
  | some parent => model.isSubclass parent name

/-- How many names a walk can still come by: those of the interfaces not yet
visited, and those that they extend. -/
def namesWithin : List InterfaceRecord → Nat
  | [] => 0
  | first :: rest => first.bases.names.length + 1 + namesWithin rest

@[simp]
theorem namesWithin_cons (first : InterfaceRecord) (rest : List InterfaceRecord) :
    namesWithin (first :: rest) = first.bases.names.length + 1 + namesWithin rest := rfl

theorem namesWithin_crossOff_le (unvisited : List InterfaceRecord) (name : String) :
    namesWithin (crossOff unvisited name) ≤ namesWithin unvisited := by
  induction unvisited with
  | nil => exact Nat.le_refl _
  | cons first rest inductionHypothesis =>
      rw [crossOff_cons]
      split <;> simp only [namesWithin_cons] <;> omega

/-- Crossing off an interface takes its name and those that it extends. -/
theorem namesWithin_crossOff_add_le {unvisited : List InterfaceRecord} {name : String}
    {record : InterfaceRecord}
    (found : unvisited.find? (fun record => Named.nameOf record == name) = some record) :
    namesWithin (crossOff unvisited name) + (record.bases.names.length + 1) ≤
      namesWithin unvisited := by
  induction unvisited with
  | nil => cases found
  | cons first rest inductionHypothesis =>
      have behind := namesWithin_crossOff_le rest name
      rw [List.find?_cons] at found
      rw [crossOff_cons]
      cases same : Named.nameOf first == name with
      | true =>
          rw [same] at found
          cases found
          simp only [if_true, namesWithin_cons]
          omega
      | false =>
          rw [same] at found
          have inductionHypothesis := inductionHypothesis found
          simp only [Bool.false_eq_true, if_false, namesWithin_cons]
          omega

/-- The interfaces reached from the pending names among those not yet
visited.  The first pending name is followed first, and the names that an
interface extends are followed in descending order. -/
def closureWithin (unvisited : List InterfaceRecord) (pending : List String) :
    List InterfaceRecord :=
  match pending with
  | [] => []
  | name :: later =>
      match _found : unvisited.find? (fun record => Named.nameOf record == name) with
      | none => closureWithin unvisited later
      | some record =>
          record ::
            closureWithin (crossOff unvisited name) (record.bases.names.reverse ++ later)
termination_by namesWithin unvisited + pending.length
decreasing_by
  · exact Nat.lt_succ_self _
  · have shorter := namesWithin_crossOff_add_le _found
    simp only [List.length_append, List.length_reverse, List.length_cons]
    omega

/-- An interface and everything it extends, depth first, each at most once. -/
def interfaceClosure (model : SymbolModel) (name : String) : List InterfaceRecord :=
  closureWithin model.interfaces.entries [name]

/-- The first method of a name that an interface, or anything it extends,
declares, with the interface that declares it. -/
def findInterfaceMethod? (model : SymbolModel) (interfaceName method : String) :
    Option (InterfaceRecord × FunctionRecord) :=
  (model.interfaceClosure interfaceName).findSome? fun owner =>
    (owner.methods.find? method).map fun record => (owner, record)

/-- Whether an interface comes back to itself from one extended interface to
the next. -/
def hasCyclicExtension (model : SymbolModel) (name : String) : Bool :=
  match model.interface? name with
  | none => false
  | some record =>
      (closureWithin model.interfaces.entries record.bases.names.reverse).any fun reached =>
        reached.name == name

/-- Whether a value of the second type may stand where the first is required.
Class types follow the class hierarchy; an interface type takes nothing but
itself.  The error type fits everywhere, so that one mistake is reported
once. -/
def isAssignable (model : SymbolModel) (expected actual : Ty) : Bool :=
  match expected, actual with
  | .error, _ => true
  | _, .error => true
  | .named upper, .named lower => upper == lower || model.isSubclass lower upper
  | _, _ => decide (expected = actual)

end SymbolModel

end KnightFront
