import KnightFront.Diagnostics.Problem

namespace KnightFront
namespace Problem

/-!
# What the wording of a problem tells

Some problems can be told from all others by how their message begins, and some
messages tell the names that they are about.
-/

/-- Whether a problem is that arguments do not match. -/
def isMismatchedCall : Problem → Bool
  | argumentMismatch .. => true
  | _ => false

/-- Whether a problem is a cycle among classes or interfaces. -/
def isCycle : Problem → Bool
  | cyclicInheritance _ => true
  | cyclicExtension _ => true
  | _ => false

/-- Whether a problem is the conversion of a number in a concatenation. -/
def isConversion : Problem → Bool
  | implicitConversion => true
  | _ => false

/-- Whether a problem is that a method does not match its declaration in an
interface. -/
def isMismatchedMethod : Problem → Bool
  | mismatchedMethod .. => true
  | _ => false

/-- The first two letters of the message of a problem. -/
def initials : Problem → List Char
  | duplicateFunction _ | missingReturn .. | missingReturnValue .. => ['F', 'u']
  | duplicateVariable _ | duplicateLocal .. | voidVariable _ => ['V', 'a']
  | duplicateEnumMember .. => ['E', 'n']
  | duplicateInterface _ => ['I', 'n']
  | duplicateInterfaceMethod .. | duplicateMethod .. | mismatchedMethod .. => ['M', 'e']
  | duplicateClass _ | missingMethod .. => ['C', 'l']
  | duplicateField .. => ['F', 'i']
  | duplicateParameter .. => ['P', 'a']
  | cyclicInheritance _ | cyclicExtension _ => ['C', 'y']
  | undefinedClass _ | undefinedInterface _ | undefinedVariable _ | undefinedFunction _ => ['U', 'n']
  | undefinedMethod .. | undefinedField .. | unknownType _ => ['U', 'n']
  | methodOfValue .. | fieldOfValue .. | interfaceInstance _ | unknownInstance _ => ['C', 'a']
  | notAssignable _ | notIndexable _ => ['C', 'a']
  | unassignable .. => ['T', 'y']
  | returnFromVoid _ => ['V', 'o']
  | mismatchedReturn .. => ['R', 'e']
  | conditionNotBool _ => ['C', 'o']
  | indexNotInt _ | lengthNotInt _ | mixedArray => ['A', 'r']
  | operandMismatch .. => ['O', 'p']
  | argumentMismatch .. => ['N', 'o']
  | implicitConversion => ['I', 'm']

/-- A text begins with the first two letters of its first part. -/
theorem take_toList_append {first second : Char} {others : List Char} {more : String} :
    (String.ofList (first :: second :: others) ++ more).toList.take 2 = [first, second] := by
  rw [String.toList_append, String.toList_ofList]
  rfl

theorem take_toList_ofList {first second : Char} {others : List Char} :
    (String.ofList (first :: second :: others)).toList.take 2 = [first, second] := by
  rw [String.toList_ofList]
  rfl

theorem take_message (problem : Problem) : problem.message.toList.take 2 = problem.initials := by
  delta message
  cases problem
  case mixedArray => exact take_toList_ofList
  case implicitConversion => exact take_toList_ofList
  all_goals
    simp only [String.append_assoc]
    exact take_toList_append

/-- The mismatch of a call is told by how its message begins. -/
theorem isMismatchedCall_eq (problem : Problem) :
    problem.isMismatchedCall = (problem.message.toList.take 2 == ['N', 'o']) := by
  rw [take_message]
  cases problem <;> rfl

/-- A cycle is told by how its message begins. -/
theorem isCycle_eq (problem : Problem) :
    problem.isCycle = (problem.message.toList.take 2 == ['C', 'y']) := by
  rw [take_message]
  cases problem <;> rfl

/-- The conversion of a number is told by its message. -/
theorem isConversion_eq (problem : Problem) :
    problem.isConversion = decide (problem.message = implicitConversion.message) := by
  cases isConversion : problem.isConversion with
  | true =>
      cases problem <;> try cases isConversion
      exact (decide_eq_true rfl).symm
  | false =>
      refine (decide_eq_false fun same => ?_).symm
      have opening : problem.initials = ['I', 'm'] := by
        rw [← take_message, same, take_message, initials]
      cases problem
      case implicitConversion => cases isConversion
      all_goals cases opening

/-- Two sentences about functions of one name, one about its declaration and one
about its return. -/
theorem duplicateFunction_ne_missingReturn (name : String) (expected : Ty) :
    (duplicateFunction name).message ≠ (missingReturn name expected).message := by
  intro same
  have spelled : "Function " ++ ("'" ++ name ++ "'") ++ " is already defined" =
      "Function " ++ ("'" ++ name ++ "'") ++ " must end with a return statement of type " ++
        expected.describe := same
  simpa using congrArg String.toList spelled

theorem duplicateMethod_ne_missingReturn (method owner name : String) (expected : Ty) :
    (duplicateMethod method owner).message ≠ (missingReturn name expected).message := by
  intro same
  have opening := congrArg (fun message => message.toList.take 2) same
  simp only [take_message] at opening
  cases opening

theorem cyclicInheritance_inj {first second : String}
    (same : (cyclicInheritance first).message = (cyclicInheritance second).message) :
    first = second := by
  have spelled : "Cyclic inheritance involving class " ++ ("'" ++ first ++ "'") =
      "Cyclic inheritance involving class " ++ ("'" ++ second ++ "'") := same
  exact String.toList_inj.mp (by simpa using congrArg String.toList spelled)

theorem cyclicExtension_inj {first second : String}
    (same : (cyclicExtension first).message = (cyclicExtension second).message) :
    first = second := by
  have spelled : "Cyclic extension involving interface " ++ ("'" ++ first ++ "'") =
      "Cyclic extension involving interface " ++ ("'" ++ second ++ "'") := same
  exact String.toList_inj.mp (by simpa using congrArg String.toList spelled)

theorem cyclicInheritance_ne_cyclicExtension (first second : String) :
    (cyclicInheritance first).message ≠ (cyclicExtension second).message := by
  intro same
  have spelled : "Cyclic inheritance involving class " ++ ("'" ++ first ++ "'") =
      "Cyclic extension involving interface " ++ ("'" ++ second ++ "'") := same
  simpa using congrArg String.toList spelled

/-- The message about a cycle tells which class or interface it is about. -/
theorem eq_of_isCycle {first second : Problem} (firstCycle : first.isCycle = true)
    (secondCycle : second.isCycle = true) (same : first.message = second.message) :
    first = second := by
  cases first <;> try cases firstCycle
  case cyclicInheritance name =>
    cases second <;> try cases secondCycle
    case cyclicInheritance other => rw [cyclicInheritance_inj same]
    case cyclicExtension other => exact absurd same (cyclicInheritance_ne_cyclicExtension _ _)
  case cyclicExtension name =>
    cases second <;> try cases secondCycle
    case cyclicInheritance other =>
      exact absurd same.symm (cyclicInheritance_ne_cyclicExtension _ _)
    case cyclicExtension other => rw [cyclicExtension_inj same]

/-- What stands before the first quotation mark is told by the whole. -/
theorem append_quote_inj {first second rest others : List Char} (free : '\'' ∉ first)
    (free' : '\'' ∉ second) (same : first ++ '\'' :: rest = second ++ '\'' :: others) :
    first = second ∧ rest = others := by
  induction first generalizing second with
  | nil =>
      cases second with
      | nil => exact ⟨rfl, (List.cons.inj same).2⟩
      | cons head tail =>
          have quote := (List.cons.inj same).1
          exact absurd (quote ▸ List.mem_cons_self) free'
  | cons head tail inductionHypothesis =>
      cases second with
      | nil =>
          have quote := (List.cons.inj same).1
          exact absurd (quote ▸ List.mem_cons_self) free
      | cons head' tail' =>
          rcases List.cons.inj same with ⟨rfl, sameTail⟩
          rw [List.mem_cons, not_or] at free free'
          rcases inductionHypothesis free.2 free'.2 sameTail with ⟨rfl, sameRest⟩
          exact ⟨rfl, sameRest⟩

/-- The message about a missing method tells the method and the interface, as long
as there is no quotation mark in the name of the method. -/
theorem missingMethod_inj {className method method' interface interface' : String}
    (free : '\'' ∉ method.toList) (free' : '\'' ∉ method'.toList)
    (same : (missingMethod className method interface).message =
      (missingMethod className method' interface').message) :
    method = method' ∧ interface = interface' := by
  have spelled : "Class " ++ ("'" ++ className ++ "'") ++ " does not implement method " ++
        ("'" ++ method ++ "'") ++ " of interface " ++ ("'" ++ interface ++ "'") =
      "Class " ++ ("'" ++ className ++ "'") ++ " does not implement method " ++
        ("'" ++ method' ++ "'") ++ " of interface " ++ ("'" ++ interface' ++ "'") := same
  have apart := congrArg String.toList spelled
  simp only [String.toList_append, List.append_assoc, List.append_cancel_left_eq] at apart
  rcases append_quote_inj free free' apart with ⟨sameMethod, sameRest⟩
  refine ⟨String.toList_inj.mp sameMethod, String.toList_inj.mp ?_⟩
  simpa using sameRest

end Problem
end KnightFront
