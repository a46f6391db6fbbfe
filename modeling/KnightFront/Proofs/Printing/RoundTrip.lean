import KnightFront.Proofs.Analysis.Reading
import KnightFront.Proofs.Parse.ParsedItem
import KnightFront.Proofs.Printing.ReadItem

namespace KnightFront
namespace Program

/-!
# Printing and reading again

A file that is accepted is accepted again when it is printed.  The same
declarations come back in the same order, with the same statements; only the
expressions can change their shape, and they do so exactly where a member has
an index for its receiver.  The printed form leaves out the parentheses that
such a receiver needs.
-/

/-- Whether reading a text gives a file that passes a test. -/
def acceptedWith (test : Program → Bool) (file source : String) : Bool :=
  match ofSource file source with
  | .ok program => test program
  | .error _ => false

theorem exists_of_acceptedWith {test : Program → Bool} {file source : String}
    (passes : acceptedWith test file source = true) :
    ∃ program, ofSource file source = .ok program ∧ test program = true := by
  unfold acceptedWith at passes
  split at passes
  · next program accepted => exact ⟨program, accepted, passes⟩
  · cases passes

/-- A test of what is read can be made on the letters. -/
theorem acceptedWith_of_letters {test : Program → Bool} {file source : String}
    {letters : List Char} (spelled : SpelledBy source letters)
    (passes : (ofLetters file letters).toOption.any test = true) :
    acceptedWith test file source = true := by
  rw [acceptedWith, ofSource_eq_ofLetters spelled]
  cases read : ofLetters file letters with
  | error failure => rw [read] at passes; cases passes
  | ok program => rw [read] at passes; exact passes

/-- The printed form of every accepted file is accepted, and reads back with
each expression replaced by what it rereads as.  The shape of the file is kept
exactly when no member in it has an index for its receiver. -/
theorem ofSource_print_sameShape_iff {file source : String} {program : Program}
    (accepted : ofSource file source = .ok program) (other : String) :
    ∃ again, ofSource other program.print = .ok again ∧
      again.items.map Item.bare = program.items.map (Item.bareWith Expr.reread) ∧
      (again.SameShape program ↔ ∀ node ∈ program.nodes, node.isMemberOfIndex = false) := by
  rcases ofSource_print (written_ofSource accepted) other with ⟨again, read, same⟩
  refine ⟨again, read, same, ?_⟩
  rw [SameShape, same]
  exact program.map_reread_eq_iff

/-- A member of an element in parentheses is read back as a member of the
position. -/
theorem not_sameShape_print_of_memberOfIndex :
    ∃ program again, ofSource "member.kn" "int x = (a[1]).b;" = .ok program ∧
      ofSource "member.kn" program.print = .ok again ∧ ¬ again.SameShape program := by
  have shape : acceptedWith (fun program => program.nodes.any Expr.isMemberOfIndex) "member.kn"
      "int x = (a[1]).b;" = true := by
    decide +kernel
  rcases exists_of_acceptedWith shape with ⟨program, accepted, found⟩
  rcases ofSource_print_sameShape_iff accepted "member.kn" with ⟨again, read, -, kept⟩
  refine ⟨program, again, accepted, read, fun same => ?_⟩
  rcases List.any_eq_true.mp found with ⟨node, inside, isMember⟩
  exact absurd (kept.mp same node inside) (by simp [isMember])

end Program
end KnightFront
