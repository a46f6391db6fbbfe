namespace KnightFront
namespace Text

/-!
# Sets of code points

Character properties are published as ranges of code points.  This module
holds such a property as data and decides membership, so that a property is
one table and no function of its own.
-/

/-- A set of code points given by closed ranges.  The ranges may come in any
order and may overlap; only membership is observable. -/
structure CodePoints where
  ranges : List (Nat × Nat)

namespace CodePoints

/-- Whether a character's code point lies in one of the ranges. -/
def contains (points : CodePoints) (character : Char) : Bool :=
  points.ranges.any fun range =>
    decide (range.1 ≤ character.toNat) && decide (character.toNat ≤ range.2)

/-- Membership is exactly the existence of a range around the code point. -/
theorem contains_eq_true_iff (points : CodePoints) (character : Char) :
    points.contains character = true ↔
      ∃ range ∈ points.ranges, range.1 ≤ character.toNat ∧ character.toNat ≤ range.2 := by
  simp [contains]

end CodePoints

end Text
end KnightFront
