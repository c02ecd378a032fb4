/-
This file says how a set of code points is written down: as the ascending list of its
boundaries. A point is inside when it has passed an odd number of them, so one list of
numbers holds every range of the set without naming its two ends apart.
-/

namespace GoApiDoc.Text

/-- Whether `point` has passed an odd number of the ascending boundaries: the first boundary
enters the set, the second leaves it, and so on. -/
def within : List Nat → Nat → Bool
  | [], _ => false
  | boundary :: rest, point => if point < boundary then false else !within rest point

end GoApiDoc.Text
