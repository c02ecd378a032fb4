/-
This file holds the limit on decimal texts. Whole numbers are exact whatever their size, but a
number of very many digits is neither read from its decimal text nor written as one. It can
still come from a text in another base, and is then a number without a decimal text.
-/

import GoApiDoc.Decimal.Double

namespace GoApiDoc.Decimal

/-- The most digits of a decimal text. -/
def digitLimit : Nat := 4300

/-- Whether a number has a decimal text: its digits, the sign apart, keep to the limit. -/
def hasText (number : Int) : Bool :=
  number.natAbs < tenTo digitLimit

end GoApiDoc.Decimal
