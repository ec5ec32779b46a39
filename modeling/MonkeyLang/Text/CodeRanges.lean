/-!
# Tables of code points

A property of characters is kept as a table of closed ranges of code points, and a character has
the property when one of the ranges holds its code point.
-/

namespace MonkeyLang.Text

/-- Whether a code point lies in one of the ranges of a table. -/
def inRanges (n : Nat) (ranges : List (Nat × Nat)) : Bool :=
  ranges.any fun r ↦ decide (r.1 ≤ n ∧ n ≤ r.2)

end MonkeyLang.Text
