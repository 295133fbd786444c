/-
# TreeSchema.Text.Ranges — sets of characters given by ranges of code points.

A class of characters is listed as closed ranges in ascending order.  Membership walks the list and
stops at the first range that starts after the code point, so the order is what makes it right.
-/

namespace TreeSchema.Text

/-- Closed ranges of code points, ascending and disjoint. -/
abbrev Ranges := List (Nat × Nat)

/-- Whether a code point lies in one of the ranges. -/
def Ranges.covers : Ranges → Nat → Bool
  | [], _ => false
  | (lo, hi) :: rest, c => if c < lo then false else c ≤ hi || Ranges.covers rest c

end TreeSchema.Text
