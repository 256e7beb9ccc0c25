/-!
# Tables of code points

A character property is given as the list of its code point ranges, both ends included. This module holds
the look-up; each property has a module of its own.
-/

namespace RubyCheck.Text

/-- A list of closed ranges of code points, in increasing order. -/
abbrev Ranges := List (Nat × Nat)

/-- Whether a code point lies in one of the ranges. The search stops at the first range that ends at or
behind the code point, because the ranges are in increasing order. -/
def Ranges.covers : Ranges → Nat → Bool
  | [], _ => false
  | (lo, hi) :: more, n => if n ≤ hi then decide (lo ≤ n) else Ranges.covers more n

end RubyCheck.Text
