/-!
# Sets of characters as ranges

A property of characters is published as a list of closed ranges of code points. Here such a list
ascends, so a look-up ends at the first range above the code point it asks for.
-/

namespace Univariate.Text

def within : List (Nat × Nat) → Nat → Bool
  | [], _ => false
  | (lo, hi) :: ranges, n => decide (lo ≤ n) && (decide (n ≤ hi) || within ranges n)

end Univariate.Text
