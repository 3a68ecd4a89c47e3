/-!
Sets of characters given by ranges of code points in increasing order, as the Unicode standard
lists its properties.
-/

namespace Polyglot.Text

/-- First and last code point of each range. The ranges are disjoint and increase. -/
abbrev Ranges := List (Nat × Nat)

/-- Looks only as far as the ranges that start at or below the character. -/
def Ranges.has : Ranges → Char → Bool
  | [], _ => false
  | (lo, hi) :: rest, c => decide (lo ≤ c.toNat) && (decide (c.toNat ≤ hi) || Ranges.has rest c)

end Polyglot.Text
