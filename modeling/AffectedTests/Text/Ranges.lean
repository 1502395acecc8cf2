import AffectedTests.Text.Basic
/-!
# Ranges of code points

A class of code points is given by the closed ranges that make it up, in ascending order.
-/

namespace AffectedTests

/-- Closed ranges of code points, in ascending order. -/
abbrev CodeRanges := List (Nat × Nat)

/-- Membership; the search ends at the first range that begins above the code point. -/
def CodeRanges.has : CodeRanges → CodePoint → Bool
  | [], _ => false
  | (first, last) :: rest, c =>
    if c.val < first then false else c.val ≤ last || CodeRanges.has rest c

end AffectedTests
