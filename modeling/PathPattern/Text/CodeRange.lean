/-!
Classes of characters, written as ascending closed ranges of code points.
-/
namespace PathPattern.Text

/-- Closed ranges of code points, pairwise disjoint and in ascending order. -/
abbrev CodeRanges := List (Nat × Nat)

/-- Whether one of the ranges holds the code point. The scan stops at the first range that
begins above it. -/
def CodeRanges.has : CodeRanges → Nat → Bool
  | [], _ => false
  | (first, last) :: rest, n => decide (first ≤ n) && (decide (n ≤ last) || CodeRanges.has rest n)

end PathPattern.Text
