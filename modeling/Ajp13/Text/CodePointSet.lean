/-!
Sets of characters, given by ranges of code points.

* `CodePointSet`: ranges in increasing order;
* `CodePointSet.contains`: looks a character up, and stops at the first range that lies after it.
-/

namespace Ajp13

/-- Whether each range ends no earlier than it begins, and before the next one begins. -/
def inOrder : List (Nat × Nat) → Bool
  | [] => true
  | [r] => r.1 ≤ r.2
  | r :: s :: rest => r.1 ≤ r.2 && r.2 < s.1 && inOrder (s :: rest)

/-- A set of characters: ranges of code points, with both ends, in increasing order. -/
structure CodePointSet where
  ranges : List (Nat × Nat)
  inOrder_ranges : inOrder ranges = true

namespace CodePointSet

/-- Whether a code point is in one of the ranges, as far as they do not begin after it. -/
def inRanges (n : Nat) : List (Nat × Nat) → Bool
  | [] => false
  | r :: rest => r.1 ≤ n && (n ≤ r.2 || inRanges n rest)

/-- Whether a character is in the set. -/
def contains (s : CodePointSet) (c : Char) : Bool := inRanges c.toNat s.ranges

end CodePointSet

end Ajp13
