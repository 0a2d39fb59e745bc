/-!
# Ranges of code points

A property of characters is given as a list of ranges of code points, both ends included, in
ascending order.
-/

namespace ShaderAssist

/-- Whether a code point lies in one of some ascending ranges. -/
def inRanges : List (Nat × Nat) → Nat → Bool
  | [], _ => false
  | (lo, hi) :: rest, n => if n < lo then false else n ≤ hi || inRanges rest n

end ShaderAssist
