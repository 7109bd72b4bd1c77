/-!
# Sets of characters

A set of characters given by ranges of code points, both ends included.
-/

namespace Vernacular

abbrev CharRanges := List (Nat × Nat)

def CharRanges.holds (ranges : CharRanges) (c : Char) : Bool :=
  ranges.any (fun range => decide (range.1 ≤ c.toNat ∧ c.toNat ≤ range.2))

end Vernacular
