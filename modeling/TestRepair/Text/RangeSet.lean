/-!
Sets of code points, given by the places where membership changes. A look-up counts the places at or
below a code point by bisection: an odd count means that the last change opened a range.
-/

namespace TestRepair.Text

/-- A set of code points as the increasing list of its boundaries. Entries at even positions open a
range, the others close it and lie outside. -/
structure RangeSet where
  bounds : Array Nat

namespace RangeSet

/-- The first position of `lo ≤ i < hi` whose boundary exceeds `n`, or `hi`. -/
def rank (s : RangeSet) (n lo hi : Nat) : Nat :=
  if lo < hi then
    let mid := (lo + hi) / 2
    if s.bounds[mid]?.getD 0 ≤ n then rank s n (mid + 1) hi else rank s n lo mid
  else lo
termination_by hi - lo

/-- Whether `c` lies in one of the ranges. -/
def contains (s : RangeSet) (c : Char) : Bool := s.rank c.toNat 0 s.bounds.size % 2 == 1

end RangeSet

end TestRepair.Text
