/-!
# Sets of characters given by their boundaries

A set of code points is written as the increasing list of points where membership changes: the
first boundary enters the set, the second leaves it, and so on. A point belongs to the set exactly
when an odd number of boundaries lie at or below it.

## Main definitions

* `Boundaries.contains` — membership of a code point
-/

namespace DistributedVector.Text

/-- The points where membership in a set of code points changes, in increasing order. -/
abbrev Boundaries := List Nat

namespace Boundaries

/-- Membership by scanning the boundaries; `inside` tells on which side of the last one passed
the scan stands. -/
def containsFrom (inside : Bool) : Boundaries → Nat → Bool
  | [], _ => inside
  | b :: rest, c => if c < b then inside else containsFrom (!inside) rest c

/-- Membership of a code point. -/
def contains (bs : Boundaries) (c : Nat) : Bool := containsFrom false bs c

end Boundaries

end DistributedVector.Text
