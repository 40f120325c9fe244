/-!
# Character properties as ranges

A property of characters is given by the ranges of code points that have it,
in ascending order and with both ends included.
-/

namespace SetterReport.Unicode

/-- Ranges of code points, both ends included. -/
abbrev Ranges := List (Nat × Nat)

/-- Whether a code point lies in one of the ranges. -/
def Ranges.holds (rs : Ranges) (n : Nat) : Bool :=
  rs.any fun (low, high) => low ≤ n && n ≤ high

end SetterReport.Unicode
