/-! # Sets of characters

A set of characters that is long to list is given by ranges of code points, each by its first and
its last one. -/

namespace StripeScan

/-- Ranges of code points. -/
abbrev CodePoints := List (Nat × Nat)

namespace CodePoints

/-- Whether a character lies in one of the ranges. -/
def has (ranges : CodePoints) (c : Char) : Bool :=
  ranges.any fun (first, last) => first ≤ c.toNat && c.toNat ≤ last

end CodePoints

end StripeScan
