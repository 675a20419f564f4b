/-
# Tables of character ranges

A property of characters is kept as the list of the ranges of code points that
have it, each given by its first and last member.

Key definitions: `Ranges`, `Ranges.contains`.
-/

namespace DeadBranch

/-- Closed ranges of code points. -/
abbrev Ranges := List (Nat × Nat)

/-- Does a character lie in one of the ranges? -/
def Ranges.contains (ranges : Ranges) (c : Char) : Bool :=
  ranges.any fun (first, last) => first ≤ c.toNat && c.toNat ≤ last

end DeadBranch
