/-
Sets of characters.

The classes of Unicode that the library speaks of are tables of code
points; this is the form of a table and the test for membership.
-/

namespace NumeralLint

/-- A set of characters, as inclusive ranges of code points. -/
abbrev CharSet := List (Nat × Nat)

namespace CharSet

/-- Whether the code point of `c` lies in one of the ranges. -/
def contains (set : CharSet) (c : Char) : Bool :=
  set.any fun range => range.1 ≤ c.toNat && c.toNat ≤ range.2

/-- Whether the code point of `c` is an even number of steps after the start of one of the ranges
and inside it: capitals that alternate with their small letters stand so. -/
def containsAlternate (set : CharSet) (c : Char) : Bool :=
  set.any fun range =>
    range.1 ≤ c.toNat && c.toNat ≤ range.2 && (c.toNat - range.1) % 2 == 0

end CharSet

end NumeralLint
