/-
The shortest decimal that reads back as a double.

A double is a whole number of some power of two, and stands for all numbers
nearer to it than to its neighbours.  Among the multiples of a power of ten
one looks for those in that interval.  The largest power of ten that has one
there gives the fewest digits, and of two such multiples the nearer to the
double is taken.  All is done on natural numbers.
-/

namespace NumeralLint

/-- A positive double. -/
structure Binary where
  mantissa : Nat
  /-- The power of two of which the double is `mantissa` times. -/
  exponent : Int
  /-- Whether the next smaller double is only half as far as the next larger one. -/
  narrowBelow : Bool

/-- A number as digits and a power of ten. -/
structure Decimal where
  digits : Nat
  exponent : Int
deriving DecidableEq

/-- Which of two multiples at the same distance is taken. -/
inductive Tie where
  | even
  | up

namespace Binary

/-- The positive double with the given bits, its sign left out. -/
def ofBits (bits : Nat) : Binary :=
  let power : Nat := bits / 0x10000000000000 % 0x800
  let fraction := bits % 0x10000000000000
  if power = 0 then ⟨fraction, -1074, false⟩
  else ⟨0x10000000000000 + fraction, (power : Int) - 1075, fraction = 0 && power > 1⟩

/-- The factor by which multiples of `10 ^ u` are counted, on the common scale of the double and
the power of ten. -/
def decimalUnit (b : Binary) (u : Int) : Nat :=
  Nat.pow 10 u.toNat * Nat.pow 2 (2 - b.exponent).toNat

/-- The factor by which quarters of the last place of the double are counted, on the same scale. -/
def binaryUnit (b : Binary) (u : Int) : Nat :=
  Nat.pow 2 (b.exponent - 2).toNat * Nat.pow 10 (-u).toNat

/-- Whether `n` times `10 ^ u` is read as the double.  The ends of the interval are, if the mantissa
is even. -/
def covers (b : Binary) (u : Int) (n : Nat) : Bool :=
  let point := n * b.decimalUnit u
  let low := (4 * b.mantissa - if b.narrowBelow then 1 else 2) * b.binaryUnit u
  let high := (4 * b.mantissa + 2) * b.binaryUnit u
  (low < point && point < high) || (b.mantissa % 2 == 0 && (point == low || point == high))

/-- The multiple of `10 ^ u` that is taken for the double, if one is read as it. -/
def multiple? (tie : Tie) (b : Binary) (u : Int) : Option Nat :=
  let value := 4 * b.mantissa * b.binaryUnit u
  let below := value / b.decimalUnit u
  let above := below + 1
  let toBelow := value - below * b.decimalUnit u
  let toAbove := above * b.decimalUnit u - value
  let nearer :=
    if toBelow < toAbove then below
    else if toAbove < toBelow then above
    else match tie with
      | .even => if below % 2 = 0 then below else above
      | .up => above
  let farther := if nearer = below then above else below
  if b.covers u nearer then some nearer
  else if b.covers u farther then some farther
  else none

/-- The shortest decimal that is read as the double: the powers of ten are tried from the largest
double down to the smallest. -/
def shortest (tie : Tie) (b : Binary) : Decimal :=
  let found := (List.range 634).findSome? fun (i : Nat) =>
    (b.multiple? tie (309 - i)).map fun n => Decimal.mk n (309 - i)
  found.getD ⟨0, 0⟩

end Binary

end NumeralLint
