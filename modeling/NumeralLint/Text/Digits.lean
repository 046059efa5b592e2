/-
Whole numbers in decimal digits, written and read.
-/
import NumeralLint.Text.Basic

namespace NumeralLint

namespace Text

/-- A natural number in decimal digits, without leading zeros. -/
def ofNat (n : Nat) : Text := Nat.toDigits 10 n

/-- An integer in decimal digits, with a minus sign below zero. -/
def ofInt : Int → Text
  | .ofNat n => ofNat n
  | .negSucc n => '-' :: ofNat (n + 1)

/-- The number that a text of decimal digits writes. -/
def digitsValue (t : Text) : Nat := Nat.ofDigitChars 10 t 0

/-- The text without one sign at its start. -/
def dropSign : Text → Text
  | [] => []
  | c :: t => if c = '+' ∨ c = '-' then t else c :: t

theorem length_dropSign_le (t : Text) : (dropSign t).length ≤ t.length := by
  cases t with
  | nil => exact Nat.le_refl _
  | cons c t =>
      simp only [dropSign]
      split <;> simp

/-- Reading the digits of a number gives the number. -/
theorem digitsValue_ofNat (n : Nat) : digitsValue (ofNat n) = n := by
  simp [digitsValue, ofNat]

end Text

end NumeralLint
