/-
Doubles as text.

The digits are those of the shortest decimal that reads back.  A style says
where the point may stand before an exponent is used, what is written after a
whole number, and which way ties go.
-/
import NumeralLint.Decimal.Shortest
import NumeralLint.Text.Digits

namespace NumeralLint

/-- How doubles are written. -/
structure DecimalStyle where
  tie : Tie
  /-- What follows a whole number written without an exponent. -/
  afterWhole : Text
  /-- Whether a number needs an exponent, given how many digits stand before its point. -/
  needsExponent : Int → Bool

namespace DecimalStyle

/-- The style of messages: never an exponent, and no point in whole numbers. -/
def plain : DecimalStyle := ⟨.up, [], fun _ => false⟩

/-- The style of JSON: an exponent below a hundred-thousandth and from ten to the sixteenth on. -/
def json : DecimalStyle := ⟨.even, ['.', '0'], fun point => point ≤ -5 || 16 < point⟩

/-- A number without an exponent. -/
def positional (style : DecimalStyle) (d : Decimal) : Text :=
  let digits := Text.ofNat d.digits
  let point := digits.length + d.exponent
  if 0 ≤ d.exponent then digits ++ List.replicate d.exponent.toNat '0' ++ style.afterWhole
  else if 0 < point then digits.take point.toNat ++ '.' :: digits.drop point.toNat
  else '0' :: '.' :: List.replicate (-point).toNat '0' ++ digits

/-- A number with one digit before the point and an exponent. -/
def scientific (d : Decimal) : Text :=
  let digits := Text.ofNat d.digits
  let places := digits.drop 1
  digits.take 1 ++ (if places.isEmpty then [] else '.' :: places)
    ++ 'e' :: Text.ofInt (digits.length + d.exponent - 1)

def decimal (style : DecimalStyle) (d : Decimal) : Text :=
  if style.needsExponent ((Text.ofNat d.digits).length + d.exponent) then scientific d
  else style.positional d

/-- A double that is not infinite, given by its bits without the sign. -/
def magnitude (style : DecimalStyle) (bits : Nat) : Text :=
  if bits = 0 then '0' :: style.afterWhole
  else style.decimal ((Binary.ofBits bits).shortest style.tie)

def float (style : DecimalStyle) (f : Float) : Text :=
  let bits := f.toBits.toNat
  let sign := if bits < 0x8000000000000000 then [] else ['-']
  if f.isNaN then "NaN".toList
  else if f.isInf then sign ++ "inf".toList
  else sign ++ style.magnitude (bits % 0x8000000000000000)

end DecimalStyle

end NumeralLint
