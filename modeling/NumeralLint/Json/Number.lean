/-
Reading JSON numbers.

A number without point and exponent that fits into 64 bits is an integer.
Any other number is a double: the digits that fit into 64 bits are taken as
an integer and brought to their power of ten by one multiplication or
division in double arithmetic, or by several divisions when the power is
beyond the range of doubles.  A number too large for a double is a fault.
-/
import NumeralLint.Json.Decoder
import NumeralLint.Text.Digits

namespace NumeralLint

/-- A number as it was read. -/
inductive JsonNumber where
  /-- An integer that fits into 64 bits, with or without sign. -/
  | whole (v : Int)
  | real (f : Float)

namespace Json

/-! ## Powers of ten -/

def powerOfTen (n : Nat) : Float := Float.ofScientific 1 false n

/-- A double divided by a power of ten, in steps that doubles can make. -/
def divideByPower (f : Float) (n : Nat) : Float :=
  if n ≤ 308 then f / powerOfTen n
  else if f == 0 then f
  else divideByPower (f / powerOfTen 308) (n - 308)
termination_by n
decreasing_by omega

/-- A double multiplied by a power of ten, if doubles reach so far. -/
def multiplyByPower? (f : Float) (n : Nat) : Option Float :=
  if n ≤ 308 then
    let product := f * powerOfTen n
    if product.isInf then none else some product
  else if f == 0 then some f
  else none

/-- The double for the digits `digits` before `exponent` powers of ten. -/
def scale? (digits : Nat) : Int → Option Float
  | .ofNat n => multiplyByPower? digits.toFloat n
  | .negSucc n => some (divideByPower digits.toFloat (n + 1))

def signed (negative : Bool) (f : Float) : Float := if negative then -f else f

/-! ## Digits -/

/-- Digits as far as their value fits into 64 bits. -/
structure DigitRun where
  value : Nat
  /-- The number of digits. -/
  count : Nat
  /-- What follows the digits. -/
  rest : Text

/-- Reads digits after others of value `value`, as far as the value fits into 64 bits. -/
def readDigits (value : Nat) : Text → DigitRun
  | [] => ⟨value, 0, []⟩
  | c :: t =>
      let next := value * 10 + (c.toNat - '0'.toNat)
      if c.isDigit ∧ next < 0x10000000000000000 then
        let run := readDigits next t
        ⟨run.value, run.count + 1, run.rest⟩
      else ⟨value, 0, c :: t⟩

theorem length_readDigits_le (value : Nat) (t : Text) :
    (readDigits value t).rest.length ≤ t.length := by
  induction t generalizing value with
  | nil => simp [readDigits]
  | cons c t ih =>
      simp only [readDigits]
      split
      · exact Nat.le_succ_of_le (ih _)
      · exact Nat.le_refl _

def skipDigits (t : Text) : Text := t.dropWhile Char.isDigit

theorem length_skipDigits_le (t : Text) : (skipDigits t).length ≤ t.length :=
  (List.dropWhile_suffix Char.isDigit).length_le

/-! ## The parts of a number -/

/-- The double for digits before a power of ten, and what follows them. -/
def finish (negative : Bool) (digits : Nat) (exponent : Int) : Decoder JsonNumber := fun t =>
  match scale? digits exponent with
  | some f => .ok (.real (signed negative f), t)
  | none => .error .malformed

/-- Reads an exponent, after its letter.  An exponent beyond 31 bits makes zero, or a fault if the
number would be large. -/
def readExponent (negative : Bool) (digits : Nat) (exponent : Int) : Decoder JsonNumber :=
  fun t : Text =>
  let down := t.head? == some '-'
  let unsigned := t.dropSign
  let written := unsigned.takeWhile Char.isDigit
  let rest := skipDigits unsigned
  if written.isEmpty then .error (if unsigned.isEmpty then .cutOff else .malformed)
  else
    let value := Text.digitsValue written
    if value < 0x80000000 then
      finish negative digits (if down then exponent - value else exponent + value) rest
    else if digits ≠ 0 ∧ ¬ down then .error .malformed
    else .ok (.real (signed negative 0), rest)

/-- Reads what may follow the digits of a double: an exponent or nothing. -/
def readTail (negative : Bool) (digits : Nat) (exponent : Int) : Decoder JsonNumber
  | [] => finish negative digits exponent []
  | c :: t =>
      if c = 'e' ∨ c = 'E' then readExponent negative digits exponent t
      else finish negative digits exponent (c :: t)

/-- Reads decimal places, after the point, and what may follow them.  Places beyond 64 bits do not
count. -/
def readPlaces (negative : Bool) (digits : Nat) (exponent : Int) : Decoder JsonNumber := fun t =>
  let run := readDigits digits t
  let rest := skipDigits run.rest
  if rest.length = t.length then .error (if t.isEmpty then .cutOff else .malformed)
  else readTail negative run.value (exponent - run.count) rest

/-- The integer of a sign and digits.  Minus zero is a double, and so is an integer too far below
zero for 64 bits. -/
def wholeNumber (negative : Bool) (digits : Nat) : JsonNumber :=
  if !negative then .whole digits
  else if digits = 0 ∨ digits > 0x8000000000000000 then .real (-digits.toFloat)
  else .whole (-digits)

/-- Reads what may follow the integer part of a number. -/
def readFraction (negative : Bool) (digits : Nat) : Decoder JsonNumber
  | [] => .ok (wholeNumber negative digits, [])
  | c :: t =>
      if c = '.' then readPlaces negative digits 0 t
      else if c = 'e' ∨ c = 'E' then readExponent negative digits 0 t
      else .ok (wholeNumber negative digits, c :: t)

/-- Reads what may follow an integer part of which `dropped` digits do not count, because the
others fill 64 bits. -/
def readLongFraction (negative : Bool) (digits dropped : Nat) : Decoder JsonNumber
  | '.' :: t => readPlaces negative digits dropped t
  | t => readTail negative digits dropped t

/-- Reads a number after its sign.  A zero that starts a number is its whole integer part. -/
def readUnsigned (negative : Bool) : Decoder JsonNumber
  | [] => .error .cutOff
  | c :: t =>
      if c = '0' then
        if t.head?.any Char.isDigit then .error .malformed else readFraction negative 0 t
      else if c.isDigit then
        let run := readDigits 0 (c :: t)
        let rest := skipDigits run.rest
        let dropped := run.rest.length - rest.length
        if dropped = 0 then readFraction negative run.value rest
        else readLongFraction negative run.value dropped rest
      else .error .malformed

def readNumber : Decoder JsonNumber
  | '-' :: t => readUnsigned true t
  | t => readUnsigned false t

/-! ## What is left is never longer -/

open Decoder

theorem shrinks_finish (negative : Bool) (digits : Nat) (exponent : Int) :
    Shrinks (finish negative digits exponent) := by
  intro t v rest h
  unfold finish at h
  split at h
  · cases h
    exact Nat.le_refl _
  · cases h

theorem shrinks_readExponent (negative : Bool) (digits : Nat) (exponent : Int) :
    Shrinks (readExponent negative digits exponent) := by
  intro t v rest h
  have hle : (skipDigits t.dropSign).length ≤ t.length :=
    Nat.le_trans (length_skipDigits_le _) (Text.length_dropSign_le t)
  simp only [readExponent] at h
  split at h
  · cases h
  · split at h
    · exact Nat.le_trans (shrinks_finish _ _ _ h) hle
    · split at h
      · cases h
      · cases h
        exact hle

theorem shrinks_readTail (negative : Bool) (digits : Nat) (exponent : Int) :
    Shrinks (readTail negative digits exponent) := by
  intro t v rest h
  cases t with
  | nil => exact shrinks_finish _ _ _ h
  | cons c t =>
      simp only [readTail] at h
      split at h
      · exact Nat.le_succ_of_le (shrinks_readExponent _ _ _ h)
      · exact shrinks_finish _ _ _ h

theorem shrinks_readPlaces (negative : Bool) (digits : Nat) (exponent : Int) :
    Shrinks (readPlaces negative digits exponent) := by
  intro t v rest h
  simp only [readPlaces] at h
  split at h
  · cases h
  · exact Nat.le_trans (shrinks_readTail _ _ _ h)
      (Nat.le_trans (length_skipDigits_le _) (length_readDigits_le _ _))

theorem shrinks_readFraction (negative : Bool) (digits : Nat) :
    Shrinks (readFraction negative digits) := by
  intro t v rest h
  cases t with
  | nil => cases h; exact Nat.le_refl _
  | cons c t =>
      simp only [readFraction] at h
      split at h
      · exact Nat.le_succ_of_le (shrinks_readPlaces _ _ _ h)
      · split at h
        · exact Nat.le_succ_of_le (shrinks_readExponent _ _ _ h)
        · cases h
          exact Nat.le_refl _

theorem shrinks_readLongFraction (negative : Bool) (digits dropped : Nat) :
    Shrinks (readLongFraction negative digits dropped) := by
  intro t v rest h
  unfold readLongFraction at h
  split at h
  · exact Nat.le_succ_of_le (shrinks_readPlaces _ _ _ h)
  · exact shrinks_readTail _ _ _ h

theorem shrinks_readUnsigned (negative : Bool) : Shrinks (readUnsigned negative) := by
  intro t v rest h
  cases t with
  | nil => cases h
  | cons c t =>
      simp only [readUnsigned] at h
      have hle := Nat.le_trans (length_skipDigits_le (readDigits 0 (c :: t)).rest)
        (length_readDigits_le 0 (c :: t))
      split at h
      · split at h
        · cases h
        · exact Nat.le_succ_of_le (shrinks_readFraction _ _ h)
      · split at h
        · split at h
          · exact Nat.le_trans (shrinks_readFraction _ _ h) hle
          · exact Nat.le_trans (shrinks_readLongFraction _ _ _ h) hle
        · cases h

theorem shrinks_readNumber : Shrinks readNumber := by
  intro t v rest h
  unfold readNumber at h
  split at h
  · exact Nat.le_succ_of_le (shrinks_readUnsigned _ h)
  · exact shrinks_readUnsigned _ h

end Json

end NumeralLint
