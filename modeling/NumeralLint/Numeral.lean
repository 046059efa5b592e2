/-
Numerals: the numbers written in digits in a text.

A numeral is an optional minus sign and then digits, or digits (possibly
none), a point and digits.  A scan reads a text from the left, takes the
longest numeral at the first place where there is one, and goes on after it.
The digits are the ten of ASCII.
-/
import NumeralLint.Text.Digits

namespace NumeralLint

/-- A numeral and its place in the text it was found in. -/
structure Numeral where
  text : Text
  /-- The number of bytes before the numeral. -/
  start : Nat
deriving DecidableEq

namespace Numeral

/-- The number of bytes up to the end of the numeral. -/
def stop (n : Numeral) : Nat := n.start + n.text.width

/-- Whether the numeral has a decimal point. -/
def isDecimal (n : Numeral) : Bool := n.text.contains '.'

/-- The integer that a text of digits, possibly after a minus sign, writes. -/
def signedValue : Text → Int
  | '-' :: digits => - (Text.digitsValue digits : Int)
  | digits => Text.digitsValue digits

/-- The integer that the numeral writes, if it has no decimal point. -/
def integer? (n : Numeral) : Option Int :=
  if n.isDecimal then none else some (signedValue n.text)

/-- The integer that the numeral writes, if it has no decimal point and the integer fits into 64
bits with its sign. -/
def value? (n : Numeral) : Option Int :=
  n.integer?.filter fun v => decide (-0x8000000000000000 ≤ v ∧ v < 0x8000000000000000)

/-- The numeral without sign at the start of a text; empty if there is none. -/
def unsignedAt (t : Text) : Text :=
  let whole := t.takeWhile Char.isDigit
  match t.dropWhile Char.isDigit with
  | '.' :: rest =>
      let places := rest.takeWhile Char.isDigit
      if places.isEmpty then whole else whole ++ '.' :: places
  | _ => whole

/-- The numeral at the start of a text; empty if there is none. -/
def literalAt : Text → Text
  | '-' :: t => if (unsignedAt t).isEmpty then [] else '-' :: unsignedAt t
  | t => unsignedAt t

end Numeral

/-! ## Scanning -/

/-- What is left of a scan. -/
structure NumeralScan where
  /-- The number of bytes already read. -/
  place : Nat
  /-- The text still to be read. -/
  rest : Text

namespace NumeralScan

/-- The next numeral, in the text `rest` after `place` bytes, and the scan after it. -/
def nextAt (place : Nat) : Text → Option (Numeral × NumeralScan)
  | [] => none
  | c :: t =>
      let found := Numeral.literalAt (c :: t)
      if found.isEmpty then nextAt (place + c.utf8Size) t
      else some (⟨found, place⟩, ⟨place + Text.width found, (c :: t).drop found.length⟩)

def next? (scan : NumeralScan) : Option (Numeral × NumeralScan) := nextAt scan.place scan.rest

/-- A numeral takes at least one character off the text to be read. -/
theorem nextAt_shorter {t : Text} {place : Nat} {n : Numeral} {after : NumeralScan}
    (h : nextAt place t = some (n, after)) : after.rest.length < t.length := by
  induction t generalizing place with
  | nil => simp [nextAt] at h
  | cons c t ih =>
      rw [nextAt] at h
      split at h
      · have := ih h
        simp only [List.length_cons]
        omega
      · rename_i hne
        simp only [Option.some.injEq, Prod.mk.injEq] at h
        rw [← h.2]
        have : 0 < (Numeral.literalAt (c :: t)).length := by
          rw [List.length_pos_iff]
          simpa using hne
        simp only [List.length_drop, List.length_cons]
        omega

/-- The numerals that the scan has still to find, in order. -/
def numerals (scan : NumeralScan) : List Numeral :=
  match _h : scan.next? with
  | none => []
  | some (n, after) => n :: after.numerals
termination_by scan.rest.length
decreasing_by exact nextAt_shorter _h

def ofText (t : Text) : NumeralScan := ⟨0, t⟩

end NumeralScan

def Text.numerals (t : Text) : List Numeral := (NumeralScan.ofText t).numerals

end NumeralLint
