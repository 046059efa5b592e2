/-
Blank characters: the Unicode property White_Space.

Every rule of the library that speaks of blanks, of trimming, or of the
space after a full stop means these characters.
-/
import NumeralLint.Text.Basic
import NumeralLint.Text.CharSet

namespace NumeralLint

/-- The white space of Unicode. -/
def blanks : CharSet :=
  [(0x09, 0x0d), (0x20, 0x20), (0x85, 0x85), (0xa0, 0xa0), (0x1680, 0x1680), (0x2000, 0x200a),
   (0x2028, 0x2029), (0x202f, 0x202f), (0x205f, 0x205f), (0x3000, 0x3000)]

def isBlank (c : Char) : Bool := blanks.contains c

/-- Every blank of ASCII is a blank. -/
theorem isBlank_of_isWhitespace {c : Char} (h : c.isWhitespace = true) : isBlank c = true := by
  simp only [Char.isWhitespace, Bool.or_eq_true, decide_eq_true_eq] at h
  rcases h with ((h | h) | h) | h <;> subst h <;> decide

namespace Text

/-- The text without the blanks at its start. -/
def trimStart (t : Text) : Text := t.dropWhile isBlank

/-- The text without the blanks at its end. -/
def trimEnd (t : Text) : Text := t.dropTrailing isBlank

/-- The text without the blanks around it. -/
def trim (t : Text) : Text := trimEnd (trimStart t)

end Text

end NumeralLint
