/-
Advisories as text: a headline, the line that is meant, and carets under the
range.

The columns of a range count bytes, the carets count characters.
-/
import NumeralLint.Advisory.Basic

namespace NumeralLint

namespace Advisory

/-- The number that a line or column has when counting starts at one, in 64 bits.  Past the last
number it starts again from zero, as it does in a build without overflow checks. -/
def ordinal (n : Nat) : Nat := (n + 1) % 0x10000000000000000

def headline (a : Advisory) : Text :=
  a.resource ++ ':' :: Text.ofNat (ordinal a.range.start.line)
    ++ ':' :: Text.ofNat (ordinal a.range.start.column)
    ++ [':', ' '] ++ a.message ++ [' ', '['] ++ a.ruleId ++ [']']

/-- The number of characters between two places of a line; the number of bytes if one of the
places lies inside a character. -/
def charsBetween (line : Text) (start stop : Nat) : Nat :=
  ((line.slice? start stop).map List.length).getD (stop - start)

/-- The place in the line where the carets start. -/
def caretStart (a : Advisory) : Nat := min a.range.start.column a.line.width

/-- The place in the line where the carets stop: the end of the line if the range goes on to
another line. -/
def caretStop (a : Advisory) : Nat :=
  if a.range.stop.line = a.range.start.line then
    max a.caretStart (min a.range.stop.column a.line.width)
  else a.line.width

/-- The row of carets under the line, at least one of them. -/
def caretRow (a : Advisory) : Text :=
  List.replicate (charsBetween a.line 0 a.caretStart) ' '
    ++ List.replicate (max 1 (charsBetween a.line a.caretStart a.caretStop)) '^'

/-- An advisory with its line and the carets. -/
def render (a : Advisory) : Text :=
  a.headline ++ "\n  ".toList ++ a.line ++ "\n  ".toList ++ a.caretRow

end Advisory

end NumeralLint
