/-
Positions and ranges in a document.

A position is a line and a column, both counted from zero; the column is in
bytes.  A range is half open: its start belongs to it and its stop does not.
-/

namespace NumeralLint

/-- A place in a document. -/
structure Position where
  line : Nat
  /-- The number of bytes of the line before the place. -/
  column : Nat
deriving DecidableEq

/-- The part of a document between two places. -/
structure Range where
  start : Position
  /-- The first place after the range. -/
  stop : Position
deriving DecidableEq

/-- The start of a document. -/
def Position.origin : Position := ⟨0, 0⟩

/-- The empty range at the start of a document. -/
def Range.origin : Range := ⟨.origin, .origin⟩

end NumeralLint
