/-
The lines of a text with their places in it.

A line of the index has no line ending: neither a line feed nor carriage
returns.  The index turns positions into places, which are numbers of bytes.
-/
import NumeralLint.Source.Position
import NumeralLint.Text.Lines

namespace NumeralLint

/-- A line of a text. -/
structure IndexedLine where
  /-- The number of bytes before the line. -/
  start : Nat
  /-- The line without its ending. -/
  body : Text

/-- The lines of a text, in order, and the number of its bytes. -/
structure LineIndex where
  lines : List IndexedLine
  size : Nat

namespace LineIndex

/-- The lines that pieces make after `start` bytes. -/
def linesFrom (start : Nat) : List Text → List IndexedLine
  | [] => []
  | piece :: rest => ⟨start, piece.pieceBody⟩ :: linesFrom (start + piece.width + 1) rest

/-- The index of a text. -/
def ofText (t : Text) : LineIndex := ⟨linesFrom 0 t.pieces, t.width⟩

/-- The text of a line; empty past the last. -/
def body (index : LineIndex) (line : Nat) : Text :=
  match index.lines[line]? with
  | some found => found.body
  | none => []

/-- The number of bytes before a position.  A column past the end of its line stands for the end
of the line, and a line past the last for the end of the text. -/
def offset (index : LineIndex) (p : Position) : Nat :=
  match index.lines[p.line]? with
  | some found => found.start + min p.column found.body.width
  | none => index.size

end LineIndex

end NumeralLint
