/-
Lines, and places given by line and column.

A line feed ends a line.  Two readings of a text as lines are used: its
pieces, which are the parts between the line feeds and make a text that ends
in a line feed end in an empty piece, and its lines, which leave that piece
out and take one carriage return before the line feed for a part of it.
-/
import NumeralLint.Text.Basic

namespace NumeralLint

namespace Text

/-- The parts of a text between its line feeds. -/
def pieces (t : Text) : List Text := splitAtChar '\n' t

/-- A piece without the carriage returns at its end. -/
def pieceBody (piece : Text) : Text := dropTrailing (· == '\r') piece

/-- The lines that a list of pieces makes: every piece but the last ended in a line feed. -/
def linesOfPieces : List Text → List Text
  | [] => []
  | [last] => if last.isEmpty then [] else [last]
  | piece :: rest => dropFinal '\r' piece :: linesOfPieces rest

def lines (t : Text) : List Text := linesOfPieces (pieces t)

def joinPieces : List Text → Text
  | [] => []
  | [last] => last
  | piece :: rest => piece ++ '\n' :: joinPieces rest

end Text

end NumeralLint
