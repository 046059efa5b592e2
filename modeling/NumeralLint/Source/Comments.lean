/-
Comments: from an unescaped percent sign to the end of the line.

Removing comments keeps every line where it was and every column before a
comment, so a position in the text without comments is the same position in
the text with them.
-/
import NumeralLint.Text.Escape
import NumeralLint.Text.Lines

namespace NumeralLint

namespace Text

/-- The carriage returns at the end of a piece. -/
def pieceReturns (piece : Text) : Text := piece.drop (pieceBody piece).length

/-- A piece without its comment; its carriage returns stay. -/
def uncommentPiece (piece : Text) : Text :=
  beforeAtom .commentSign (pieceBody piece) ++ pieceReturns piece

/-- The text without its comments. -/
def withoutComments (t : Text) : Text := joinPieces ((pieces t).map uncommentPiece)

end Text

end NumeralLint
