/-
Blocks: the parts of a document that are not prose.

Floats, displays, matrices and verbatim text hold numerals that nobody would
spell out.  A line opens a block if it holds the beginning of such an
environment or of display math, and closes one if it holds an end.  The
depth counts the blocks that are open, without regard to their names: a line
opens at most one and closes at most one.
-/
import NumeralLint.Log
import NumeralLint.Text.Delimiter
import NumeralLint.Text.Escape

namespace NumeralLint

/-- The environments that are not prose.  Each may also have a star after its name. -/
def blockNames : List Text :=
  ["equation", "equation*", "align", "align*", "table", "tabular", "verbatim", "lstlisting",
    "IEEEkeywords", "figure", "matrix", "bmatrix", "Bmatrix", "pmatrix", "vmatrix", "Vmatrix",
    "smallmatrix"].map String.toList

namespace Recogniser

/-- Reads a delimiter of one of the environments that are not prose. -/
def blockDelimiter (command : Text) : Recogniser := fun t =>
  blockNames.findSome? fun name =>
    delimiter command ((literal name).andThen (optional (literal ['*']))) t

end Recogniser

/-- Whether a line opens a block. -/
def beginsBlock (line : Text) : Bool :=
  line.occurs (Recogniser.blockDelimiter "begin".toList) || line.hasAtom (.escaped '[')

/-- Whether a line closes a block. -/
def endsBlock (line : Text) : Bool :=
  line.occurs (Recogniser.blockDelimiter "end".toList) || line.hasAtom (.escaped ']')

/-! ## Depth -/

/-- The depth for the content of a line: the line may open a block before its content. -/
def depthInside (depth : Nat) (line : Text) : Nat := if beginsBlock line then depth + 1 else depth

/-- The depth after a line: the line may close a block after its content.  At depth zero nothing
is closed, so a stray end hides nothing. -/
def depthAfter (depth : Nat) (line : Text) : Nat := if endsBlock line then depth - 1 else depth

/-- Whether a line closes a block that was never opened. -/
def isStrayEnd (depth : Nat) (line : Text) : Bool := endsBlock line && depth == 0

/-- The log record of a line that closes a block that was never opened. -/
def strayEndRecord (line : Text) : LogRecord :=
  ⟨.blocks, .warn, "block end without a matching begin: ".toList ++ line.trim⟩

end NumeralLint
