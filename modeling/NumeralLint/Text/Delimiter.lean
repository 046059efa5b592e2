/-
Environment delimiters: `\begin{name}` and `\end{name}`.

Blanks may stand around the braces and inside them.
-/
import NumeralLint.Text.Blank
import NumeralLint.Text.Search

namespace NumeralLint

namespace Recogniser

/-- Reads blanks, as many as there are. -/
def blanks : Recogniser := many isBlank

/-- Reads the command `\begin` or `\end` and the brace before the name of the environment. -/
def delimiterStart (command : Text) : Recogniser :=
  (literal ('\\' :: command)).andThen <| blanks.andThen <| (literal ['{']).andThen blanks

/-- Reads the brace after the name of the environment. -/
def delimiterEnd : Recogniser := blanks.andThen (literal ['}'])

/-- Reads the delimiter of the environment whose name is read by `name`. -/
def delimiter (command : Text) (name : Recogniser) : Recogniser :=
  (delimiterStart command).andThen <| name.andThen delimiterEnd

end Recogniser

end NumeralLint
