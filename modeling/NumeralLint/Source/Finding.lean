/-
Findings: what a rule has to say about a place in the original text, before
the document adds its own data.
-/
import NumeralLint.Source.Position
import NumeralLint.Text.Basic

namespace NumeralLint

/-- A message about a range of the original text. -/
structure Finding where
  range : Range
  message : Text
deriving DecidableEq

end NumeralLint
