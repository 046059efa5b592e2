/-
Advisories: what the linter reports.

An advisory has all that its presentation needs: beside the range and the
message, the name of the document, the line on which the range starts, and
the number of bytes before it.
-/
import NumeralLint.Source.Document
import NumeralLint.Source.Finding

namespace NumeralLint

/-- A report about a range of a document. -/
structure Advisory where
  /-- The identifier of the rule that makes the report. -/
  ruleId : Text
  range : Range
  message : Text
  /-- The name of the document. -/
  resource : Text
  /-- The original line on which the range starts. -/
  line : Text
  /-- The number of bytes of the original text before the range. -/
  offset : Nat
deriving DecidableEq

namespace Document

/-- The advisories that rule `ruleId` makes of its findings. -/
def advisories (doc : Document) (ruleId : Text) (findings : List Finding) : List Advisory :=
  let index := doc.index
  findings.map fun finding =>
    { ruleId := ruleId
      range := finding.range
      message := finding.message
      resource := doc.resource
      line := index.body finding.range.start.line
      offset := index.offset finding.range.start }

end Document

end NumeralLint
