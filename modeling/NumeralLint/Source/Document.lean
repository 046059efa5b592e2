/-
Documents: the text that is checked, and the text on file that reports
point into.

A rule reads the prepared text, which may have lost its comments or come out
of some other preparation.  A report points into the original text, so a
document knows where each prepared position came from.
-/
import NumeralLint.Source.Comments
import NumeralLint.Source.LineIndex
import NumeralLint.Text.Digits
import NumeralLint.Text.Quoted

namespace NumeralLint

/-- A document to check. -/
structure Document where
  /-- The name under which reports speak of the document. -/
  resource : Text
  /-- The text that reports point into. -/
  original : Text
  /-- The text that the rules read. -/
  prepared : Text
  /-- The original position of a prepared position. -/
  toOriginal : Position → Position

namespace Document

/-- The document whose prepared text is the original text. -/
def plain (resource text : Text) : Document := ⟨resource, text, text, id⟩

/-- The document whose prepared text is the original text without its comments. -/
def uncommented (resource text : Text) : Document := ⟨resource, text, text.withoutComments, id⟩

/-- The lines of the prepared text. -/
def lines (doc : Document) : List Text := doc.prepared.lines

/-- The original range of a part of a prepared line. -/
def originalRange (doc : Document) (line start stop : Nat) : Range :=
  ⟨doc.toOriginal ⟨line, start⟩, doc.toOriginal ⟨line, stop⟩⟩

/-- The lines of the original text with their places. -/
def index (doc : Document) : LineIndex := .ofText doc.original

/-- The summary of a document in log records. -/
def summary (doc : Document) : Text :=
  "Document \x7b resource: ".toList ++ doc.resource.quoted ++ ", lines: ".toList
    ++ Text.ofNat doc.original.pieces.length ++ ", .. \x7d".toList

end Document

end NumeralLint
