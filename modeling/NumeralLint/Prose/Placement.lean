/-
Located sentences: the place of each sentence in its line.

A sentence is looked for from the end of the one before it, so a sentence
that occurs twice is found twice.  One that does not occur is left out.
-/
import NumeralLint.Log
import NumeralLint.Text.Quoted
import NumeralLint.Text.Search

namespace NumeralLint

/-- A sentence and its place in the line. -/
structure PlacedSentence where
  text : Text
  /-- The number of bytes of the line before the sentence. -/
  offset : Nat
deriving DecidableEq

/-- What the search for a sentence comes to. -/
inductive Placement where
  | found (sentence : PlacedSentence)
  | missing (text : Text)

namespace Placement

/-- The sentence that was found. -/
def sentence? : Placement → Option PlacedSentence
  | found sentence => some sentence
  | missing _ => none

/-- The log record of a sentence that was not found. -/
def logRecord? : Placement → Option LogRecord
  | found _ => none
  | missing text => some ⟨.sentences, .trace, "sentence not found in line: ".toList ++ text.quoted⟩

end Placement

/-- Looks for sentences, one after the other, in the rest of a line after `place` bytes.  Empty
sentences are passed over. -/
def placeAll (place : Nat) (rest : Text) : List Text → List Placement
  | [] => []
  | s :: ss =>
      if s.isEmpty then placeAll place rest ss
      else
        match Text.cut (.literal s) rest with
        | none => .missing s :: placeAll place rest ss
        | some (before, after) =>
            let offset := place + before.width
            .found ⟨s, offset⟩ :: placeAll (offset + s.width) after ss

/-- The sentences that occur in the line, in order, with their places. -/
def placedSentences (line : Text) (sentences : List Text) : List PlacedSentence :=
  (placeAll 0 line sentences).filterMap Placement.sentence?

end NumeralLint
