/-
Small integers in prose: the rule that asks for words in place of numerals.

A sentence is reported when it has numerals and every one of them is an
integer from zero to a limit; the report stands at the first.  One decimal
or large numeral makes the sentence a matter of data, which is left alone.
Lines inside blocks are not prose.
-/
import NumeralLint.Numeral
import NumeralLint.Prose.Block
import NumeralLint.Prose.Placement
import NumeralLint.Prose.Sentence
import NumeralLint.Source.Finding

namespace NumeralLint

/-- The rule on small integers in prose. -/
structure SmallIntegers where
  /-- The largest integer that is to be spelled out. -/
  limit : Int
  /-- Cuts a line into sentences. -/
  sentences : Text → List Text

namespace SmallIntegers

def ruleId : Text := "num:words".toList

def description : Text := "Don't use Arabic numerals for integers from zero to ten.".toList

def message : Text := "use the English word for integers from zero to ten".toList

def usualLimit : Int := 10

/-- Whether a numeral is an integer that is to be spelled out. -/
def isSmall (rule : SmallIntegers) (n : Numeral) : Bool :=
  n.value?.any fun v => decide (0 ≤ v ∧ v ≤ rule.limit)

/-- The numeral at which a sentence is reported. -/
def offending? (rule : SmallIntegers) (sentence : Text) : Option Numeral :=
  let found := sentence.numerals
  if found.all rule.isSmall then found.head? else none

/-- What happens while a line is read. -/
inductive Event where
  /-- A numeral is reported; it lies between two columns of the line. -/
  | report (start stop : Nat)
  /-- The splitter gave a sentence that does not occur in the line. -/
  | missing (sentence : Text)
  /-- The line closes a block that was never opened. -/
  | strayEnd (line : Text)

/-- What a sentence leads to. -/
def sentenceEvent? (rule : SmallIntegers) : Placement → Option Event
  | .missing text => some (.missing text)
  | .found s => (rule.offending? s.text).map fun n => .report (s.offset + n.start) (s.offset + n.stop)

def proseEvents (rule : SmallIntegers) (line : Text) : List Event :=
  (placeAll 0 line (rule.sentences line)).filterMap rule.sentenceEvent?

/-- What happens in a line read at a depth, and the depth after it. -/
def readLine (rule : SmallIntegers) (depth : Nat) (line : Text) : Nat × List Event :=
  let inner := depthInside depth line
  (depthAfter inner line,
    (if inner = 0 then rule.proseEvents line else [])
      ++ (if isStrayEnd inner line then [.strayEnd line] else []))

/-- What happens in each of the lines read from a depth on. -/
def readLines (rule : SmallIntegers) (depth : Nat) : List Text → List (List Event)
  | [] => []
  | line :: rest =>
      let reading := rule.readLine depth line
      reading.2 :: rule.readLines reading.1 rest

def events (rule : SmallIntegers) (lines : List Text) : List (List Event) :=
  rule.readLines 0 (lines.map Text.trimEnd)

namespace Event

/-- The finding of an event; `place` gives the original range between two columns of the line. -/
def finding? (place : Nat → Nat → Range) : Event → Option Finding
  | report start stop => some ⟨place start stop, message⟩
  | missing _ => none
  | strayEnd _ => none

def logRecord? : Event → Option LogRecord
  | report _ _ => none
  | missing text => (Placement.missing text).logRecord?
  | strayEnd line => some (strayEndRecord line)

end Event

/-- The findings in the lines of a text; `place` gives the original range between two columns of a
line. -/
def findings (rule : SmallIntegers) (place : Nat → Nat → Nat → Range) (lines : List Text) :
    List Finding :=
  ((rule.events lines).mapIdx fun n es => es.filterMap (Event.finding? (place n))).flatten

def logRecords (rule : SmallIntegers) (lines : List Text) : List LogRecord :=
  (rule.events lines).flatten.filterMap Event.logRecord?

end SmallIntegers

end NumeralLint
