/-
Alignment of numeric columns: the rule on tables.

A table is reported, at its column specification, when a column holds
numbers in more than a certain part of its rows and its type does not align
them at the decimal point.  A row is a line of the document with one row
terminator; lines with more, and rows whose number of cells is not the number
of columns, are reported themselves and not accounted for.

One line is read as at most four parts: the end of a table that was open, the
beginning of a table, a row of it, and its end.  What follows is not read.
-/
import NumeralLint.Log
import NumeralLint.Source.Finding
import NumeralLint.Table.Tally
import NumeralLint.Text.Delimiter
import NumeralLint.Text.Quoted

namespace NumeralLint

namespace Recogniser

def tableBegin : Recogniser := delimiter "begin".toList (literal "tabular".toList)

def tableEnd : Recogniser := delimiter "end".toList (literal "tabular".toList)

/-- Reads what may stand between the beginning of a table and its column specification: a position
in square brackets, and the opening brace. -/
def specOpening : Recogniser :=
  blanks.andThen <| (optional ((bracketed '[' ']').andThen blanks)).andThen (literal ['{'])

end Recogniser

/-- The rule on the alignment of numeric columns. -/
structure Alignment where
  /-- A column is one of numbers if they fill more than this part of the rows. -/
  threshold : Float
  /-- The column types that align numbers at the decimal point. -/
  alignedTypes : List Char

namespace Alignment

def ruleId : Text := "num:tabular".toList

def description : Text := "Align numeric table columns by decimal point.".toList

/-- The message about a table. -/
def alignMessage : Text := "align numeric columns by decimal point".toList

/-- The message about a line with several row terminators. -/
def severalRowsMessage : Text := "start at most one new row per source line".toList

/-- The message about a row with too few or too many cells. -/
def cellCountMessage : Text := "column count must match the column specification".toList

def usualThreshold : Float := 0.5

def usualAlignedTypes : List Char := ['S']

/-- Whether some column of the table holds numbers that are not aligned. -/
def needsAlignment (rule : Alignment) (tally : TableTally) : Bool :=
  tally.types.zipIdx.any fun (type, column) =>
    (tally.numberShare? column).any (fun share => share > rule.threshold)
      && !rule.alignedTypes.contains type

/-! ## Events -/

/-- What happens while a line is read. -/
inductive Event where
  /-- The line has several row terminators; the range is that of the first. -/
  | severalRows (range : Range)
  /-- The row in the range has another number of cells than the table has columns. -/
  | wrongCellCount (range : Range) (cells columns : Nat)
  /-- The row has a cell over several columns and is not accounted for. -/
  | spanningRow
  /-- A table begins inside another, which is given up. -/
  | nested
  /-- A table begins without a column specification on the line. -/
  | noSpecification
  /-- A table with columns of the given types is entered. -/
  | entered (types : List Char)
  /-- A table is left; the range is that of its specification. -/
  | left (rows : Nat) (misaligned : Bool) (anchor : Range)

/-- A tally, and what happened before it was reached. -/
abbrev Reading := TableTally × List Event

namespace Reading

/-- Goes on from the tally that was reached. -/
def andThen (reading : Reading) (next : TableTally → Reading) : Reading :=
  let later := next reading.1
  (later.1, reading.2 ++ later.2)

end Reading

/-! ## Reading a line

`place` gives the original range between two columns of the line. -/

/-- Accounts for the row in the part `segment` of a line, which starts at `column`. -/
def readRow (place : Nat → Nat → Range) (column : Nat) (segment : Text) (tally : TableTally) :
    Reading :=
  match Text.atomPlaces .rowTerminator 0 segment.atoms with
  | [] => (tally, [])
  | [first] =>
      let content := segment.beforeAtom .rowTerminator
      if content.occurs (.literal "\\multicolumn".toList) then (tally, [.spanningRow])
      else
        let cells := content.cells
        if cells.length = tally.columns then (tally.addRow cells, [])
        else (tally, [.wrongCellCount (place column (column + first)) cells.length tally.columns])
  | first :: _ :: _ => (tally, [.severalRows (place (column + first) (column + first + 2))])

/-- Gives the verdict on the table and leaves it. -/
def leaveTable (rule : Alignment) (tally : TableTally) : Reading :=
  (.idle, [.left tally.rows (rule.needsAlignment tally) tally.anchor])

/-- Reads the part of a line that lies in a table, from `column` on: a row, and the end of the
table if it is there. -/
def readInside (rule : Alignment) (place : Nat → Nat → Range) (column : Nat) (t : Text)
    (tally : TableTally) : Reading :=
  match t.cut .tableEnd with
  | none => readRow place column t tally
  | some (row, _) => (readRow place column row tally).andThen rule.leaveTable

/-- Enters a table whose beginning ends where the part `t` of the line starts, and reads on. -/
def enterTable (rule : Alignment) (place : Nat → Nat → Range) (line t : Text)
    (tally : TableTally) : Reading :=
  match Recogniser.specOpening t with
  | none => (tally, [.noSpecification])
  | some inner =>
      let spec := ColumnSpec.read inner
      let start := line.columnOf inner
      let inside := spec.rest.drop 1
      Reading.andThen (.opened spec (place start (start + spec.size)), [.entered spec.types])
        (rule.readInside place (line.columnOf inside) inside)

/-- Reads the part `t` of a line that lies outside every table. -/
def readOutside (rule : Alignment) (place : Nat → Nat → Range) (line t : Text)
    (tally : TableTally) : Reading :=
  match t.cut .tableBegin with
  | none => (tally, [])
  | some (_, after) => rule.enterTable place line after tally

/-- The row before the first end of a table in a line, and the rest of the line after it, if no
table begins before that end. -/
def closingRow? (line : Text) : Option (Text × Text) :=
  (line.cut .tableEnd).filter fun (row, _) => !row.occurs .tableBegin

def readLine (rule : Alignment) (place : Nat → Nat → Range) (tally : TableTally) (line : Text) :
    Reading :=
  if tally.isOpen then
    match closingRow? line with
    | some (row, rest) =>
        ((readRow place 0 row tally).andThen rule.leaveTable).andThen
          (rule.readOutside place line rest)
    | none =>
        match line.cut .tableBegin with
        | none => readRow place 0 line tally
        | some (_, after) => Reading.andThen (.idle, [.nested]) (rule.enterTable place line after)
  else rule.readOutside place line line tally

/-! ## Reading a document -/

/-- What happens in each of the lines read from a tally on, of which the first has the number
`first`, and the tally after them. -/
def readLines (rule : Alignment) (place : Nat → Nat → Nat → Range) (first : Nat)
    (tally : TableTally) : List Text → TableTally × List (List Event)
  | [] => (tally, [])
  | line :: rest =>
      let reading := rule.readLine (place first) tally line
      let later := rule.readLines place (first + 1) reading.1 rest
      (later.1, reading.2 :: later.2)

def events (rule : Alignment) (place : Nat → Nat → Nat → Range) (lines : List Text) :
    TableTally × List (List Event) :=
  rule.readLines place 0 .idle (lines.map Text.trimEnd)

namespace Event

def finding? : Event → Option Finding
  | severalRows range => some ⟨range, severalRowsMessage⟩
  | wrongCellCount range _ _ => some ⟨range, cellCountMessage⟩
  | left _ misaligned anchor => if misaligned then some ⟨anchor, alignMessage⟩ else none
  | spanningRow => none
  | nested => none
  | noSpecification => none
  | entered _ => none

/-- The name of the line with the number `line`, at the start of a log message. -/
def lineLabel (resource : Text) (line : Nat) : Text :=
  resource ++ ':' :: Text.ofNat (line + 1) ++ [':', ' ']

def logRecord? (resource : Text) (line : Nat) : Event → Option LogRecord
  | severalRows _ => none
  | wrongCellCount _ cells columns =>
      some ⟨.tables, .trace, lineLabel resource line ++ "row has ".toList ++ Text.ofNat cells
        ++ " cells, expected ".toList ++ Text.ofNat columns⟩
  | spanningRow =>
      some ⟨.tables, .trace, lineLabel resource line ++ "skipping \\multicolumn row".toList⟩
  | nested =>
      some ⟨.tables, .warn, lineLabel resource line
        ++ "tabular opened inside another tabular; discarding the outer table".toList⟩
  | noSpecification =>
      some ⟨.tables, .debug,
        lineLabel resource line ++ "tabular without an inline column specification".toList⟩
  | entered types =>
      some ⟨.tables, .debug, lineLabel resource line ++ "tabular opened with ".toList
        ++ Text.ofNat types.length ++ " columns ".toList ++ Text.quotedChars types⟩
  | left rows misaligned _ =>
      some ⟨.tables, .debug, resource ++ ": tabular closed after ".toList ++ Text.ofNat rows
        ++ " rows, misaligned: ".toList ++ (if misaligned then "true" else "false").toList⟩

end Event

/-- The log record of a document that ends in a table. -/
def unclosedRecord? (resource : Text) (tally : TableTally) : Option LogRecord :=
  if tally.isOpen then
    some ⟨.tables, .debug, resource ++ ": tabular still open at end of document after ".toList
      ++ Text.ofNat tally.rows ++ " rows".toList⟩
  else none

def findings (rule : Alignment) (place : Nat → Nat → Nat → Range) (lines : List Text) :
    List Finding :=
  (rule.events place lines).2.flatten.filterMap Event.finding?

def logRecords (rule : Alignment) (resource : Text) (place : Nat → Nat → Nat → Range)
    (lines : List Text) : List LogRecord :=
  let outcome := rule.events place lines
  (outcome.2.mapIdx fun line es => es.filterMap (Event.logRecord? resource line)).flatten
    ++ (unclosedRecord? resource outcome.1).toList

end Alignment

end NumeralLint
