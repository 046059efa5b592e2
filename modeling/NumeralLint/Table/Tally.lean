/-
The tally of the table that is being read.

For each column it counts the rows in which the cell holds a number.  Where
no table is open there is nothing to count, and the tally is idle.
-/
import NumeralLint.Source.Position
import NumeralLint.Table.Cell
import NumeralLint.Table.ColumnSpec

namespace NumeralLint

/-- What is known of the table that is being read, if there is one. -/
structure TableTally where
  isOpen : Bool
  columns : Nat
  /-- For each column, the number of rows in which it holds a number. -/
  numbers : List Nat
  /-- The number of rows accounted for. -/
  rows : Nat
  types : List Char
  /-- The original range of the column specification, where the table is reported. -/
  anchor : Range
deriving DecidableEq

namespace TableTally

/-- The tally outside every table. -/
def idle : TableTally := ⟨false, 0, [], 0, [], .origin⟩

def opened (spec : ColumnSpec) (anchor : Range) : TableTally where
  isOpen := true
  columns := spec.columns
  numbers := List.replicate spec.columns 0
  rows := 0
  types := spec.types
  anchor := anchor

/-- The tally after a row with the given cells. -/
def addRow (tally : TableTally) (cells : List Text) : TableTally :=
  { tally with
    rows := tally.rows + 1
    numbers := tally.numbers.mapIdx fun i count =>
      if cells[i]?.any Text.isNumericCell then count + 1 else count }

/-- The part of the rows in which a column holds a number, if there are rows and the column
exists. -/
def numberShare? (tally : TableTally) (column : Nat) : Option Float :=
  if tally.rows = 0 then none
  else tally.numbers[column]?.map fun count => count.toFloat / tally.rows.toFloat

end TableTally

end NumeralLint
