/-
What holds of every tally that can be reached.

A tally is well formed if its lists have an entry for each column, if no
column holds more numbers than there are rows, and if outside every table
nothing is left of a table that was read before.  Every part of a line keeps
a tally well formed, hence a line does, hence every run does
(`wellFormed_run`), in whatever order lines are read, tables are opened by
hand and the tally is put back.
-/
import NumeralLint.Proofs.Source.Lines
import NumeralLint.Proofs.Table.Reading
import NumeralLint.Source.Document

namespace NumeralLint

/-- A row has at least one cell, be it empty. -/
theorem Text.cells_ne_nil (content : Text) : content.cells ≠ [] := by
  rw [Text.cells, Text.splitAtChar_eq_splitOn]
  exact List.splitOn_ne_nil _ _

namespace TableTally

/-- The parts of a tally agree with each other. -/
structure WellFormed (tally : TableTally) : Prop where
  length_numbers : tally.numbers.length = tally.columns
  length_types : tally.types.length = tally.columns
  numbers_le : ∀ count ∈ tally.numbers, count ≤ tally.rows
  /-- Without columns there are no rows: a row has at least one cell. -/
  no_rows : tally.columns = 0 → tally.rows = 0
  /-- Outside every table nothing is left of the last one. -/
  eq_idle : tally.isOpen = false → tally = idle

theorem wellFormed_idle : WellFormed idle where
  length_numbers := rfl
  length_types := rfl
  numbers_le := by simp [idle]
  no_rows := fun _ => rfl
  eq_idle := fun _ => rfl

theorem wellFormed_opened (spec : ColumnSpec) (anchor : Range) :
    WellFormed (opened spec anchor) where
  length_numbers := List.length_replicate
  length_types := spec.length_types
  numbers_le := by
    intro count hcount
    exact Nat.le_of_eq (List.eq_of_mem_replicate hcount)
  no_rows := fun _ => rfl
  eq_idle := by
    intro hclosed
    exact absurd hclosed (by simp [opened])

/-- A row is accounted for only where it has a cell for each column, so there are columns and the
table is open. -/
theorem WellFormed.addRow {tally : TableTally} (h : tally.WellFormed) {cells : List Text}
    (hne : cells ≠ []) (hcells : cells.length = tally.columns) :
    (tally.addRow cells).WellFormed := by
  have columns : tally.columns ≠ 0 := by
    rw [← hcells]
    exact mt List.length_eq_zero_iff.mp hne
  constructor
  case length_numbers => simp [TableTally.addRow, h.length_numbers]
  case length_types => exact h.length_types
  case numbers_le =>
    intro count hcount
    obtain ⟨column, hcolumn, rfl⟩ := List.mem_mapIdx.mp hcount
    have before : tally.numbers[column] ≤ tally.rows := h.numbers_le _ (List.getElem_mem hcolumn)
    show _ ≤ tally.rows + 1
    split <;> omega
  case no_rows =>
    intro none
    exact absurd none columns
  case eq_idle =>
    intro hclosed
    have idle : tally = .idle := h.eq_idle hclosed
    exact absurd (congrArg TableTally.columns idle) columns

end TableTally

namespace Alignment

open TableTally (WellFormed wellFormed_idle wellFormed_opened)

/-! ## The parts of a line -/

variable {rule : Alignment} {place : Nat → Nat → Range} {tally : TableTally}

theorem wellFormed_readRow (h : tally.WellFormed) (column : Nat) (segment : Text) :
    (readRow place column segment tally).1.WellFormed := by
  have reading := rowReading_readRow place column segment tally
  generalize readRow place column segment tally = outcome at reading
  cases reading with
  | none => exact h
  | several => exact h
  | spanning => exact h
  | wrong => exact h
  | counted _ _ cells => exact h.addRow (Text.cells_ne_nil _) cells

theorem wellFormed_readInside (h : tally.WellFormed) (column : Nat) (t : Text) :
    (rule.readInside place column t tally).1.WellFormed := by
  rw [readInside]
  split
  · exact wellFormed_readRow h column t
  · exact wellFormed_idle

theorem wellFormed_enterTable (h : tally.WellFormed) (line t : Text) :
    (rule.enterTable place line t tally).1.WellFormed := by
  rw [enterTable]
  split
  · exact h
  · exact wellFormed_readInside (wellFormed_opened _ _) _ _

theorem wellFormed_readOutside (h : tally.WellFormed) (line t : Text) :
    (rule.readOutside place line t tally).1.WellFormed := by
  rw [readOutside]
  split
  · exact h
  · exact wellFormed_enterTable h line _

/-- Reading a line keeps the tally well formed. -/
theorem wellFormed_readLine (h : tally.WellFormed) (line : Text) :
    (rule.readLine place tally line).1.WellFormed := by
  rw [readLine]
  split
  · split
    · exact wellFormed_readOutside wellFormed_idle line _
    · split
      · exact wellFormed_readRow h 0 line
      · exact wellFormed_enterTable wellFormed_idle line _
  · exact wellFormed_readOutside h line line

theorem wellFormed_readLines {place : Nat → Nat → Nat → Range} (h : tally.WellFormed)
    (first : Nat) (lines : List Text) :
    (rule.readLines place first tally lines).1.WellFormed := by
  induction lines generalizing first tally with
  | nil => exact h
  | cons line rest ih => exact ih (wellFormed_readLine h line) (first + 1)

end Alignment

/-! ## Runs -/

namespace TableTally

/-- What can be done to a tally. -/
inductive Step where
  /-- A line is read, as the line of a document that has the number `number`. -/
  | line (rule : Alignment) (doc : Document) (number : Nat) (line : Text)
  /-- A table is opened that no line has opened. -/
  | opening (spec : ColumnSpec) (anchor : Range)
  /-- The tally is put back to what it is outside every table. -/
  | reset

/-- The tally after a step. -/
def after (tally : TableTally) : Step → TableTally
  | .line rule doc number line => (rule.readLine (doc.originalRange number) tally line).1
  | .opening spec anchor => .opened spec anchor
  | .reset => .idle

/-- The tally after steps that start outside every table. -/
def run (steps : List Step) : TableTally := steps.foldl after idle

theorem WellFormed.after {tally : TableTally} (h : tally.WellFormed) (step : Step) :
    (tally.after step).WellFormed := by
  cases step with
  | line rule doc number line => exact Alignment.wellFormed_readLine h line
  | opening spec anchor => exact wellFormed_opened spec anchor
  | reset => exact wellFormed_idle

theorem WellFormed.foldl_after {tally : TableTally} (h : tally.WellFormed) (steps : List Step) :
    (steps.foldl TableTally.after tally).WellFormed := by
  induction steps generalizing tally with
  | nil => exact h
  | cons step rest ih => exact ih (h.after step)

/-- Every tally that steps reach from outside every table is well formed. -/
theorem wellFormed_run (steps : List Step) : (run steps).WellFormed :=
  wellFormed_idle.foldl_after steps

end TableTally

end NumeralLint
