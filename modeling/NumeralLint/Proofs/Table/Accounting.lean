/-
Accounting for a line, wholly or not at all.

A line of a table without delimiters is ignored, reported or counted, and
`Fate.Of` says what each of these means for the whole tally and for the
advisories.  No two of them agree with one outcome (`Fate.Of.unique`), so
there is no line that is counted in some columns, or reported and counted.
Where no table is open, lines change nothing until one begins
(`processLines_idle`).
-/
import NumeralLint.Proofs.Table.WellFormed
import NumeralLint.Proofs.Table.WholeTable

namespace NumeralLint

namespace Alignment

/-! ## What becomes of a line -/

/-- What becomes of a line that is read in a table. -/
inductive Fate where
  | ignored
  | reported
  | counted

/-- A line without a row, or with one that has a cell over several columns, changes nothing. -/
structure Ignored (line : Text) (tally : TableTally) (outcome : TableTally × List Advisory) :
    Prop where
  row : line.terminators = 0 ∨ line.terminators = 1 ∧ line.isSpanning = true
  unchanged : outcome.1 = tally
  advisories : outcome.2 = []

/-- A line with several rows, or with one that has another number of cells than the table has
columns, adds one advisory and changes nothing. -/
structure Reported (doc : Document) (number : Nat) (line : Text) (tally : TableTally)
    (outcome : TableTally × List Advisory) : Prop where
  unchanged : outcome.1 = tally
  advisory : ∃ advisory, outcome.2 = [advisory] ∧ advisory.ruleId = ruleId ∧
    bodyFinding? (doc.originalRange number) tally.columns line =
      some ⟨advisory.range, advisory.message⟩

/-- A line with one row that has a cell for each column adds the row to the tally, and no
advisory. -/
structure Counted (line : Text) (tally : TableTally) (outcome : TableTally × List Advisory) :
    Prop where
  row : line.terminators = 1 ∧ line.isSpanning = false
  cells : line.rowContent.cells.length = tally.columns
  advisories : outcome.2 = []
  rows : outcome.1.rows = tally.rows + 1
  /-- The columns whose cell holds a number have one more, the others as many as before. -/
  numbers : ∀ column < tally.columns, ∃ count cell, tally.numbers[column]? = some count ∧
    line.rowContent.cells[column]? = some cell ∧
      outcome.1.numbers[column]? = some (if cell.isNumericCell then count + 1 else count)
  length_numbers : outcome.1.numbers.length = tally.columns
  others : outcome.1 = { tally with rows := outcome.1.rows, numbers := outcome.1.numbers }

/-- What the fate of a line says of the outcome of reading it. -/
def Fate.Of (doc : Document) (number : Nat) (line : Text) (tally : TableTally)
    (outcome : TableTally × List Advisory) : Fate → Prop
  | ignored => Ignored line tally outcome
  | reported => Reported doc number line tally outcome
  | counted => Counted line tally outcome

section

variable {doc : Document} {number : Nat} {line : Text} {tally : TableTally}
  {outcome : TableTally × List Advisory}

theorem Reported.advisories_ne_nil (h : Reported doc number line tally outcome) :
    outcome.2 ≠ [] := by
  obtain ⟨advisory, hadvisory, -⟩ := h.advisory
  rw [hadvisory]
  exact List.cons_ne_nil _ _

theorem Counted.tally_ne (h : Counted line tally outcome) : outcome.1 ≠ tally := by
  intro same
  have rows := h.rows
  rw [same] at rows
  omega

theorem Fate.Of.unique {fate fate' : Fate} (h : fate.Of doc number line tally outcome)
    (h' : fate'.Of doc number line tally outcome) : fate = fate' := by
  cases fate with
  | ignored =>
      cases fate' with
      | ignored => rfl
      | reported => exact absurd h.advisories (Reported.advisories_ne_nil h')
      | counted => exact absurd h.unchanged (Counted.tally_ne h')
  | reported =>
      cases fate' with
      | ignored => exact absurd h'.advisories (Reported.advisories_ne_nil h)
      | reported => rfl
      | counted => exact absurd h'.advisories (Reported.advisories_ne_nil h)
  | counted =>
      cases fate' with
      | ignored => exact absurd h'.unchanged (Counted.tally_ne h)
      | reported => exact absurd h.advisories (Reported.advisories_ne_nil h')
      | counted => rfl

/-! ## A line of a table -/

theorem counted_addRow (htally : tally.WellFormed)
    (hrow : line.terminators = 1 ∧ line.isSpanning = false)
    (hcells : line.rowContent.cells.length = tally.columns) :
    Counted line tally (tally.addRow line.rowContent.cells, []) where
  row := hrow
  cells := hcells
  advisories := rfl
  rows := rfl
  numbers := by
    intro column hcolumn
    have hnumber : column < tally.numbers.length := by rw [htally.length_numbers]; exact hcolumn
    have hcell : column < line.rowContent.cells.length := by rw [hcells]; exact hcolumn
    refine ⟨tally.numbers[column], line.rowContent.cells[column],
      List.getElem?_eq_getElem hnumber, List.getElem?_eq_getElem hcell, ?_⟩
    simp [TableTally.addRow, hnumber, hcell]
  length_numbers := by
    rw [TableTally.addRow, List.length_mapIdx, htally.length_numbers]
  others := rfl

theorem processLines_body (rule : Alignment) (hopen : tally.isOpen = true)
    (hbegin : line.occurs .tableBegin = false) (hend : line.occurs .tableEnd = false) :
    let reading := readRow (doc.originalRange number) 0 line tally
    rule.processLines doc number tally [line] =
      (reading.1, doc.advisories ruleId (reading.2.filterMap Event.finding?)) := by
  intro reading
  have read : rule.readLine (doc.originalRange number) tally line = reading :=
    rule.readLine_body (doc.originalRange number) hopen hbegin hend
  simp [processLines, readLines, read]

theorem exists_fate (rule : Alignment) (htally : tally.WellFormed) (hopen : tally.isOpen = true)
    (hbegin : line.occurs .tableBegin = false) (hend : line.occurs .tableEnd = false) :
    ∃ fate : Fate, fate.Of doc number line tally (rule.processLines doc number tally [line]) := by
  rw [processLines_body rule hopen hbegin hend]
  have reading := rowReading_readRow (doc.originalRange number) 0 line tally
  generalize readRow (doc.originalRange number) 0 line tally = outcome at reading
  cases reading with
  | none count => exact ⟨.ignored, Or.inl count, rfl, rfl⟩
  | several count => exact ⟨.reported, rfl, _, rfl, rfl, by simp [bodyFinding?, count]⟩
  | spanning count spans => exact ⟨.ignored, Or.inr ⟨count, spans⟩, rfl, rfl⟩
  | counted count spans cells => exact ⟨.counted, counted_addRow htally ⟨count, spans⟩ cells⟩
  | wrong count spans cells =>
      exact ⟨.reported, rfl, _, rfl, rfl, by simp [bodyFinding?, count, spans, cells]⟩

/-! ## Lines outside every table -/

/-- Outside every table, lines without a beginning change nothing, whatever else they hold. -/
theorem processLines_idle (rule : Alignment) (doc : Document) (first : Nat)
    (hidle : tally.isOpen = false) {lines : List Text}
    (hbegin : ∀ line ∈ lines, line.occurs .tableBegin = false) :
    rule.processLines doc first tally lines = (tally, []) := by
  induction lines generalizing first with
  | nil => rfl
  | cons line rest ih =>
      obtain ⟨hline, hrest⟩ := List.forall_mem_cons.mp hbegin
      have read : rule.readLine (doc.originalRange first) tally line = (tally, []) := by
        rw [readLine, if_neg (by simp [hidle]), readOutside, Text.occurs_eq_false.mp hline]
      have later := ih (first + 1) hrest
      rw [processLines, readLines, read]
      exact later

end

/-! ## Lines that steps can come to -/

/-- A line without delimiters has one fate in every table that steps reach; outside every table a
line without a beginning changes nothing. -/
theorem processLines_allOrNothing (rule : Alignment) (doc : Document) (number : Nat)
    (steps : List TableTally.Step) (line : Text) (hbegin : line.occurs .tableBegin = false) :
    let tally := TableTally.run steps
    let outcome := rule.processLines doc number tally [line]
    (tally.isOpen = true → line.occurs .tableEnd = false →
        ∃! fate : Fate, fate.Of doc number line tally outcome) ∧
      (tally.isOpen = false → outcome = (tally, [])) := by
  intro tally outcome
  constructor
  · intro hopen hend
    have wellFormed : tally.WellFormed := TableTally.wellFormed_idle.foldl_after steps
    obtain ⟨fate, hfate⟩ := rule.exists_fate wellFormed hopen hbegin hend
    exact ⟨fate, hfate, fun other hother => hother.unique hfate⟩
  · intro hidle
    exact rule.processLines_idle doc number hidle (by simpa using hbegin)

/-- A row after the line that opens its table, and a row after an end outside every table. -/
theorem processLines_allOrNothing_row :
    let rule : Alignment := ⟨usualThreshold, usualAlignedTypes⟩
    let beginning : Text := "\\begin\x7btabular\x7d\x7bcc\x7d".toList
    let row : Text := "1 & b \\\\".toList
    let doc := Document.plain "t.tex".toList (beginning ++ '\n' :: row)
    let tally := TableTally.run [.line rule doc 0 beginning]
    row.occurs .tableBegin = false ∧ tally.isOpen = true ∧ row.occurs .tableEnd = false ∧
      (∃! fate : Fate, fate.Of doc 1 row tally (rule.processLines doc 1 tally [row])) ∧
      rule.processLines doc 1 (.run []) [closing ++ row] = (.run [], []) := by
  intro rule beginning row doc tally
  have hbegin : row.occurs .tableBegin = false := by decide
  have hend : row.occurs .tableEnd = false := by decide
  have hopen : tally.isOpen = true := by decide +kernel
  have inside := processLines_allOrNothing rule doc 1 [.line rule doc 0 beginning] row hbegin
  have outside := processLines_allOrNothing rule doc 1 [] (closing ++ row) (by decide)
  exact ⟨hbegin, hopen, hend, inside.1 hopen hend, outside.2 rfl⟩

end Alignment

end NumeralLint
