/-
The rules never look at original positions.

A rule is given `place`, which turns a part of a prepared line into a range
of the original text.  Putting a function `f` after `place` moves the ranges
that come out and changes nothing else: one `_move` lemma for each function
that reads tables says so, up to `findings_move`.  The range of a column
specification waits in the tally until its table is left, so a tally is
moved too (`TableTally.move`); outside every table nothing waits, and the
idle tally stays as it is.
-/
import Mathlib.Data.List.Forall2
import NumeralLint.Linter
import NumeralLint.Proofs.Source.Lines
import NumeralLint.Proofs.Table.Reading

namespace NumeralLint

/-- A part of a line, as a range of the text that the rules read. -/
def Range.ofLine (line start stop : Nat) : Range := ⟨⟨line, start⟩, ⟨line, stop⟩⟩

/-- The range between the images of the ends of a range. -/
def Range.map (f : Position → Position) (r : Range) : Range := ⟨f r.start, f r.stop⟩

def Finding.move (f : Range → Range) (finding : Finding) : Finding := ⟨f finding.range, finding.message⟩

/-! ## Tallies, events and readings -/

namespace TableTally

/-- The tally of the same table with its specification at another range. -/
def move (f : Range → Range) (tally : TableTally) : TableTally :=
  if tally.isOpen then { tally with anchor := f tally.anchor } else tally

variable (f : Range → Range) (tally : TableTally)

@[simp] theorem move_idle : move f idle = idle := rfl

@[simp] theorem move_opened (spec : ColumnSpec) (anchor : Range) :
    move f (opened spec anchor) = opened spec (f anchor) := rfl

@[simp] theorem move_isOpen : (move f tally).isOpen = tally.isOpen := by
  unfold move
  split <;> rfl

@[simp] theorem move_columns : (move f tally).columns = tally.columns := by
  unfold move
  split <;> rfl

@[simp] theorem move_rows : (move f tally).rows = tally.rows := by
  unfold move
  split <;> rfl

@[simp] theorem move_types : (move f tally).types = tally.types := by
  unfold move
  split <;> rfl

@[simp] theorem move_numbers : (move f tally).numbers = tally.numbers := by
  unfold move
  split <;> rfl

theorem move_anchor (h : tally.isOpen = true) : (move f tally).anchor = f tally.anchor := by
  simp [move, h]

theorem move_addRow (cells : List Text) :
    move f (tally.addRow cells) = (move f tally).addRow cells := by
  unfold move
  split <;> simp_all [addRow]

end TableTally

namespace Alignment

def Event.move (f : Range → Range) : Event → Event
  | severalRows range => .severalRows (f range)
  | wrongCellCount range cells columns => .wrongCellCount (f range) cells columns
  | left rows misaligned anchor => .left rows misaligned (f anchor)
  | spanningRow => .spanningRow
  | nested => .nested
  | noSpecification => .noSpecification
  | entered types => .entered types

def Reading.move (f : Range → Range) (reading : Reading) : Reading :=
  (reading.1.move f, reading.2.map (Event.move f))

theorem Reading.move_andThen {f : Range → Range} {reading : Reading}
    {next next' : TableTally → Reading}
    (h : next' (reading.1.move f) = Reading.move f (next reading.1)) :
    (reading.move f).andThen next' = Reading.move f (reading.andThen next) := by
  simp [Reading.move, Reading.andThen, h]

variable (rule : Alignment) (f : Range → Range) (place : Nat → Nat → Range)

theorem needsAlignment_move (tally : TableTally) :
    rule.needsAlignment (tally.move f) = rule.needsAlignment tally := by
  simp [needsAlignment, TableTally.numberShare?]

/-! ## A line -/

theorem readRow_move (column : Nat) (segment : Text) (tally : TableTally) :
    readRow (fun start stop => f (place start stop)) column segment (tally.move f) =
      Reading.move f (readRow place column segment tally) := by
  unfold readRow
  split
  · rfl
  · dsimp only
    split
    · rfl
    · rw [TableTally.move_columns]
      split
      · rw [← TableTally.move_addRow]
        rfl
      · rfl
  · rfl

theorem leaveTable_move {tally : TableTally} (h : tally.isOpen = true) :
    rule.leaveTable (tally.move f) = Reading.move f (rule.leaveTable tally) := by
  simp [leaveTable, Reading.move, Event.move, needsAlignment_move, TableTally.move_anchor, h]

theorem readRow_leaveTable_move (column : Nat) (segment : Text) {tally : TableTally}
    (h : tally.isOpen = true) :
    (readRow (fun start stop => f (place start stop)) column segment (tally.move f)).andThen
        rule.leaveTable =
      Reading.move f ((readRow place column segment tally).andThen rule.leaveTable) := by
  rw [readRow_move]
  refine Reading.move_andThen (rule.leaveTable_move f ?_)
  rw [isOpen_readRow, h]

theorem readInside_move (column : Nat) (t : Text) {tally : TableTally}
    (h : tally.isOpen = true) :
    rule.readInside (fun start stop => f (place start stop)) column t (tally.move f) =
      Reading.move f (rule.readInside place column t tally) := by
  unfold readInside
  split
  · exact readRow_move f place column t tally
  · next row _ _ => exact rule.readRow_leaveTable_move f place column row h

theorem enterTable_move (line t : Text) (tally : TableTally) :
    rule.enterTable (fun start stop => f (place start stop)) line t (tally.move f) =
      Reading.move f (rule.enterTable place line t tally) := by
  unfold enterTable
  split
  · rfl
  · dsimp only
    rw [← Reading.move_andThen (rule.readInside_move f place _ _ rfl)]
    rfl

theorem readOutside_move (line t : Text) (tally : TableTally) :
    rule.readOutside (fun start stop => f (place start stop)) line t (tally.move f) =
      Reading.move f (rule.readOutside place line t tally) := by
  unfold readOutside
  split
  · rfl
  · exact rule.enterTable_move f place line _ tally

theorem readLine_move (tally : TableTally) (line : Text) :
    rule.readLine (fun start stop => f (place start stop)) (tally.move f) line =
      Reading.move f (rule.readLine place tally line) := by
  unfold readLine
  rw [TableTally.move_isOpen]
  split
  · next hopen =>
      split
      · next row rest _ =>
          rw [readRow_leaveTable_move rule f place 0 row hopen]
          exact Reading.move_andThen (rule.readOutside_move f place line rest _)
      · split
        · exact readRow_move f place 0 line tally
        · next after _ =>
            rw [← Reading.move_andThen (rule.enterTable_move f place line after .idle)]
            rfl
  · exact rule.readOutside_move f place line line tally

end Alignment

/-! ## Whole texts -/

section WholeTexts

variable (f : Range → Range) (place : Nat → Nat → Nat → Range)

theorem Alignment.readLines_move (rule : Alignment) (first : Nat) (tally : TableTally)
    (lines : List Text) :
    rule.readLines (fun line start stop => f (place line start stop)) first (tally.move f) lines =
      ((rule.readLines place first tally lines).1.move f,
        (rule.readLines place first tally lines).2.map (List.map (Event.move f))) := by
  induction lines generalizing first tally with
  | nil => rfl
  | cons line rest ih =>
      have step := rule.readLine_move f (place first) tally line
      simp only [Alignment.readLines, step, Reading.move, ih, List.map_cons]

theorem Alignment.Event.finding?_move (event : Alignment.Event) :
    (event.move f).finding? = event.finding?.map (Finding.move f) := by
  cases event with
  | left rows misaligned anchor => cases misaligned <;> rfl
  | _ => rfl

theorem Alignment.findings_move (rule : Alignment) (lines : List Text) :
    rule.findings (fun line start stop => f (place line start stop)) lines =
      (rule.findings place lines).map (Finding.move f) := by
  have run := rule.readLines_move f place 0 .idle (lines.map Text.trimEnd)
  rw [TableTally.move_idle] at run
  rw [Alignment.findings, Alignment.findings, Alignment.events, Alignment.events, run,
    ← List.map_flatten, List.filterMap_map, List.map_filterMap]
  exact List.filterMap_congr fun event _ => event.finding?_move f

theorem SmallIntegers.Event.finding?_move (place : Nat → Nat → Range)
    (event : SmallIntegers.Event) :
    event.finding? (fun start stop => f (place start stop)) =
      (event.finding? place).map (Finding.move f) := by
  cases event <;> rfl

theorem SmallIntegers.findings_move (rule : SmallIntegers) (lines : List Text) :
    rule.findings (fun line start stop => f (place line start stop)) lines =
      (rule.findings place lines).map (Finding.move f) := by
  rw [SmallIntegers.findings, SmallIntegers.findings, List.map_flatten,
    List.mapIdx_eq_zipIdx_map, List.mapIdx_eq_zipIdx_map, List.map_map]
  refine congrArg List.flatten (List.map_congr_left ?_)
  intro numbered _
  rw [Function.comp_apply, List.map_filterMap]
  exact List.filterMap_congr fun event _ => event.finding?_move f (place numbered.2)

end WholeTexts

/-! ## Reports -/

namespace Rule

/-- What a rule finds in lines, at the ranges of the lines themselves. -/
def preparedFindings (lines : List Text) : Rule → List Finding
  | smallIntegers rule => rule.findings Range.ofLine lines
  | alignment rule => rule.findings Range.ofLine lines

/-- The findings of a rule in a document are its findings in the prepared text, each end of a range
moved to its original position. -/
theorem findings_eq (doc : Document) (rule : Rule) :
    rule.findings doc =
      (rule.preparedFindings doc.lines).map (Finding.move (Range.map doc.toOriginal)) := by
  cases rule with
  | smallIntegers rule => exact rule.findings_move (Range.map doc.toOriginal) Range.ofLine doc.lines
  | alignment rule => exact rule.findings_move (Range.map doc.toOriginal) Range.ofLine doc.lines

end Rule

/-- A report before it is known where the prepared text came from. -/
structure PreparedReport where
  ruleId : Text
  /-- A range of the prepared text. -/
  range : Range
  message : Text

namespace Linter

/-- What the rules report of a prepared text, in the order of the rules. -/
def preparedReports (linter : Linter) (prepared : Text) : List PreparedReport :=
  linter.rules.flatMap fun rule =>
    (rule.preparedFindings prepared.lines).map fun finding =>
      ⟨rule.id, finding.range, finding.message⟩

/-- The advisory that a report makes in a document. -/
def advisoryOf (doc : Document) (report : PreparedReport) : Advisory :=
  let range := report.range.map doc.toOriginal
  { ruleId := report.ruleId
    range := range
    message := report.message
    resource := doc.resource
    line := doc.index.body range.start.line
    offset := doc.index.offset range.start }

theorem check_eq_map (linter : Linter) (doc : Document) :
    linter.check doc = (linter.preparedReports doc.prepared).map (advisoryOf doc) := by
  rw [check, preparedReports, List.map_flatMap]
  refine congrArg (linter.rules.flatMap ·) (funext fun rule => ?_)
  rw [Rule.check, Document.advisories, Rule.findings_eq, List.map_map, List.map_map]
  rfl

/-- What a linter reports is fixed by the prepared text: there is one list of reports, with ranges
of the prepared text, such that for every original text and every map of positions the advisories
are those reports, in order, at the images of their ranges.  The line and the offset of each are
those of its range in the original text, and the offset does not pass the end of that text. -/
theorem check_natural (linter : Linter) (prepared : Text) :
    ∃ reports : List PreparedReport, ∀ (resource original : Text) (map : Position → Position),
      List.Forall₂
        (fun (a : Advisory) (w : PreparedReport) =>
          a.ruleId = w.ruleId ∧ a.message = w.message ∧
            (a.range.start = map w.range.start ∧ a.range.stop = map w.range.stop) ∧
            a.line = (LineIndex.ofText original).body a.range.start.line ∧
            a.offset = (LineIndex.ofText original).offset a.range.start ∧
            a.offset ≤ original.width)
        (linter.check ⟨resource, original, prepared, map⟩) reports := by
  refine ⟨linter.preparedReports prepared, ?_⟩
  intro resource original map
  rw [check_eq_map, List.forall₂_map_left_iff]
  refine List.forall₂_same.mpr ?_
  intro w _
  exact ⟨rfl, rfl, ⟨rfl, rfl⟩, rfl, rfl, LineIndex.offset_le original _⟩

end Linter

end NumeralLint
