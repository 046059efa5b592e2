/-
What a whole table comes to.

`tableFindings` says it without a state: which lines of the body are rows of
the table (`tableRows`), what is found in each line by itself
(`bodyFinding?`), and when the table is misaligned (`IsMisaligned`).  The
tally after some rows is a function of those rows (`tallyOfRows`); one row
keeps that (`readRow_tallyOfRows`), hence the whole body does
(`readLines_body`), and `processLines_table` puts the opening line, the body
and the closing line together.
-/
import NumeralLint.Advisory.Basic
import NumeralLint.Proofs.Table.Reading

namespace NumeralLint

namespace Alignment

/-- Reads lines of a document, of which the first has the number `first`: the tally after them and
the advisories that they add. -/
def processLines (rule : Alignment) (doc : Document) (first : Nat) (tally : TableTally)
    (lines : List Text) : TableTally × List Advisory :=
  let outcome := rule.readLines doc.originalRange first tally lines
  (outcome.1, doc.advisories ruleId (outcome.2.flatten.filterMap Event.finding?))

/-! ## Tables without a state -/

/-- Whether a line is accounted for as a row of a table with so many columns: it has one
terminator, no cell over several columns, and a cell for each column. -/
def isTableRow (columns : Nat) (line : Text) : Bool :=
  line.terminators == 1 && !line.isSpanning && line.rowContent.cells.length == columns

/-- The rows of a table with so many columns that are accounted for. -/
def tableRows (columns : Nat) (body : List Text) : List Text := body.filter (isTableRow columns)

/-- What is found in a line of the body of a table with so many columns. -/
def bodyFinding? (place : Nat → Nat → Range) (columns : Nat) (line : Text) : Option Finding :=
  let stop := line.rowContent.width
  if 2 ≤ line.terminators then some ⟨place stop (stop + 2), severalRowsMessage⟩
  else if line.terminators = 1 ∧ line.isSpanning = false ∧
      line.rowContent.cells.length ≠ columns then some ⟨place 0 stop, cellCountMessage⟩
  else none

/-- In how many rows the cell of a column holds a number. -/
def numbersIn (rows : List Text) (column : Nat) : Nat :=
  rows.countP fun row => row.rowContent.cells[column]?.any Text.isNumericCell

/-- There are rows, and in more than a certain part of them some column that is not of an aligned
type holds a number. -/
def IsMisaligned (rule : Alignment) (types : List Char) (rows : List Text) : Prop :=
  rows ≠ [] ∧ ∃ column : Fin types.length, types[column] ∉ rule.alignedTypes ∧
    (numbersIn rows column).toFloat / rows.length.toFloat > rule.threshold

instance (rule : Alignment) (types : List Char) (rows : List Text) :
    Decidable (rule.IsMisaligned types rows) :=
  inferInstanceAs (Decidable (_ ∧ _))

/-- The beginning of a table up to its column specification. -/
def opening : Text := "\\begin\x7btabular\x7d\x7b".toList

def closing : Text := "\\end\x7btabular\x7d".toList

/-- What is found in a table that is opened on line `first`, after the text `before` and with the
column specification `source`, and that has the lines `body`. -/
def tableFindings (rule : Alignment) (place : Nat → Nat → Nat → Range) (first : Nat)
    (before source : Text) (body : List Text) : List Finding :=
  let spec := ColumnSpec.read source
  let start := (before ++ opening).width
  ((body.zipIdx (first + 1)).filterMap fun (line, n) => bodyFinding? (place n) spec.columns line)
    ++ if rule.IsMisaligned spec.types (tableRows spec.columns body) then
      [⟨place first start (start + source.width), alignMessage⟩] else []

/-! ## The opening line, a line of the body, the closing line -/

variable (rule : Alignment) (place : Nat → Nat → Range)

theorem cut_tableBegin_opening {before : Text} (hbefore : before.occurs .tableBegin = false)
    (t : Text) : Text.cut .tableBegin (before ++ (opening ++ t)) = some (before, '{' :: t) := by
  have here : Text.cut .tableBegin (opening ++ t) = some ([], '{' :: t) := rfl
  have cut := Text.cut_append (u := "begin\x7btabular\x7d\x7b".toList ++ t)
    (fun d v => Recogniser.tableBegin_append d v _) (Text.occurs_eq_false.mp hbefore)
  show Text.cut .tableBegin (before ++ '\\' :: ("begin\x7btabular\x7d\x7b".toList ++ t)) = _
  rw [cut]
  show (Text.cut .tableBegin (opening ++ t)).map _ = _
  rw [here]
  simp

theorem readLine_opening {tally : TableTally} (hidle : tally.isOpen = false) {before source : Text}
    (hbefore : before.occurs .tableBegin = false)
    (hsource : (ColumnSpec.read (source ++ ['}'])).size = source.width) :
    rule.readLine place tally (before ++ opening ++ source ++ ['}']) =
      (.opened (ColumnSpec.read source)
          (place (before ++ opening).width ((before ++ opening).width + source.width)),
        [.entered (ColumnSpec.read source).types]) := by
  have found := cut_tableBegin_opening hbefore (source ++ ['}'])
  have spec := ColumnSpec.read_append_brace hsource
  have start : Text.columnOf (before ++ (opening ++ (source ++ ['}']))) (source ++ ['}']) =
      (before ++ opening).width := by
    rw [← List.append_assoc]
    exact Text.columnOf_append _ _
  have enters : Recogniser.specOpening ('{' :: (source ++ ['}'])) = some (source ++ ['}']) := rfl
  rw [List.append_assoc, List.append_assoc, readLine, if_neg (by simp [hidle]), readOutside, found]
  show rule.enterTable place _ ('{' :: (source ++ ['}'])) tally = _
  rw [enterTable, enters]
  show Reading.andThen (.opened (ColumnSpec.read (source ++ ['}'])) _, _) _ = _
  rw [spec, start]
  rfl

theorem readLine_body {tally : TableTally} (hopen : tally.isOpen = true) {line : Text}
    (hbegin : line.occurs .tableBegin = false) (hend : line.occurs .tableEnd = false) :
    rule.readLine place tally line = readRow place 0 line tally := by
  rw [Text.occurs_eq_false] at hbegin hend
  simp [readLine, hopen, closingRow?, hend, hbegin]

theorem readLine_closing {tally : TableTally} (hopen : tally.isOpen = true) :
    rule.readLine place tally closing =
      (.idle, [.left tally.rows (rule.needsAlignment tally) tally.anchor]) := by
  rw [readLine, if_pos hopen]
  rfl

/-! ## The body -/

theorem readLines_append (place : Nat → Nat → Nat → Range) (first : Nat) (tally : TableTally)
    (lines later : List Text) :
    rule.readLines place first tally (lines ++ later) =
      ((rule.readLines place (first + lines.length)
          (rule.readLines place first tally lines).1 later).1,
        (rule.readLines place first tally lines).2 ++
          (rule.readLines place (first + lines.length)
            (rule.readLines place first tally lines).1 later).2) := by
  induction lines generalizing first tally with
  | nil => rfl
  | cons line rest ih =>
      rw [List.cons_append, readLines, ih, readLines, List.length_cons, Nat.add_assoc,
        Nat.add_comm 1]
      rfl

/-- The tally of a table after the rows that are accounted for. -/
def tallyOfRows (spec : ColumnSpec) (anchor : Range) (rows : List Text) : TableTally where
  isOpen := true
  columns := spec.columns
  numbers := (List.range spec.columns).map (numbersIn rows)
  rows := rows.length
  types := spec.types
  anchor := anchor

theorem tallyOfRows_nil (spec : ColumnSpec) (anchor : Range) :
    tallyOfRows spec anchor [] = .opened spec anchor := by
  have zeros : (List.range spec.columns).map (numbersIn []) = List.replicate spec.columns 0 := by
    rw [List.eq_replicate_iff]
    simp [numbersIn]
  rw [tallyOfRows, zeros]
  rfl

theorem numbersIn_concat (rows : List Text) (row : Text) (column : Nat) :
    numbersIn (rows ++ [row]) column =
      if row.rowContent.cells[column]?.any Text.isNumericCell then numbersIn rows column + 1
      else numbersIn rows column := by
  rw [numbersIn, List.countP_append, List.countP_singleton]
  split <;> rfl

theorem addRow_tallyOfRows (spec : ColumnSpec) (anchor : Range) (rows : List Text) (row : Text) :
    (tallyOfRows spec anchor rows).addRow row.rowContent.cells =
      tallyOfRows spec anchor (rows ++ [row]) := by
  have counts : ((List.range spec.columns).map (numbersIn rows)).mapIdx (fun column count =>
        if row.rowContent.cells[column]?.any Text.isNumericCell then count + 1 else count) =
      (List.range spec.columns).map (numbersIn (rows ++ [row])) := by
    refine List.ext_getElem (by simp) ?_
    intro column h₁ h₂
    simp [numbersIn_concat]
  rw [TableTally.addRow, tallyOfRows, tallyOfRows, counts, List.length_append]
  rfl

/-- What a line without delimiters comes to in any table: whether it is accounted for, and what is
found in it, are seen from the line and the number of columns. -/
theorem readRow_line (place : Nat → Nat → Range) (line : Text) (tally : TableTally) :
    (readRow place 0 line tally).1 =
        (if isTableRow tally.columns line then tally.addRow line.rowContent.cells else tally) ∧
      (readRow place 0 line tally).2.filterMap Event.finding? =
        (bodyFinding? place tally.columns line).toList := by
  have reading := rowReading_readRow place 0 line tally
  generalize readRow place 0 line tally = outcome at reading
  cases reading with
  | none count => simp [isTableRow, bodyFinding?, count]
  | several count =>
      have : line.terminators ≠ 1 := by omega
      simp [isTableRow, bodyFinding?, count, this, Event.finding?]
  | spanning count spans => simp [isTableRow, bodyFinding?, count, spans, Event.finding?]
  | counted count spans cells => simp [isTableRow, bodyFinding?, count, spans, cells]
  | wrong count spans cells =>
      simp [isTableRow, bodyFinding?, count, spans, cells, Event.finding?]

/-- One line of the body: the tally stays that of the rows read so far, and what is found is what
there is to find in the line by itself. -/
theorem readRow_tallyOfRows (spec : ColumnSpec) (anchor : Range) (rows : List Text)
    (line : Text) :
    (readRow place 0 line (tallyOfRows spec anchor rows)).1 =
        tallyOfRows spec anchor (rows ++ tableRows spec.columns [line]) ∧
      (readRow place 0 line (tallyOfRows spec anchor rows)).2.filterMap Event.finding? =
        (bodyFinding? place spec.columns line).toList := by
  have columns : (tallyOfRows spec anchor rows).columns = spec.columns := rfl
  obtain ⟨tally, found⟩ := readRow_line place line (tallyOfRows spec anchor rows)
  rw [columns] at tally found
  refine ⟨?_, found⟩
  rw [tally]
  cases hrow : isTableRow spec.columns line <;> simp [tableRows, hrow, addRow_tallyOfRows]

theorem readLines_body (place : Nat → Nat → Nat → Range) (first : Nat) (spec : ColumnSpec)
    (anchor : Range) (rows : List Text) {body : List Text}
    (hbody : ∀ line ∈ body, line.occurs .tableBegin = false ∧ line.occurs .tableEnd = false) :
    (rule.readLines place first (tallyOfRows spec anchor rows) body).1 =
        tallyOfRows spec anchor (rows ++ tableRows spec.columns body) ∧
      (rule.readLines place first (tallyOfRows spec anchor rows) body).2.flatten.filterMap
          Event.finding? =
        (body.zipIdx first).filterMap fun (line, n) =>
          bodyFinding? (place n) spec.columns line := by
  induction body generalizing first rows with
  | nil => simp [readLines, tableRows]
  | cons line rest ih =>
      obtain ⟨hbegin, hend⟩ := hbody line List.mem_cons_self
      have hopen : (tallyOfRows spec anchor rows).isOpen = true := rfl
      have step := rule.readLine_body (place first) hopen hbegin hend
      obtain ⟨tally, found⟩ := readRow_tallyOfRows (place first) spec anchor rows line
      obtain ⟨last, later⟩ := ih (first + 1) (rows ++ tableRows spec.columns [line])
        fun l hl => hbody l (List.mem_cons_of_mem _ hl)
      have more : rows ++ tableRows spec.columns [line] ++ tableRows spec.columns rest =
          rows ++ tableRows spec.columns (line :: rest) := by
        rw [List.append_assoc, tableRows, tableRows, tableRows, ← List.filter_append]
        rfl
      rw [readLines, step, tally]
      dsimp only
      rw [last, more, List.flatten_cons, List.filterMap_append, found, later, List.zipIdx_cons,
        List.filterMap_cons]
      refine ⟨rfl, ?_⟩
      cases bodyFinding? (place first) spec.columns line <;> rfl

/-! ## The verdict -/

theorem numberShare?_tallyOfRows {spec : ColumnSpec} {column : Nat} (h : column < spec.columns)
    (anchor : Range) (rows : List Text) :
    (tallyOfRows spec anchor rows).numberShare? column =
      if rows = [] then none
      else some ((numbersIn rows column).toFloat / rows.length.toFloat) := by
  have counted : ((List.range spec.columns).map (numbersIn rows))[column]? =
      some (numbersIn rows column) := by
    simp [h]
  simp only [TableTally.numberShare?, tallyOfRows, List.length_eq_zero_iff, counted,
    Option.map_some]

theorem needsAlignment_tallyOfRows (spec : ColumnSpec) (anchor : Range) (rows : List Text) :
    rule.needsAlignment (tallyOfRows spec anchor rows) =
      decide (rule.IsMisaligned spec.types rows) := by
  rw [Bool.eq_iff_iff, decide_eq_true_iff]
  constructor
  · intro h
    obtain ⟨⟨type, column⟩, hmem, hcolumn⟩ := List.any_eq_true.mp h
    obtain ⟨hlt, rfl⟩ := List.getElem?_eq_some_iff.mp (List.mk_mem_zipIdx_iff_getElem?.mp hmem)
    obtain ⟨hshare, haligned⟩ := Bool.and_eq_true_iff.mp hcolumn
    rw [numberShare?_tallyOfRows (spec.length_types ▸ hlt)] at hshare
    by_cases hrows : rows = []
    · simp [hrows] at hshare
    · refine ⟨hrows, ⟨column, hlt⟩, ?_, by simpa [hrows] using hshare⟩
      intro hin
      have unaligned := (Bool.not_eq_true' _).mp haligned
      exact Bool.false_ne_true (unaligned.symm.trans (List.contains_iff_mem.mpr hin))
  · rintro ⟨hrows, ⟨column, hlt⟩, haligned, hshare⟩
    have hmem : (spec.types[column], column) ∈ spec.types.zipIdx :=
      List.mk_mem_zipIdx_iff_getElem?.mpr (List.getElem?_eq_getElem hlt)
    refine List.any_eq_true.mpr ⟨_, hmem, Bool.and_eq_true_iff.mpr ⟨?_, by simpa using haligned⟩⟩
    rw [numberShare?_tallyOfRows (spec.length_types ▸ hlt), if_neg hrows]
    simpa using hshare

/-! ## The whole table -/

/-- What happens in a table: it is entered, its body is read, and it is left with the verdict on the
rows of the body. -/
theorem readLines_table (place : Nat → Nat → Nat → Range) (first : Nat) {tally : TableTally}
    (hidle : tally.isOpen = false) {before source : Text} {body : List Text}
    (hbefore : before.occurs .tableBegin = false)
    (hsource : (ColumnSpec.read (source ++ ['}'])).size = source.width)
    (hbody : ∀ line ∈ body, line.occurs .tableBegin = false ∧ line.occurs .tableEnd = false) :
    let spec := ColumnSpec.read source
    let start := (before ++ opening).width
    let anchor := place first start (start + source.width)
    let rows := tableRows spec.columns body
    rule.readLines place first tally
        ((before ++ opening ++ source ++ ['}']) :: (body ++ [closing])) =
      (.idle, [.entered spec.types] ::
        ((rule.readLines place (first + 1) (tallyOfRows spec anchor []) body).2 ++
          [[.left rows.length (decide (rule.IsMisaligned spec.types rows)) anchor]])) := by
  intro spec start anchor rows
  have opened := rule.readLine_opening (place first) hidle hbefore hsource
  rw [← tallyOfRows_nil] at opened
  have tallyAfter := (rule.readLines_body place (first + 1) spec anchor [] hbody).1
  have hopen : (tallyOfRows spec anchor rows).isOpen = true := rfl
  have closed := rule.readLine_closing (place (first + 1 + body.length)) hopen
  rw [needsAlignment_tallyOfRows] at closed
  rw [readLines, opened]
  dsimp only
  rw [readLines_append, tallyAfter, List.nil_append, readLines, closed]
  rfl

/-- Reading a table adds what there is to find in its body, line by line, and then the report of
the table if it is misaligned, and nothing else; after it no table is open. -/
theorem processLines_table (doc : Document) (first : Nat) {tally : TableTally}
    (hidle : tally.isOpen = false) {before source : Text} {body : List Text}
    (hbefore : before.occurs .tableBegin = false)
    (hsource : (ColumnSpec.read (source ++ ['}'])).size = source.width)
    (hbody : ∀ line ∈ body, line.occurs .tableBegin = false ∧ line.occurs .tableEnd = false) :
    rule.processLines doc first tally
        ((before ++ opening ++ source ++ ['}']) :: (body ++ [closing])) =
      (.idle, doc.advisories ruleId
        (rule.tableFindings doc.originalRange first before source body)) := by
  have outcome := rule.readLines_table doc.originalRange first hidle hbefore hsource hbody
  have found := fun anchor => (rule.readLines_body doc.originalRange (first + 1)
    (ColumnSpec.read source) anchor [] hbody).2
  have verdict : ∀ (rows : List Text) (anchor : Range), [Event.left rows.length
      (decide (rule.IsMisaligned (ColumnSpec.read source).types rows)) anchor].filterMap
        Event.finding? =
      if rule.IsMisaligned (ColumnSpec.read source).types rows then
        [⟨anchor, alignMessage⟩] else [] := by
    intro rows anchor
    by_cases h : rule.IsMisaligned (ColumnSpec.read source).types rows
    · simp [Event.finding?, h]
    · simp [Event.finding?, h]
  rw [processLines, outcome]
  show (TableTally.idle, doc.advisories ruleId (List.filterMap Event.finding? _)) = _
  rw [List.flatten_cons, List.flatten_append, List.filterMap_append, List.filterMap_append, found,
    List.flatten_singleton, verdict]
  rfl

/-- A table of two columns with a line of two rows, a row, and a row with one cell too many. -/
theorem processLines_two_columns :
    let rule : Alignment := ⟨0.5, ['S']⟩
    let doc := Document.plain "t.tex".toList []
    let body : List Text :=
      ["1 & 2 \\\\ 3 & 4 \\\\".toList, "1 & 2 \\\\".toList, "1 & 2 & 3\\\\".toList]
    (TableTally.idle.isOpen = false ∧ Text.occurs .tableBegin "x ".toList = false ∧
      (ColumnSpec.read ("SS".toList ++ ['}'])).size = Text.width "SS".toList ∧
      ∀ line ∈ body, line.occurs .tableBegin = false ∧ line.occurs .tableEnd = false) ∧
    rule.processLines doc 0 .idle
        (("x ".toList ++ opening ++ "SS".toList ++ ['}']) :: (body ++ [closing])) =
      (.idle, doc.advisories ruleId
        [⟨⟨⟨1, 6⟩, ⟨1, 8⟩⟩, severalRowsMessage⟩, ⟨⟨⟨3, 0⟩, ⟨3, 9⟩⟩, cellCountMessage⟩]) := by
  intro rule doc body
  have hbefore : Text.occurs .tableBegin "x ".toList = false := by decide
  have hsource : (ColumnSpec.read ("SS".toList ++ ['}'])).size = Text.width "SS".toList := by
    decide +kernel
  have hbody : ∀ line ∈ body, line.occurs .tableBegin = false ∧ line.occurs .tableEnd = false := by
    decide
  have found : rule.tableFindings doc.originalRange 0 "x ".toList "SS".toList body =
      [⟨⟨⟨1, 6⟩, ⟨1, 8⟩⟩, severalRowsMessage⟩, ⟨⟨⟨3, 0⟩, ⟨3, 9⟩⟩, cellCountMessage⟩] := by
    decide +kernel
  refine ⟨⟨rfl, hbefore, hsource, hbody⟩, ?_⟩
  rw [← found]
  exact rule.processLines_table doc 0 rfl hbefore hsource hbody

end Alignment

end NumeralLint
