/-
Reports on tables come in the order of the document.

In one line a row of the open table can be reported, and then a row of a table
that begins in the line; `RowsIn` keeps the columns of these two apart.  The
range at which a table is reported waits in the tally from the line in which
the table begins to the line in which it ends, and other reports come between.
So what is reported at the ends of tables is compared with the tables that
begin in the lines (`openedTables`), of each of which the lines say what
becomes of it: what waits at a line is due at the end of the open table, if the
lines to come have it (`waiting`), and a line that gives up the table leaves
nothing due (`Reading.Accounts`).
-/
import NumeralLint.Proofs.SourceMap
import NumeralLint.Proofs.Table.Delimiters
import NumeralLint.Proofs.Table.Reading

namespace NumeralLint

namespace Alignment

/-! ## Tables in the lines -/

/-- What becomes of a table that has begun. -/
inductive TableEnding where
  /-- Its end comes before the beginning of another table. -/
  | closed
  /-- The beginning of another table comes first. -/
  | discarded
  /-- Neither comes. -/
  | unclosed
deriving DecidableEq

/-- What becomes, in the lines that follow, of a table that is open at the end of a line. -/
def endingIn : List Text → TableEnding
  | [] => .unclosed
  | line :: rest =>
      if (closingRow? line).isSome then .closed
      else if line.occurs .tableBegin then .discarded
      else endingIn rest

/-- What becomes of a table in which the line goes on with `t`. -/
def endingAfter (t : Text) (later : List Text) : TableEnding :=
  if t.occurs .tableEnd then .closed else endingIn later

/-- A table that begins in one of the lines. -/
structure OpenedTable where
  /-- The range of the column specification. -/
  anchor : Range
  types : List Char
  ending : TableEnding
deriving DecidableEq

/-- The table that begins with the part `t` of the line, if it has a column specification there; the
lines `later` follow. -/
def openedBy? (place : Nat → Nat → Range) (line t : Text) (later : List Text) :
    Option OpenedTable :=
  (Recogniser.specOpening t).map fun inner =>
    let spec := ColumnSpec.read inner
    { anchor := place (line.columnOf inner) (line.columnOf inner + spec.size)
      types := spec.types
      ending := endingAfter (spec.rest.drop 1) later }

/-- The table that begins in the line. -/
def openedIn? (place : Nat → Nat → Range) (line : Text) (later : List Text) : Option OpenedTable :=
  (line.cut .tableBegin).bind fun found => openedBy? place line found.2 later

/-- The tables that begin in lines of which the first has the number `first`. -/
def openedTables (place : Nat → Nat → Nat → Range) (first : Nat) : List Text → List OpenedTable
  | [] => []
  | line :: rest =>
      (openedIn? (place first) line rest).toList ++ openedTables place (first + 1) rest

/-- The anchors of the tables that are closed. -/
def closedAnchors (tables : List OpenedTable) : List Range :=
  (tables.filter fun table => table.ending = .closed).map OpenedTable.anchor

/-- What is due of a table at its end. -/
def dueOf (anchor : Range) (ending : TableEnding) : List Range :=
  if ending = .closed then [anchor] else []

theorem closedAnchors_singleton (table : OpenedTable) :
    closedAnchors [table] = dueOf table.anchor table.ending := by
  by_cases h : table.ending = .closed <;> simp [closedAnchors, dueOf, h]

theorem closedAnchors_append (tables tables' : List OpenedTable) :
    closedAnchors (tables ++ tables') = closedAnchors tables ++ closedAnchors tables' := by
  rw [closedAnchors, List.filter_append, List.map_append]
  rfl

theorem closedAnchors_sublist (tables : List OpenedTable) :
    (closedAnchors tables).Sublist (tables.map OpenedTable.anchor) :=
  List.filter_sublist.map _

/-- In each line begins one table at most, which stands in the line. -/
theorem pairwise_anchor_openedTables (first : Nat) (lines : List Text) :
    ((openedTables Range.ofLine first lines).map OpenedTable.anchor).Pairwise Range.StartsBefore ∧
      ∀ table ∈ openedTables Range.ofLine first lines, first ≤ table.anchor.start.line := by
  induction lines generalizing first with
  | nil => exact ⟨List.Pairwise.nil, fun _ h => absurd h List.not_mem_nil⟩
  | cons line rest ih =>
      obtain ⟨ordered, below⟩ := ih (first + 1)
      have here : ∀ table ∈ openedIn? (Range.ofLine first) line rest,
          table.anchor.start.line = first := by
        intro table htable
        obtain ⟨found, -, hfound⟩ := Option.bind_eq_some_iff.mp htable
        obtain ⟨inner, -, rfl⟩ := Option.map_eq_some_iff.mp hfound
        rfl
      constructor
      · rw [openedTables, List.map_append, List.pairwise_append]
        refine ⟨?_, ordered, ?_⟩
        · cases openedIn? (Range.ofLine first) line rest <;> simp
        · intro r hr r' hr'
          obtain ⟨table, htable, rfl⟩ := List.mem_map.mp hr
          obtain ⟨table', htable', rfl⟩ := List.mem_map.mp hr'
          have start := here table (Option.mem_toList.mp htable)
          have start' := below table' htable'
          exact Or.inl (by omega)
      · intro table htable
        rcases List.mem_append.mp htable with htable | htable
        · exact Nat.le_of_eq (here table (Option.mem_toList.mp htable)).symm
        · exact Nat.le_of_succ_le (below table htable)

example :
    (openedTables Range.ofLine 0
      ["\\begin\x7btabular\x7d\x7bc\x7d 1\\\\ \\end\x7btabular\x7d".toList,
        "\\begin\x7btabular\x7d\x7bS\x7d".toList, "2".toList,
        "\\begin\x7btabular\x7d\x7bl\x7d".toList]).map OpenedTable.ending =
      [.closed, .discarded, .unclosed] := by
  decide +kernel

/-! ## Reports at the ends of tables -/

namespace Event

/-- The range at which a table is or is not reported when it is left. -/
def anchor? : Event → Option Range
  | left _ _ anchor => some anchor
  | _ => none

/-- The column types of a table that is entered. -/
def types? : Event → Option (List Char)
  | entered types => some types
  | _ => none

/-- The range of a row that is reported. -/
def row? : Event → Option Range
  | severalRows range => some range
  | wrongCellCount range _ _ => some range
  | _ => none

end Event

/-- What is due of the open table, if there is one and the lines that follow close it. -/
def waiting (tally : TableTally) (later : List Text) : List Range :=
  if tally.isOpen then dueOf tally.anchor (endingIn later) else []

theorem waiting_of_open {tally : TableTally} (h : tally.isOpen = true) (later : List Text) :
    waiting tally later = dueOf tally.anchor (endingIn later) :=
  if_pos h

theorem waiting_of_closed {tally : TableTally} (h : tally.isOpen = false) (later : List Text) :
    waiting tally later = [] :=
  if_neg (by simp [h])

/-- A reading accounts for what was due before it and for the tables that begin in it: it leaves
those that are closed, or they wait in the tally to be closed by the lines `later`. -/
structure Reading.Accounts (later : List Text) (due : List Range) (tables : List OpenedTable)
    (reading : Reading) : Prop where
  anchors : reading.2.filterMap Event.anchor? ++ waiting reading.1 later =
    due ++ closedAnchors tables
  types : reading.2.filterMap Event.types? = tables.map OpenedTable.types

section Line

variable {later : List Text} {due : List Range} {tables : List OpenedTable}

/-- A reading in which nothing is left or entered. -/
theorem Reading.Accounts.quiet (tally : TableTally) (later : List Text) {events : List Event}
    (hanchor : events.filterMap Event.anchor? = []) (htypes : events.filterMap Event.types? = []) :
    Reading.Accounts later (waiting tally later) [] (tally, events) := by
  refine ⟨?_, htypes⟩
  rw [hanchor]
  exact (List.append_nil _).symm

/-- Outside every table, the same reading accounts for nothing. -/
theorem Reading.Accounts.idle {tally : TableTally} (hclosed : tally.isOpen = false)
    (later : List Text) {events : List Event} (hanchor : events.filterMap Event.anchor? = [])
    (htypes : events.filterMap Event.types? = []) :
    Reading.Accounts later [] [] (tally, events) := by
  have quiet := Reading.Accounts.quiet tally later hanchor htypes
  rwa [waiting_of_closed hclosed] at quiet

/-- After a reading that leaves no table open, another one goes on. -/
theorem Reading.Accounts.andThen {reading : Reading} {next : TableTally → Reading}
    (h : reading.Accounts later due []) (hclosed : reading.1.isOpen = false)
    (hnext : (next reading.1).Accounts later [] tables) :
    (reading.andThen next).Accounts later due tables := by
  have before := h.anchors
  rw [waiting_of_closed hclosed, List.append_nil] at before
  refine ⟨?_, ?_⟩
  · rw [Reading.andThen, List.filterMap_append, List.append_assoc, hnext.anchors, before]
    simp [closedAnchors]
  · rw [Reading.andThen, List.filterMap_append, h.types, hnext.types]
    rfl

/-- A table is entered, and read on to be left or to wait. -/
theorem Reading.Accounts.entered {anchor : Range} {types : List Char} {ending : TableEnding}
    {reading : Reading} (h : reading.Accounts later (dueOf anchor ending) []) :
    Reading.Accounts later [] [⟨anchor, types, ending⟩]
      (reading.1, .entered types :: reading.2) := by
  constructor
  · rw [closedAnchors_singleton]
    exact h.anchors.trans (List.append_nil _)
  · exact congrArg (types :: ·) h.types

variable (rule : Alignment) (place : Nat → Nat → Range) (later)

/-- A row changes nothing about the table but its counts. -/
theorem accounts_readRow (column : Nat) (segment : Text) (tally : TableTally) :
    (readRow place column segment tally).1.anchor = tally.anchor ∧
      (readRow place column segment tally).Accounts later (waiting tally later) [] := by
  have reading := rowReading_readRow place column segment tally
  generalize readRow place column segment tally = outcome at reading
  cases reading with
  | none | several | spanning | wrong => exact ⟨rfl, .quiet tally later rfl rfl⟩
  | counted =>
      exact ⟨rfl, .quiet (tally.addRow segment.rowContent.cells) later rfl rfl⟩

theorem accounts_readRow_leaveTable (column : Nat) (segment : Text) (tally : TableTally) :
    ((readRow place column segment tally).andThen rule.leaveTable).Accounts later
      [tally.anchor] [] := by
  obtain ⟨anchor, row⟩ := accounts_readRow [] place column segment tally
  have anchors := row.anchors
  have none : ∀ tally, waiting tally [] = [] := by
    intro tally
    rw [waiting]
    split <;> rfl
  rw [none, none, List.append_nil] at anchors
  constructor
  · rw [Reading.andThen, List.filterMap_append, anchors, waiting_of_closed rfl, List.append_nil]
    show [(readRow place column segment tally).1.anchor] = [tally.anchor]
    rw [anchor]
  · rw [Reading.andThen, List.filterMap_append, row.types]
    rfl

theorem accounts_readInside (column : Nat) (t : Text) (tally : TableTally)
    (hopen : tally.isOpen = true) :
    (rule.readInside place column t tally).Accounts later
      (dueOf tally.anchor (endingAfter t later)) [] := by
  rw [readInside, endingAfter, Text.occurs]
  cases t.cut .tableEnd with
  | none =>
      have row := (accounts_readRow later place column t tally).2
      rw [waiting_of_open hopen] at row
      exact row
  | some found => exact rule.accounts_readRow_leaveTable later place column found.1 tally

theorem accounts_enterTable (line t : Text) {tally : TableTally} (hclosed : tally.isOpen = false) :
    (rule.enterTable place line t tally).Accounts later []
      (openedBy? place line t later).toList := by
  rw [enterTable, openedBy?]
  cases Recogniser.specOpening t with
  | none => exact .idle hclosed later rfl rfl
  | some inner =>
      rw [Option.map_some, Option.toList_some]
      exact (rule.accounts_readInside later place _ _ (.opened _ _) rfl).entered

theorem accounts_readOutside (line t : Text) {tally : TableTally}
    (hclosed : tally.isOpen = false) :
    (rule.readOutside place line t tally).Accounts later []
      ((t.cut .tableBegin).bind fun found => openedBy? place line found.2 later).toList := by
  rw [readOutside]
  cases t.cut .tableBegin with
  | none => exact .idle hclosed later rfl rfl
  | some found => exact rule.accounts_enterTable later place line found.2 hclosed

/-- A line accounts for what waits at it and for the table that begins in it. -/
theorem accounts_readLine (tally : TableTally) (line : Text) :
    (rule.readLine place tally line).Accounts later (waiting tally (line :: later))
      (openedIn? place line later).toList := by
  cases hopen : tally.isOpen with
  | false =>
      rw [readLine, if_neg (by simp [hopen]), waiting_of_closed hopen]
      exact rule.accounts_readOutside later place line line hopen
  | true =>
      rw [readLine, if_pos hopen, waiting_of_open hopen, endingIn]
      cases hclosing : closingRow? line with
      | some found =>
          obtain ⟨row, rest⟩ := found
          obtain ⟨hcut, hrow⟩ := Option.filter_eq_some_iff.mp hclosing
          obtain ⟨w, -, hbegin⟩ := Text.cut_tableBegin_of_cut_tableEnd hcut (by simpa using hrow)
          rw [openedIn?, hbegin, Option.bind_map]
          exact (rule.accounts_readRow_leaveTable later place 0 row tally).andThen rfl
            (rule.accounts_readOutside later place line rest rfl)
      | none =>
          rw [openedIn?, Text.occurs]
          cases line.cut .tableBegin with
          | none =>
              have row := (accounts_readRow later place 0 line tally).2
              rw [waiting_of_open hopen] at row
              exact row
          | some found =>
              have givenUp : Reading.Accounts later [] [] (.idle, [.nested]) :=
                .idle rfl later rfl rfl
              exact givenUp.andThen rfl (rule.accounts_enterTable later place line found.2 rfl)

end Line

/-- From a tally on, the lines account for what waits at them and for the tables that begin in
them. -/
theorem accounts_readLines (rule : Alignment) (place : Nat → Nat → Nat → Range) (first : Nat)
    (tally : TableTally) (lines : List Text) :
    let events := (rule.readLines place first tally lines).2.flatten
    let tables := openedTables place first lines
    events.filterMap Event.anchor? = waiting tally lines ++ closedAnchors tables ∧
      events.filterMap Event.types? = tables.map OpenedTable.types := by
  induction lines generalizing first tally with
  | nil =>
      refine ⟨?_, rfl⟩
      rw [waiting]
      split <;> rfl
  | cons line rest ih =>
      have step := rule.accounts_readLine rest (place first) tally line
      obtain ⟨anchors, types⟩ := ih (first + 1) (rule.readLine (place first) tally line).1
      constructor
      · rw [readLines, openedTables, List.flatten_cons, List.filterMap_append, anchors,
          ← List.append_assoc, step.anchors, closedAnchors_append, List.append_assoc]
      · rw [readLines, openedTables, List.flatten_cons, List.filterMap_append, types, step.types,
          List.map_append]

/-! ## Reports on rows -/

/-- Of the row reports among the events of line `n`, each starts before the next one, and all start
between two columns. -/
structure RowsIn (n first last : Nat) (events : List Event) : Prop where
  ordered : (events.filterMap Event.row?).Pairwise Range.StartsBefore
  inside : ∀ r ∈ events.filterMap Event.row?,
    r.start.line = n ∧ first ≤ r.start.column ∧ r.start.column ≤ last

namespace RowsIn

variable {n first last first' last' : Nat} {events events' : List Event}

theorem quiet (h : events.filterMap Event.row? = []) : RowsIn n first last events :=
  ⟨by rw [h]; exact List.Pairwise.nil, by simp [h]⟩

theorem single {event : Event} {range : Range} (h : event.row? = some range)
    (hline : range.start.line = n) (hfirst : first ≤ range.start.column)
    (hlast : range.start.column ≤ last) : RowsIn n first last [event] := by
  have one : [event].filterMap Event.row? = [range] := by
    rw [List.filterMap_cons_some h, List.filterMap_nil]
  refine ⟨by rw [one]; exact List.pairwise_singleton _ _, ?_⟩
  rw [one]
  simpa using ⟨hline, hfirst, hlast⟩

theorem entered {types : List Char} (h : RowsIn n first last events) :
    RowsIn n first last (.entered types :: events) := ⟨h.ordered, h.inside⟩

theorem nested (h : RowsIn n first last events) : RowsIn n first last (.nested :: events) :=
  ⟨h.ordered, h.inside⟩

theorem mono (h : RowsIn n first last events) (hfirst : first' ≤ first) (hlast : last ≤ last') :
    RowsIn n first' last' events := by
  refine ⟨h.ordered, fun r hr => ?_⟩
  obtain ⟨line, low, high⟩ := h.inside r hr
  exact ⟨line, Nat.le_trans hfirst low, Nat.le_trans high hlast⟩

theorem append {middle middle' : Nat} (h : RowsIn n first middle events)
    (h' : RowsIn n middle' last events') (hlt : middle < middle') (hfirst : first ≤ middle')
    (hlast : middle ≤ last) : RowsIn n first last (events ++ events') := by
  constructor
  · rw [List.filterMap_append, List.pairwise_append]
    refine ⟨h.ordered, h'.ordered, fun r hr r' hr' => ?_⟩
    obtain ⟨line, -, high⟩ := h.inside r hr
    obtain ⟨line', low', -⟩ := h'.inside r' hr'
    exact Or.inr ⟨line.trans line'.symm, by omega⟩
  · rw [List.filterMap_append]
    exact List.forall_mem_append.mpr
      ⟨(h.mono (Nat.le_refl first) hlast).inside, (h'.mono hfirst (Nat.le_refl last)).inside⟩

end RowsIn

section Line

variable (rule : Alignment) {n : Nat} {tally : TableTally}

theorem rowsIn_readRow (n column : Nat) (segment : Text) (tally : TableTally) :
    RowsIn n column (column + segment.width) (readRow (Range.ofLine n) column segment tally).2 := by
  have reading := rowReading_readRow (Range.ofLine n) column segment tally
  generalize readRow (Range.ofLine n) column segment tally = outcome at reading
  cases reading with
  | none | counted | spanning => exact .quiet rfl
  | several count =>
      obtain ⟨rest, whole, -⟩ := Text.eq_rowContent_append (t := segment) (by omega)
      have size := congrArg Text.width whole
      rw [Text.width_append] at size
      refine .single rfl rfl (Nat.le_add_right _ _) ?_
      show column + segment.rowContent.width ≤ _
      omega
  | wrong => exact .single rfl rfl (Nat.le_refl _) (Nat.le_add_right _ _)

theorem rowsIn_leaving (column : Nat) (segment : Text) {last : Nat}
    (hlast : column + segment.width ≤ last) :
    RowsIn n column last
      ((readRow (Range.ofLine n) column segment tally).andThen rule.leaveTable).2 := by
  have row := (rowsIn_readRow n column segment tally).mono (Nat.le_refl _) hlast
  have same : ((readRow (Range.ofLine n) column segment tally).andThen rule.leaveTable).2.filterMap
      Event.row? = (readRow (Range.ofLine n) column segment tally).2.filterMap Event.row? := by
    rw [Reading.andThen, List.filterMap_append]
    exact List.append_nil _
  exact ⟨same ▸ row.ordered, same ▸ row.inside⟩

theorem rowsIn_readInside (column : Nat) (t : Text) :
    RowsIn n column (column + t.width) (rule.readInside (Range.ofLine n) column t tally).2 := by
  rw [readInside]
  split
  · exact rowsIn_readRow n column t tally
  · next row rest hcut =>
      obtain ⟨piece, whole, -⟩ := Text.cut_reads Recogniser.reads_tableEnd hcut
      have size : t.width = row.width + piece.width + rest.width := by
        rw [whole, Text.width_append, Text.width_append]
      exact rowsIn_leaving rule column row (by omega)

variable {line front t : Text}

theorem rowsIn_enterTable (hfront : line = front ++ t) :
    RowsIn n front.width line.width (rule.enterTable (Range.ofLine n) line t tally).2 := by
  rw [enterTable]
  split
  · exact .quiet rfl
  · next inner hinner =>
      obtain ⟨middle, ht⟩ := Recogniser.exists_specOpening hinner
      have whole := ColumnSpec.source_append_rest inner
      generalize ColumnSpec.read inner = spec at whole
      have inside : spec.rest.drop 1 <:+ t := by
        rw [ht, ← whole]
        exact (((List.drop_suffix 1 _).trans (List.suffix_append _ _)).trans
          (List.suffix_cons _ _)).trans (List.suffix_append _ _)
      obtain ⟨u, hu⟩ := inside
      have parts : line = front ++ u ++ spec.rest.drop 1 := by
        rw [hfront, ← hu, List.append_assoc]
      have column : line.columnOf (spec.rest.drop 1) = (front ++ u).width := by
        rw [parts]
        exact Text.columnOf_append _ _
      have size : line.width =
          line.columnOf (spec.rest.drop 1) + Text.width (spec.rest.drop 1) := by
        rw [column, ← Text.width_append, ← parts]
      have low : front.width ≤ line.columnOf (spec.rest.drop 1) := by
        rw [column, Text.width_append]
        omega
      exact .entered ((rule.rowsIn_readInside _ _).mono low (Nat.le_of_eq size.symm))

theorem rowsIn_readOutside (hfront : line = front ++ t) :
    RowsIn n front.width line.width (rule.readOutside (Range.ofLine n) line t tally).2 := by
  rw [readOutside]
  split
  · exact .quiet rfl
  · next before after hcut =>
      obtain ⟨piece, rfl, -⟩ := Text.cut_reads Recogniser.reads_tableBegin hcut
      have parts : line = front ++ (before ++ piece) ++ after := by
        rw [hfront]
        simp only [List.append_assoc]
      exact (rule.rowsIn_enterTable parts).mono (by simp) (Nat.le_refl _)

/-- In a line a row of the open table is reported before a row of the table that begins in it. -/
theorem rowsIn_readLine (tally : TableTally) (line : Text) :
    RowsIn n 0 line.width (rule.readLine (Range.ofLine n) tally line).2 := by
  have all : line = [] ++ line := rfl
  rw [readLine]
  split
  · split
    · next row rest hclosing =>
        obtain ⟨hcut, hrow⟩ := Option.filter_eq_some_iff.mp hclosing
        obtain ⟨w, whole, -⟩ := Text.cut_tableBegin_of_cut_tableEnd hcut (by simpa using hrow)
        have parts : line = row ++ '\\' :: w ++ rest := by
          rw [whole]
          simp
        have size := congrArg Text.width parts
        rw [Text.width_append] at size
        have after : row.width < (row ++ '\\' :: w).width := by
          have backslash : Char.utf8Size '\\' = 1 := rfl
          rw [Text.width_append, Text.width_cons]
          omega
        have closing : RowsIn n 0 row.width
            ((readRow (Range.ofLine n) 0 row tally).andThen rule.leaveTable).2 :=
          rowsIn_leaving rule 0 row (by omega)
        exact closing.append (rule.rowsIn_readOutside parts) after (Nat.zero_le _) (by omega)
    · split
      · have row := rowsIn_readRow n 0 line tally
        rwa [Nat.zero_add] at row
      · next before after hcut =>
          obtain ⟨piece, whole, -⟩ := Text.cut_reads Recogniser.reads_tableBegin hcut
          have entered : RowsIn n before.width line.width
              (rule.enterTable (Range.ofLine n) line after .idle).2 := by
            refine (rule.rowsIn_enterTable whole).mono ?_ (Nat.le_refl _)
            simp
          exact .nested (entered.mono (Nat.zero_le _) (Nat.le_refl _))
  · exact (rule.rowsIn_readOutside all).mono (Nat.zero_le _) (Nat.le_refl _)

end Line

/-- Row reports come in the order of the lines, and in each line one after the other. -/
theorem pairwise_row_readLines (rule : Alignment) (first : Nat) (tally : TableTally)
    (lines : List Text) :
    let rows := (rule.readLines Range.ofLine first tally lines).2.flatten.filterMap Event.row?
    rows.Pairwise Range.StartsBefore ∧ ∀ r ∈ rows, first ≤ r.start.line := by
  induction lines generalizing first tally with
  | nil => exact ⟨List.Pairwise.nil, fun _ h => absurd h List.not_mem_nil⟩
  | cons line rest ih =>
      have here := rule.rowsIn_readLine (n := first) tally line
      obtain ⟨ordered, below⟩ := ih (first + 1) (rule.readLine (Range.ofLine first) tally line).1
      dsimp only
      rw [readLines, List.flatten_cons, List.filterMap_append, List.pairwise_append]
      refine ⟨⟨here.ordered, ordered, fun r hr r' hr' => ?_⟩, ?_⟩
      · have start := (here.inside r hr).1
        have start' := below r' hr'
        exact Or.inl (by omega)
      · refine List.forall_mem_append.mpr ⟨fun r hr => ?_, fun r hr => ?_⟩
        · exact Nat.le_of_eq (here.inside r hr).1.symm
        · exact Nat.le_of_succ_le (below r hr)

end Alignment

end NumeralLint
