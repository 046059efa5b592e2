/-
The rule on tables, read by places.

The functions here read a specification, a row and a line by the places of
their parts: they search from a place on, count bytes, add places up, and
take every part as a slice, which fails unless it lies between two
boundaries in order.  None of them ever fails, and each answers what the
function on parts answers that has its name without the question mark.  The
one fact that carries all of this is that every place is the width of a
beginning of the line.
-/
import NumeralLint.Proofs.Table.Reading
import NumeralLint.Proofs.Text.Bytes
import NumeralLint.Proofs.Text.Slices

namespace NumeralLint

/-! ## Specifications -/

namespace ColumnSpec

open Text

/-- Where the group that starts at a place ends: after its first unescaped closing brace, or with
the text. -/
def groupEnd (t : Text) (start : Nat) : Nat :=
  match bytePlaces (utf8 Atom.groupEnd.text) (start + 1) (t.utf8.drop (start + 1)) with
  | [] => t.width
  | place :: _ => place + 1

theorem lt_groupEnd {t : Text} {start : Nat} (h : start < t.width) : start < groupEnd t start := by
  rw [groupEnd]
  split
  · exact h
  · next place more hplaces =>
      have := le_of_mem_bytePlaces (hplaces ▸ List.mem_cons_self)
      omega

/-- Reads the specification from a place of the text on: its items, and the place where it ends. -/
def readFrom? (t : Text) (place : Nat) : Option (List ColumnItem × Nat) :=
  match _h : t.dropBytes? place with
  | none => none
  | some [] => some ([], place)
  | some (c :: _) =>
      if c = '}' then some ([], place)
      else if c = '{' then
        (t.part? place (groupEnd t place)).bind fun group =>
          (readFrom? t (groupEnd t place)).map fun later => (.group group :: later.1, later.2)
      else if isBlank c then readFrom? t (place + c.utf8Size)
      else (readFrom? t (place + c.utf8Size)).map fun later => (.specifier c :: later.1, later.2)
termination_by t.width - place
decreasing_by
  all_goals
    obtain ⟨s, hs, hwidth⟩ := dropBytes?_eq_some_iff.mp _h
    have inside := congrArg width hs
    rw [width_append, width_cons] at inside
    have := c.utf8Size_pos
  · have room : place < t.width := by omega
    have := lt_groupEnd room
    omega
  · omega
  · omega

theorem readFrom?_nil {t : Text} {place : Nat} (h : t.dropBytes? place = some []) :
    readFrom? t place = some ([], place) := by
  rw [readFrom?]
  split
  · next hnone => rw [h] at hnone; cases hnone
  · rfl
  · next hsome => rw [h] at hsome; cases hsome

theorem readFrom?_cons {t rest : Text} {place : Nat} {c : Char}
    (h : t.dropBytes? place = some (c :: rest)) :
    readFrom? t place =
      if c = '}' then some ([], place)
      else if c = '{' then
        (t.part? place (groupEnd t place)).bind fun group =>
          (readFrom? t (groupEnd t place)).map fun later => (.group group :: later.1, later.2)
      else if isBlank c then readFrom? t (place + c.utf8Size)
      else (readFrom? t (place + c.utf8Size)).map fun later =>
        (.specifier c :: later.1, later.2) := by
  rw [readFrom?]
  split
  · next hnone => rw [h] at hnone; cases hnone
  · next hsome => rw [h] at hsome; cases hsome
  · next hsome => rw [h] at hsome; cases hsome; rfl

/-- A group ends where the text between its braces does, or with the text. -/
theorem groupEnd_eq (before t : Text) :
    groupEnd (before ++ '{' :: t) before.width =
      (before ++ ('{' :: t.beforeAtom .groupEnd ++ (t.fromAtom .groupEnd).take 1)).width := by
  have opened : before ++ '{' :: t = (before ++ ['{']) ++ t := by simp
  have start : before.width + 1 = (before ++ ['{']).width := by rw [width_append]; rfl
  have bytes : (utf8 (before ++ '{' :: t)).drop (before.width + 1) = utf8 t := by
    rw [opened, start, drop_utf8]
  rw [groupEnd, bytes]
  rcases bytePlaces_cases (a := .groupEnd) (by decide) (before.width + 1) t with
    ⟨places, hbefore, hfrom⟩ | ⟨more, rest, places, hfrom⟩
  · rw [places, hbefore, hfrom, List.take_nil, List.append_nil]
  · have brace : (Atom.groupEnd.text ++ rest).take 1 = ['}'] := rfl
    have size : Text.width ['}'] = 1 := rfl
    have closed : before ++ ('{' :: t.beforeAtom .groupEnd ++ ['}']) =
        before ++ ['{'] ++ t.beforeAtom .groupEnd ++ ['}'] := by simp
    rw [places, hfrom, brace, closed, width_append _ ['}'], size]
    show before.width + 1 + (t.beforeAtom .groupEnd).width + 1 = _
    rw [start, width_append (before ++ ['{'])]

/-- A group, and what follows it. -/
theorem cons_eq_group_append (t : Text) :
    '{' :: t = '{' :: t.beforeAtom .groupEnd ++ (t.fromAtom .groupEnd).take 1 ++
      (t.fromAtom .groupEnd).drop 1 := by
  rw [List.append_assoc, List.take_append_drop, List.cons_append, beforeAtom_append_fromAtom]

/-- A group is the part of the text between its places. -/
theorem part?_groupEnd (before t : Text) :
    (before ++ '{' :: t).part? before.width (groupEnd (before ++ '{' :: t) before.width) =
      some ('{' :: t.beforeAtom .groupEnd ++ (t.fromAtom .groupEnd).take 1) := by
  have whole : before ++ '{' :: t = before ++ ('{' :: t.beforeAtom .groupEnd ++
      (t.fromAtom .groupEnd).take 1) ++ (t.fromAtom .groupEnd).drop 1 := by
    rw [List.append_assoc, ← cons_eq_group_append t]
  rw [groupEnd_eq]
  conv => lhs; rw [whole]
  exact part?_append _ _ _

/-- Reading by places finds the items, and ends where the specification does. -/
theorem readFrom?_eq (before t : Text) :
    readFrom? (before ++ t) before.width =
      some ((read t).items, (before ++ (read t).source).width) := by
  have here := dropBytes?_append before t
  fun_induction read t generalizing before with
  | case1 => rw [readFrom?_nil here, List.append_nil]
  | case2 t => rw [readFrom?_cons here, if_pos rfl, List.append_nil]
  | case3 t body after group spec hc ih =>
      have stop : groupEnd (before ++ '{' :: t) before.width = (before ++ group).width :=
        groupEnd_eq before t
      have whole : before ++ '{' :: t = before ++ group ++ after.drop 1 := by
        rw [List.append_assoc, ← cons_eq_group_append t]
      have later := ih (before ++ group) (dropBytes?_append _ _)
      rw [readFrom?_cons here, if_neg hc, if_pos rfl, part?_groupEnd, Option.bind_some, stop, whole,
        later, List.append_assoc]
      rfl
  | case4 c t hc hg spec hb ih =>
      have next : before ++ c :: t = before ++ [c] ++ t := by simp
      have place : before.width + c.utf8Size = (before ++ [c]).width := by simp
      have later := ih (before ++ [c]) (dropBytes?_append _ _)
      rw [readFrom?_cons here, if_neg hc, if_neg hg, if_pos hb, next, place, later,
        List.append_assoc]
      rfl
  | case5 c t hc hg spec hb ih =>
      have next : before ++ c :: t = before ++ [c] ++ t := by simp
      have place : before.width + c.utf8Size = (before ++ [c]).width := by simp
      have later := ih (before ++ [c]) (dropBytes?_append _ _)
      rw [readFrom?_cons here, if_neg hc, if_neg hg, if_neg hb, next, place, later,
        List.append_assoc]
      rfl

end ColumnSpec

/-! ## Rows -/

namespace Recogniser

theorem reads_command (name : Text) : Reads (command name) :=
  fun _ _ h => reads_literal _ (Option.filter_eq_some_iff.mp h).1

theorem reads_leadingRule : Reads leadingRule := by
  have full : Reads fullRule :=
    reads_orElse (reads_command _) <| reads_orElse (reads_command _) <|
      reads_orElse (reads_command _) (reads_command _)
  have part : Reads partialRule :=
    reads_andThen (reads_orElse (reads_literal _) (reads_literal _)) <|
      reads_andThen (reads_optional (reads_bracketed _ _)) <|
        reads_andThen (reads_many _) (reads_bracketed _ _)
  exact reads_andThen (reads_many _) (reads_andThen (reads_orElse full part) (reads_many _))

end Recogniser

namespace Text

/-- The text after the commands at its start that draw rules, each of which is cut off. -/
def dropLeadingRules? (t : Text) : Option Text :=
  match _h : Recogniser.leadingRule t with
  | none => some t
  | some rest =>
      match _hd : t.dropBytes? (t.columnOf rest) with
      | none => none
      | some u => dropLeadingRules? u
termination_by t.length
decreasing_by
  obtain ⟨s, hs⟩ := Recogniser.reads_leadingRule _h
  obtain rfl : rest = u := by
    rw [← hs, columnOf_append, dropBytes?_append] at _hd
    exact Option.some.inj _hd
  exact Recogniser.advances_leadingRule _h

theorem dropLeadingRules?_eq (t : Text) : dropLeadingRules? t = some t.dropLeadingRules := by
  fun_induction dropLeadingRules t with
  | case1 t hnone =>
      rw [dropLeadingRules?]
      split
      · rfl
      · next hsome => rw [hnone] at hsome; cases hsome
  | case2 t rest hrest ih =>
      have here : t.dropBytes? (t.columnOf rest) = some rest := by
        obtain ⟨s, rfl⟩ := Recogniser.reads_leadingRule hrest
        rw [columnOf_append, dropBytes?_append]
      rw [dropLeadingRules?]
      split
      · next hnone => rw [hrest] at hnone; cases hnone
      · next hsome =>
          rw [hrest] at hsome
          cases hsome
          split
          · next hnone => rw [here] at hnone; cases hnone
          · next hsome => rw [here] at hsome; cases hsome; exact ih

/-- The cells of the content of a row. -/
def cells? (content : Text) : Option (List Text) :=
  (dropLeadingRules? content).map fun t => splitAtChar '&' (maskAmpersands t)

theorem cells?_eq (content : Text) : cells? content = some content.cells := by
  rw [cells?, dropLeadingRules?_eq]
  rfl

/-- Searches from a place on: where the first piece that `r` reads starts, and where it stops. -/
def find? (r : Recogniser) (start : Nat) (line : Text) : Option (Option (Nat × Nat)) :=
  (line.dropBytes? start).map fun rest =>
    (rest.cut r).map fun found => (start + found.1.width, line.columnOf found.2)

theorem find?_of_none {r : Recogniser} {t : Text} (h : t.cut r = none) (front : Text) :
    find? r front.width (front ++ t) = some none := by
  rw [find?, dropBytes?_append, Option.map_some, h]
  rfl

theorem find?_of_some {r : Recogniser} (hr : r.Reads) {t before after : Text}
    (h : t.cut r = some (before, after)) (front : Text) :
    ∃ piece, front ++ t = front ++ before ++ piece ++ after ∧
      find? r front.width (front ++ t) =
        some (some ((front ++ before).width, (front ++ before ++ piece).width)) := by
  obtain ⟨piece, hpiece, -⟩ := cut_reads hr h
  have whole : front ++ t = front ++ before ++ piece ++ after := by
    rw [hpiece]
    simp only [List.append_assoc]
  refine ⟨piece, whole, ?_⟩
  rw [find?, dropBytes?_append, Option.map_some, h, Option.map_some, whole, columnOf_append,
    width_append front before]

end Text

namespace Alignment

open Text

/-- Accounts for the row between two places of a line. -/
def readRow? (place : Nat → Nat → Range) (line : Text) (start stop : Nat) (tally : TableTally) :
    Option Reading :=
  (line.part? start stop).bind fun segment =>
    match loopPlaces .rowTerminator segment with
    | [] => some (tally, [])
    | [first] =>
        (segment.part? 0 first).bind fun content =>
          if content.occurs (.literal "\\multicolumn".toList) then some (tally, [.spanningRow])
          else
            content.cells?.map fun cells =>
              if cells.length = tally.columns then (tally.addRow cells, [])
              else
                (tally, [.wrongCellCount (place start (start + first)) cells.length tally.columns])
    | first :: _ :: _ => some (tally, [.severalRows (place (start + first) (start + first + 2))])

theorem readRow?_eq (place : Nat → Nat → Range) (front segment back : Text) (tally : TableTally) :
    readRow? place (front ++ segment ++ back) front.width (front ++ segment).width tally =
      some (readRow place front.width segment tally) := by
  rw [readRow?, part?_append, Option.bind_some, loopPlaces_eq (by decide), readRow]
  rcases segment.terminator_cases with ⟨-, places⟩ | ⟨more, rest, whole, -, places, -⟩
  · rw [places]
  · rw [places]
    cases more with
    | cons next more => rfl
    | nil =>
        have content : segment.part? 0 segment.rowContent.width = some segment.rowContent := by
          have slice := part?_append [] segment.rowContent ('\\' :: '\\' :: rest)
          rw [List.nil_append, ← whole] at slice
          exact slice
        simp only [content, Option.bind_some, cells?_eq]
        show (if segment.rowContent.occurs _ = true then _ else _) =
          some (if segment.rowContent.occurs _ = true then _ else _)
        split <;> rfl

/-! ## Lines -/

/-- Goes on from the tally that was reached, with what may fail. -/
def Reading.andThen? (reading : Reading) (next : TableTally → Option Reading) : Option Reading :=
  (next reading.1).map fun later => (later.1, reading.2 ++ later.2)

theorem Reading.andThen?_eq {reading : Reading} {next? : TableTally → Option Reading}
    {next : TableTally → Reading} (h : next? reading.1 = some (next reading.1)) :
    reading.andThen? next? = some (reading.andThen next) := by
  rw [Reading.andThen?, h]
  rfl

variable (rule : Alignment) (place : Nat → Nat → Range)

/-- Reads the part of a line that lies in a table, from a place on. -/
def readInside? (line : Text) (start : Nat) (tally : TableTally) : Option Reading :=
  (line.find? .tableEnd start).bind fun ending =>
    match ending with
    | none => readRow? place line start line.width tally
    | some (stop, _) =>
        (readRow? place line start stop tally).map fun row => row.andThen rule.leaveTable

/-- Enters a table whose beginning ends at a place of the line, and reads on. -/
def enterTable? (line : Text) (start : Nat) (tally : TableTally) : Option Reading :=
  (line.dropBytes? start).bind fun t =>
    match Recogniser.specOpening t with
    | none => some (tally, [.noSpecification])
    | some inner =>
        let specStart := line.columnOf inner
        (line.dropBytes? specStart).bind fun text =>
          (ColumnSpec.readFrom? text 0).bind fun (items, size) =>
            let specStop := specStart + size
            (line.part? specStart specStop).bind fun source =>
              (line.dropBytes? specStop).bind fun rest =>
                let spec : ColumnSpec := ⟨items, source, rest⟩
                let inside := if rest.head? = some '}' then specStop + 1 else specStop
                Reading.andThen? (.opened spec (place specStart specStop), [.entered spec.types])
                  (rule.readInside? place line inside)

/-- Reads the part of a line that lies outside every table, from a place on. -/
def readOutside? (line : Text) (start : Nat) (tally : TableTally) : Option Reading :=
  (line.find? .tableBegin start).bind fun beginning =>
    match beginning with
    | none => some (tally, [])
    | some (_, stop) => rule.enterTable? place line stop tally

/-- Where the first end of a table in a line stands, if no table begins before it. -/
def closing? (line : Text) : Option (Option (Nat × Nat)) :=
  (line.find? .tableBegin 0).bind fun beginning =>
    (line.find? .tableEnd 0).map fun ending =>
      ending.filter fun found => beginning.all fun other => found.1 < other.1

def readLine? (tally : TableTally) (line : Text) : Option Reading :=
  if tally.isOpen then
    (closing? line).bind fun ending =>
      match ending with
      | some (stop, next) =>
          (readRow? place line 0 stop tally).bind fun row =>
            (row.andThen rule.leaveTable).andThen? (rule.readOutside? place line next)
      | none =>
          (line.find? .tableBegin 0).bind fun beginning =>
            match beginning with
            | none => rule.readInside? place line 0 tally
            | some (_, stop) =>
                Reading.andThen? (.idle, [.nested]) (rule.enterTable? place line stop)
  else rule.readOutside? place line 0 tally

theorem readInside?_eq (front t : Text) (tally : TableTally) :
    rule.readInside? place (front ++ t) front.width tally =
      some (rule.readInside place front.width t tally) := by
  rw [readInside?, readInside]
  cases hcut : t.cut .tableEnd with
  | none =>
      have row := readRow?_eq place front t [] tally
      rw [List.append_nil] at row
      rw [find?_of_none hcut, Option.bind_some]
      exact row
  | some found =>
      obtain ⟨piece, whole, hfind⟩ := find?_of_some Recogniser.reads_tableEnd hcut front
      have row := readRow?_eq place front found.1 (piece ++ found.2) tally
      rw [← List.append_assoc, ← whole] at row
      simp only [hfind, Option.bind_some, row, Option.map_some]

/-- What follows a specification is read from the place after its closing brace, if it has one. -/
theorem readInside?_rest (front rest : Text) (tally : TableTally)
    (hrest : rest = [] ∨ ∃ u, rest = '}' :: u) :
    rule.readInside? place (front ++ rest)
        (if rest.head? = some '}' then front.width + 1 else front.width) tally =
      some (rule.readInside place ((front ++ rest).columnOf (rest.drop 1)) (rest.drop 1) tally) := by
  rcases hrest with rfl | ⟨u, rfl⟩
  · have here := rule.readInside?_eq place front [] tally
    have column : Text.columnOf (front ++ []) [] = front.width := columnOf_append front []
    rw [List.drop_nil, column]
    exact here
  · have past : front ++ '}' :: u = front ++ ['}'] ++ u := by simp
    have place' : front.width + 1 = (front ++ ['}']).width := by rw [width_append]; rfl
    rw [List.head?_cons, if_pos rfl, List.drop_succ_cons, List.drop_zero, past, place',
      columnOf_append]
    exact rule.readInside?_eq place _ u tally

theorem enterTable?_eq (front t : Text) (tally : TableTally) :
    rule.enterTable? place (front ++ t) front.width tally =
      some (rule.enterTable place (front ++ t) t tally) := by
  rw [enterTable?, enterTable, dropBytes?_append, Option.bind_some]
  cases hopen : Recogniser.specOpening t with
  | none => rfl
  | some inner =>
      obtain ⟨middle, rfl⟩ := Recogniser.exists_specOpening hopen
      have upTo : front ++ (middle ++ '{' :: inner) = front ++ middle ++ ['{'] ++ inner := by simp
      have start : Text.columnOf (front ++ (middle ++ '{' :: inner)) inner =
          (front ++ middle ++ ['{']).width := by
        rw [upTo]
        exact columnOf_append _ _
      dsimp only
      have closes := ColumnSpec.rest_cases inner
      have read : ColumnSpec.readFrom? inner 0 = some ((ColumnSpec.read inner).items,
          (ColumnSpec.read inner).source.width) := ColumnSpec.readFrom?_eq [] inner
      have parts := ColumnSpec.source_append_rest inner
      generalize ColumnSpec.read inner = spec at closes read parts ⊢
      generalize hlead : front ++ middle ++ ['\x7b'] = lead at upTo start
      have line : front ++ (middle ++ '\x7b' :: inner) = lead ++ spec.source ++ spec.rest := by
        rw [upTo, ← parts, List.append_assoc]
      have stop : lead.width + spec.source.width = (lead ++ spec.source).width :=
        (width_append _ _).symm
      have text : dropBytes? lead.width (front ++ (middle ++ '\x7b' :: inner)) = some inner := by
        rw [upTo, dropBytes?_append]
      have source : part? lead.width (lead ++ spec.source).width
          (front ++ (middle ++ '\x7b' :: inner)) = some spec.source := by
        rw [line]
        exact part?_append _ _ _
      have rest : dropBytes? (lead ++ spec.source).width (front ++ (middle ++ '\x7b' :: inner)) =
          some spec.rest := by
        rw [line, dropBytes?_append]
      have size : spec.size = spec.source.width := rfl
      simp only [start, text, read, Option.bind_some, size, stop, source, rest]
      refine Reading.andThen?_eq ?_
      have inside := rule.readInside?_rest place (lead ++ spec.source) spec.rest
        (.opened spec (place lead.width (lead ++ spec.source).width)) closes
      rw [← line] at inside
      exact inside

theorem readOutside?_eq (front t : Text) (tally : TableTally) :
    rule.readOutside? place (front ++ t) front.width tally =
      some (rule.readOutside place (front ++ t) t tally) := by
  rw [readOutside?, readOutside]
  cases hcut : t.cut .tableBegin with
  | none => rw [find?_of_none hcut, Option.bind_some]
  | some found =>
      obtain ⟨piece, whole, hfind⟩ := find?_of_some Recogniser.reads_tableBegin hcut front
      rw [hfind, Option.bind_some, whole]
      exact rule.enterTable?_eq place _ _ tally

/-- An end of a table before which none begins stands before every beginning in the line. -/
theorem closing?_eq (line : Text) :
    closing? line = some ((closingRow? line).map fun found =>
      (found.1.width, line.columnOf found.2)) := by
  have search : ∀ r, line.find? r 0 =
      some ((line.cut r).map fun found => (found.1.width, line.columnOf found.2)) := by
    intro r
    have whole : dropBytes? 0 line = some line := dropBytes?_append [] line
    rw [find?, whole, Option.map_some]
    simp
  rw [closing?, search, search, Option.bind_some, Option.map_some, closingRow?]
  cases hend : line.cut .tableEnd with
  | none => rfl
  | some found =>
      obtain ⟨row, rest⟩ := found
      cases hrow : row.occurs .tableBegin with
      | true =>
          obtain ⟨before, after, hbegin, u, rfl⟩ := exists_cut_tableBegin_of_row hend hrow
          simp [Option.filter, hbegin, hrow]
      | false =>
          obtain ⟨w, -, hbegin⟩ := cut_tableBegin_of_cut_tableEnd hend hrow
          cases hlater : rest.cut .tableBegin with
          | none => simp [Option.filter, hbegin, hlater, hrow]
          | some found =>
              have order : row.width < (row ++ '\\' :: (w ++ found.1)).width := by
                have := Char.utf8Size_pos '\\'
                rw [width_append, width_cons]
                omega
              rw [hlater, Option.map_some] at hbegin
              simp only [Option.map_some, Option.filter, hbegin, hrow, Option.all_some, order,
                decide_true, if_true, Bool.not_false]

/-- Where an open table is not left and none begins, none ends. -/
theorem cut_tableEnd_of_closingRow {line : Text} (hclosing : closingRow? line = none)
    (hbegin : line.cut .tableBegin = none) : line.cut .tableEnd = none := by
  cases hend : line.cut .tableEnd with
  | none => rfl
  | some found =>
      obtain ⟨row, rest⟩ := found
      cases hrow : row.occurs .tableBegin with
      | true =>
          obtain ⟨before, after, hsome, -⟩ := exists_cut_tableBegin_of_row hend hrow
          exact absurd (hbegin.symm.trans hsome) (by simp)
      | false => simp [closingRow?, hend, hrow] at hclosing

theorem readLine?_eq (tally : TableTally) (line : Text) :
    rule.readLine? place tally line = some (rule.readLine place tally line) := by
  rw [readLine?, readLine]
  split
  · next hopen =>
      rw [closing?_eq, Option.bind_some]
      cases hclosing : closingRow? line with
      | some found =>
          obtain ⟨hcut, -⟩ := Option.filter_eq_some_iff.mp hclosing
          obtain ⟨piece, whole, -⟩ := cut_reads Recogniser.reads_tableEnd hcut
          have row : readRow? place line 0 found.1.width tally =
              some (readRow place 0 found.1 tally) := by
            have parts := readRow?_eq place [] found.1 (piece ++ found.2) tally
            rw [List.nil_append, ← List.append_assoc, ← whole] at parts
            exact parts
          have column : line.columnOf found.2 = (found.1 ++ piece).width := by
            rw [whole, columnOf_append]
          have outside := rule.readOutside?_eq place (found.1 ++ piece) found.2
          rw [← whole] at outside
          simp only [Option.map_some, row, Option.bind_some, column]
          exact Reading.andThen?_eq (outside _)
      | none =>
          cases hbegin : line.cut .tableBegin with
          | none =>
              have search : line.find? .tableBegin 0 = some none := find?_of_none hbegin []
              have inside := rule.readInside?_eq place [] line tally
              rw [readInside, cut_tableEnd_of_closingRow hclosing hbegin] at inside
              simp only [Option.map_none, search, Option.bind_some]
              exact inside
          | some found =>
              obtain ⟨piece, whole, hfind⟩ :=
                find?_of_some Recogniser.reads_tableBegin hbegin []
              rw [List.nil_append, List.nil_append] at whole hfind
              have entered := rule.enterTable?_eq place (found.1 ++ piece) found.2
              rw [← whole] at entered
              have search : line.find? .tableBegin 0 =
                some (some (found.1.width, (found.1 ++ piece).width)) := hfind
              simp only [Option.map_none, search, Option.bind_some]
              exact Reading.andThen?_eq (entered _)
  · exact rule.readOutside?_eq place [] line tally

/-! ## Texts -/

def readLines? (place : Nat → Nat → Nat → Range) (first : Nat) (tally : TableTally) :
    List Text → Option (TableTally × List (List Event))
  | [] => some (tally, [])
  | line :: rest =>
      (rule.readLine? (place first) tally line).bind fun reading =>
        (readLines? place (first + 1) reading.1 rest).map fun later =>
          (later.1, reading.2 :: later.2)

theorem readLines?_eq (place : Nat → Nat → Nat → Range) (first : Nat) (tally : TableTally)
    (lines : List Text) :
    rule.readLines? place first tally lines = some (rule.readLines place first tally lines) := by
  induction lines generalizing first tally with
  | nil => rfl
  | cons line rest ih =>
      rw [readLines?, readLine?_eq, Option.bind_some, ih]
      rfl

def findings? (place : Nat → Nat → Nat → Range) (lines : List Text) : Option (List Finding) :=
  (rule.readLines? place 0 .idle (lines.map trimEnd)).map fun outcome =>
    outcome.2.flatten.filterMap Event.finding?

theorem findings?_eq (place : Nat → Nat → Nat → Range) (lines : List Text) :
    rule.findings? place lines = some (rule.findings place lines) := by
  rw [findings?, readLines?_eq]
  rfl

end Alignment

end NumeralLint
