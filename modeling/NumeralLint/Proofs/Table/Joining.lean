/-
What the rule on tables reports of a text that is joined out of two.

If the first text ends with the end of a table and leaves no table open, the
only line that belongs to both is the one at the joint.  A delimiter of a
table ends at its brace, and so does a column specification, so nothing that
is read in the first part of that line is read otherwise because of the
second part (`readOutside_append`, `readLine_append`).  Whether the second
part is read at all is another matter: once the beginning of a table has been
read in a line, a further one in the same line is not.

Messages do not hang on places, so the lines are read here with all places
alike (`nowhere`), as one reading after the other (`readAll`).
-/
import Mathlib.Data.List.Infix
import NumeralLint.Proofs.SourceMap
import NumeralLint.Proofs.Table.WellFormed
import NumeralLint.Proofs.Table.WholeTable

namespace NumeralLint

namespace Text

/-- What a text has after its last line feed. -/
def lastPiece (t : Text) : Text := t.pieces.getLastD []

/-- What a text has before its first line feed. -/
def firstPiece (t : Text) : Text := t.pieces.headD []

end Text

namespace Alignment

/-- No beginning of a table in the line takes its column specification out of what comes after the
line. -/
def OwnSpecs (line later : Text) : Prop :=
  ∀ s ∈ line.tails, ∀ after ∈ Recogniser.tableBegin s,
    Recogniser.specOpening after = none → Recogniser.specOpening (after ++ later) = none

instance (line later : Text) : Decidable (OwnSpecs line later) :=
  inferInstanceAs (Decidable (∀ s ∈ line.tails, ∀ after ∈ Recogniser.tableBegin s, _))

/-! ## Reading without places -/

/-- The place of every part of a line where places do not matter. -/
def nowhere (_ _ : Nat) : Range := .origin

namespace Reading

theorem andThen_assoc (reading : Reading) (f g : TableTally → Reading) :
    (reading.andThen f).andThen g = reading.andThen fun tally => (f tally).andThen g := by
  simp only [andThen, List.append_assoc]

theorem andThen_done (reading : Reading) : reading.andThen (fun tally => (tally, [])) = reading := by
  simp only [andThen, List.append_nil]

theorem andThen_congr {reading : Reading} {f g : TableTally → Reading}
    (h : f reading.1 = g reading.1) : reading.andThen f = reading.andThen g := by
  rw [andThen, andThen, h]

end Reading

variable (rule : Alignment) {tally : TableTally}

/-! ## A line that goes on -/

theorem exists_cut_of_isOpen_readInside (hopen : tally.isOpen = true) {column : Nat} {t : Text}
    (hleft : (rule.readInside nowhere column t tally).1.isOpen = false) :
    ∃ row rest, t.cut .tableEnd = some (row, rest) := by
  cases hcut : t.cut .tableEnd with
  | some found => exact ⟨found.1, found.2, rfl⟩
  | none =>
      rw [readInside, hcut] at hleft
      exact absurd ((isOpen_readRow _ _ _ _).symm.trans hleft) (by simp [hopen])

theorem readInside_append (hopen : tally.isOpen = true) {column : Nat} {t : Text}
    (hleft : (rule.readInside nowhere column t tally).1.isOpen = false) (column' : Nat) (u : Text) :
    rule.readInside nowhere column' (t ++ u) tally = rule.readInside nowhere column t tally := by
  obtain ⟨row, rest, hcut⟩ := rule.exists_cut_of_isOpen_readInside hopen hleft
  rw [readInside, readInside, Text.cut_tableEnd_append hcut u, hcut]
  rfl

/-- A table that is entered and left in a line is read alike in a longer line, and so is the
beginning of a table that finds no column specification in either. -/
theorem enterTable_append {line line' t u : Text}
    (hspec : Recogniser.specOpening t = none → Recogniser.specOpening (t ++ u) = none)
    (hleft : (rule.enterTable nowhere line t tally).1.isOpen = false) :
    rule.enterTable nowhere line' (t ++ u) tally = rule.enterTable nowhere line t tally := by
  cases hopening : Recogniser.specOpening t with
  | none => rw [enterTable, enterTable, hspec hopening, hopening]
  | some inner =>
      rw [enterTable, hopening] at hleft
      have opened : (TableTally.opened (ColumnSpec.read inner) .origin).isOpen = true := rfl
      obtain ⟨row, rest, hcut⟩ := rule.exists_cut_of_isOpen_readInside opened hleft
      have closed : (ColumnSpec.read inner).rest ≠ [] := by
        intro none
        rw [none] at hcut
        have nothing : Text.cut .tableEnd [] = Option.none := rfl
        exact absurd (nothing.symm.trans hcut) (by simp)
      have inside : ((ColumnSpec.read inner).rest ++ u).drop 1 =
          (ColumnSpec.read inner).rest.drop 1 ++ u :=
        List.drop_append_of_le_length (List.length_pos_iff.mpr closed)
      have spec := ColumnSpec.read_append closed u
      rw [enterTable, enterTable, Recogniser.specOpening_append hopening u, hopening]
      dsimp only
      rw [spec]
      dsimp only
      rw [inside]
      exact Reading.andThen_congr (rule.readInside_append opened hleft _ u)

/-! ## The end of a line at the joint -/

theorem brace_mem_of_closing {line : Text} (hends : closing <:+ line) {m : Text}
    (hm : m <:+ line) (hne : m ≠ []) : '}' ∈ m := by
  have last : m.getLast hne = closing.getLast (by decide) := by
    rw [hm.getLast hne, ← hends.getLast]
  have brace : closing.getLast (by decide) = '}' := rfl
  rw [← brace, ← last]
  exact List.getLast_mem hne

theorem exists_cut_of_closing {line : Text} (hends : closing <:+ line) :
    ∃ row rest, line.cut .tableEnd = some (row, rest) := by
  cases hcut : line.cut .tableEnd with
  | some found => exact ⟨found.1, found.2, rfl⟩
  | none =>
      have notHere := Text.cut_eq_none_iff.mp hcut closing hends
      have here : Recogniser.tableEnd closing = some [] := rfl
      exact absurd (here.symm.trans notHere) (by simp)

/-! ## The line at the joint -/

/-- How a line that goes on with `later` is read on, after a first part that leaves no table open:
if a table begins in the first part, nothing more is read. -/
def readLater (line later : Text) (tally : TableTally) : Reading :=
  if line.occurs .tableBegin then (tally, []) else rule.readOutside nowhere [] later tally

theorem readLater_of_occurs {line : Text} (h : line.occurs .tableBegin = true) (later : Text) :
    rule.readLater line later = fun tally => (tally, []) := by
  funext tally
  rw [readLater, if_pos h]

theorem readLater_of_not_occurs {line : Text} (h : line.occurs .tableBegin = false)
    (later : Text) : rule.readLater line later = rule.readOutside nowhere [] later := by
  funext tally
  rw [readLater, if_neg (by simp [h])]

theorem enterTable_append_of_cut {line line' t before after u : Text} (ht : t <:+ line)
    (hspecs : OwnSpecs line u) (hcut : t.cut .tableBegin = some (before, after))
    (hleft : (rule.enterTable nowhere line' after tally).1.isOpen = false) (line'' : Text) :
    rule.enterTable nowhere line'' (after ++ u) tally =
      rule.enterTable nowhere line' after tally := by
  obtain ⟨m, rfl, hbegin, -⟩ := Text.cut_eq_some_iff.mp hcut
  have hm : m ∈ line.tails := (List.mem_tails _ _).mpr ((List.suffix_append before m).trans ht)
  exact rule.enterTable_append (hspecs m hm after hbegin) hleft

theorem readOutside_append {line t u : Text} (hends : closing <:+ line) (ht : t <:+ line)
    (hspecs : OwnSpecs line u) (hleft : (rule.readOutside nowhere [] t tally).1.isOpen = false) :
    rule.readOutside nowhere [] (t ++ u) tally =
      (rule.readOutside nowhere [] t tally).andThen (rule.readLater t u) := by
  cases hcut : t.cut .tableBegin with
  | none =>
      have longer := Text.cut_append_of_none Recogniser.endsAt_tableBegin
        (fun m hm => brace_mem_of_closing hends (hm.trans ht)) hcut u
      have unread : rule.readOutside nowhere [] t tally = (tally, []) := by
        rw [readOutside, hcut]
      rw [unread, rule.readLater_of_not_occurs (Text.occurs_eq_false.mpr hcut), readOutside, longer]
      show _ = rule.readOutside nowhere [] u tally
      rw [readOutside]
      cases u.cut .tableBegin <;> rfl
  | some found =>
      obtain ⟨before, after⟩ := found
      have here : t.occurs .tableBegin = true := by rw [Text.occurs, hcut, Option.isSome_some]
      have entered : rule.readOutside nowhere [] t tally =
          rule.enterTable nowhere [] after tally := by
        rw [readOutside, hcut]
      rw [entered] at hleft
      rw [entered, rule.readLater_of_occurs here, Reading.andThen_done, readOutside,
        Text.cut_tableBegin_append hcut u]
      exact rule.enterTable_append_of_cut ht hspecs hcut hleft []

theorem readLine_of_row (hopen : tally.isOpen = true) {line row rest : Text}
    (hend : line.cut .tableEnd = some (row, rest)) (hrow : row.occurs .tableBegin = false) :
    rule.readLine nowhere tally line =
      ((readRow nowhere 0 row tally).andThen rule.leaveTable).andThen
        (rule.readOutside nowhere [] rest) := by
  have hclosing : closingRow? line = some (row, rest) := by simp [closingRow?, hend, hrow]
  rw [readLine, if_pos hopen, hclosing]
  rfl

theorem readLine_of_nested (hopen : tally.isOpen = true) {line row rest before after : Text}
    (hend : line.cut .tableEnd = some (row, rest)) (hrow : row.occurs .tableBegin = true)
    (hbegin : line.cut .tableBegin = some (before, after)) :
    rule.readLine nowhere tally line =
      Reading.andThen (.idle, [.nested]) (rule.enterTable nowhere line after) := by
  have hclosing : closingRow? line = none := by simp [closingRow?, hend, hrow]
  rw [readLine, if_pos hopen, hclosing, hbegin]

/-- A line that ends with the end of a table and leaves no table open, and that goes on: it is read
as before, and then what it goes on with, unless a table began in the line. -/
theorem readLine_append {line u : Text} (hends : closing <:+ line) (hspecs : OwnSpecs line u)
    (hleft : (rule.readLine nowhere tally line).1.isOpen = false) :
    rule.readLine nowhere tally (line ++ u) =
      (rule.readLine nowhere tally line).andThen (rule.readLater line u) := by
  obtain ⟨row, rest, hend⟩ := exists_cut_of_closing hends
  have hend' := Text.cut_tableEnd_append hend u
  cases hopen : tally.isOpen with
  | false =>
      have outside : ∀ l, rule.readLine nowhere tally l = rule.readOutside nowhere [] l tally := by
        intro l
        rw [readLine, if_neg (by simp [hopen])]
        rfl
      rw [outside] at hleft
      rw [outside, outside]
      exact rule.readOutside_append hends (List.suffix_refl line) hspecs hleft
  | true =>
      cases hrow : row.occurs .tableBegin with
      | false =>
          -- The open table ends first, and the line is read on outside every table.
          have hrest : rest <:+ line := Text.suffix_of_cut_tableEnd hend
          have same : rule.readLater line u = rule.readLater rest u := by
            funext tally
            rw [readLater, readLater, Text.occurs_tableBegin_of_cut hend hrow]
          rw [rule.readLine_of_row hopen hend hrow] at hleft
          rw [rule.readLine_of_row hopen hend' hrow, rule.readLine_of_row hopen hend hrow,
            Reading.andThen_assoc _ (rule.readOutside nowhere [] rest), same]
          refine Reading.andThen_congr ?_
          exact rule.readOutside_append hends hrest hspecs hleft
      | true =>
          -- A table begins first, and the open one is given up.
          obtain ⟨before, after, hbegin, -⟩ := Text.exists_cut_tableBegin_of_row hend hrow
          have here : line.occurs .tableBegin = true := by
            rw [Text.occurs, hbegin, Option.isSome_some]
          have hbegin' := Text.cut_tableBegin_append hbegin u
          rw [rule.readLine_of_nested hopen hend hrow hbegin] at hleft
          rw [rule.readLine_of_nested hopen hend' hrow hbegin',
            rule.readLine_of_nested hopen hend hrow hbegin, rule.readLater_of_occurs here,
            Reading.andThen_done]
          exact Reading.andThen_congr
            (rule.enterTable_append_of_cut (List.suffix_refl line) hspecs hbegin hleft _)

/-! ## Lines one after the other -/

/-- Reads lines one after the other. -/
def readAll : List Text → TableTally → Reading
  | [], tally => (tally, [])
  | line :: rest, tally => (rule.readLine nowhere tally line).andThen (readAll rest)

theorem readAll_eq (first : Nat) (lines : List Text) (tally : TableTally) :
    rule.readAll lines tally =
      ((rule.readLines (fun _ => nowhere) first tally lines).1,
        (rule.readLines (fun _ => nowhere) first tally lines).2.flatten) := by
  induction lines generalizing first tally with
  | nil => rfl
  | cons line rest ih =>
      rw [readAll, Reading.andThen, ih (first + 1), readLines, List.flatten_cons]

theorem readAll_append (lines later : List Text) (tally : TableTally) :
    rule.readAll (lines ++ later) tally =
      (rule.readAll lines tally).andThen (rule.readAll later) := by
  induction lines generalizing tally with
  | nil => rfl
  | cons line rest ih =>
      rw [List.cons_append, readAll, readAll, Reading.andThen_assoc]
      exact Reading.andThen_congr (ih _)

/-- Nothing is read in an empty last piece, so the pieces of a text may be read for its lines. -/
theorem readAll_linesOfPieces (pieces : List Text) (tally : TableTally) :
    rule.readAll ((Text.linesOfPieces pieces).map Text.trimEnd) tally =
      rule.readAll (pieces.map Text.trimEnd) tally := by
  have nothing : rule.readAll [[]] = fun tally => (tally, []) := by
    funext tally
    rw [readAll, readLine_nil]
    rfl
  rcases Text.map_trimEnd_linesOfPieces pieces with same | longer
  · rw [same]
  · rw [longer, readAll_append, nothing, Reading.andThen_done]

/-! ## Messages -/

/-- The messages of the rule on a text, in order. -/
def messages (rule : Alignment) (resource t : Text) : List Text :=
  ((Rule.alignment rule).check (.plain resource t)).map Advisory.message

/-- The message about an event, if it is reported. -/
def Event.message? (event : Event) : Option Text := event.finding?.map Finding.message

/-- Reading without places is reading with places, and forgetting them. -/
theorem readAll_pieces (place : Nat → Nat → Nat → Range) (t : Text) :
    rule.readAll (t.pieces.map Text.trimEnd) .idle =
      ((rule.events place t.lines).1.move fun _ => .origin,
        (rule.events place t.lines).2.flatten.map (Event.move fun _ => .origin)) := by
  have run : rule.readLines (fun _ => nowhere) 0 .idle (t.lines.map Text.trimEnd) =
      ((rule.events place t.lines).1.move fun _ => .origin,
        (rule.events place t.lines).2.map (List.map (Event.move fun _ => .origin))) :=
    rule.readLines_move (fun _ => .origin) place 0 .idle (t.lines.map Text.trimEnd)
  have lines := rule.readAll_linesOfPieces t.pieces .idle
  rw [← lines, List.map_flatten]
  refine (rule.readAll_eq 0 (t.lines.map Text.trimEnd) .idle).trans ?_
  rw [run]

theorem messages_eq (resource t : Text) :
    rule.messages resource t =
      (rule.readAll (t.pieces.map Text.trimEnd) .idle).2.filterMap Event.message? := by
  have forget : Event.message? ∘ Event.move (fun _ => .origin) = Event.message? := by
    funext event
    rw [Function.comp_apply, Event.message?, Event.finding?_move, Option.map_map]
    rfl
  have found : rule.messages resource t =
      (rule.findings (Document.plain resource t).originalRange t.lines).map Finding.message :=
    List.map_map
  rw [found, rule.readAll_pieces (Document.plain resource t).originalRange, List.filterMap_map,
    forget, findings, List.map_filterMap]
  rfl

/-! ## Two texts -/

theorem trimEnd_append_of_closing {line : Text} (hends : closing <:+ line) (u : Text) :
    (line ++ u).trimEnd = line ++ u.trimEnd := by
  obtain ⟨s, rfl⟩ := hends
  have brace : s ++ closing = s ++ closing.dropLast ++ ['}'] := by
    rw [List.append_assoc]
    rfl
  rw [brace]
  exact Text.dropTrailing_concat_append (by decide) _ u

theorem OwnSpecs.trimEnd {line later : Text} (h : OwnSpecs line later) :
    OwnSpecs line later.trimEnd := by
  intro s hs after hafter hnone
  obtain ⟨tail, whole, -⟩ := Text.exists_dropTrailing_append isBlank later
  have longer := h s hs after hafter hnone
  cases hshort : Recogniser.specOpening (after ++ later.trimEnd) with
  | none => rfl
  | some inner =>
      have found := Recogniser.specOpening_append hshort tail
      rw [List.append_assoc, Text.trimEnd, ← whole, longer] at found
      exact absurd found (by simp)

/-- The line at the joint is read in two parts, between the lines before it and those after it. -/
theorem readAll_joined {init rest : List Text} {line first : Text} (hends : closing <:+ line)
    (hspecs : OwnSpecs line first)
    (hleft : (rule.readAll ((init ++ [line]).map Text.trimEnd) tally).1.isOpen = false) :
    rule.readAll ((init ++ (line ++ first) :: rest).map Text.trimEnd) tally =
      ((rule.readAll ((init ++ [line]).map Text.trimEnd) tally).andThen
          (rule.readLater line first.trimEnd)).andThen
        (rule.readAll (rest.map Text.trimEnd)) := by
  have trimmed : line.trimEnd = line := by
    have := trimEnd_append_of_closing hends []
    rw [List.append_nil] at this
    exact this.trans (List.append_nil line)
  have untilJoint : rule.readAll ((init ++ [line]).map Text.trimEnd) tally =
      (rule.readAll (init.map Text.trimEnd) tally).andThen
        fun tally => rule.readLine nowhere tally line := by
    rw [List.map_append, readAll_append, List.map_singleton, trimmed]
    exact Reading.andThen_congr (Reading.andThen_done _)
  rw [untilJoint] at hleft
  rw [untilJoint, List.map_append, readAll_append, List.map_cons,
    trimEnd_append_of_closing hends, Reading.andThen_assoc, Reading.andThen_assoc]
  refine Reading.andThen_congr ?_
  rw [readAll, rule.readLine_append hends hspecs.trimEnd hleft, Reading.andThen_assoc]

theorem exists_pieces_of_closing {a : Text} (hends : closing <:+ a) :
    ∃ (init : List Text) (line : Text), a.pieces = init ++ [line] ∧ closing <:+ line := by
  obtain ⟨s, rfl⟩ := hends
  have hs : Text.pieces s = (Text.pieces s).dropLast ++
      [(Text.pieces s).getLast (Text.pieces_ne_nil s)] :=
    (List.dropLast_append_getLast _).symm
  have ha : Text.pieces (s ++ closing) = _ := Text.pieces_append hs rfl
  exact ⟨_, _, ha, List.suffix_append _ _⟩

theorem cut_trimEnd_eq_none {t : Text} (h : t.occurs .tableBegin = false) :
    t.trimEnd.cut .tableBegin = none := by
  obtain ⟨tail, whole, -⟩ := Text.exists_dropTrailing_append isBlank t
  cases hcut : t.trimEnd.cut .tableBegin with
  | none => rfl
  | some found =>
      have longer := Text.cut_tableBegin_append hcut tail
      rw [Text.trimEnd, ← whole, Text.occurs_eq_false.mp h] at longer
      exact absurd longer (by simp)

theorem readAll_pieces_idle {place : Nat → Nat → Nat → Range} {t : Text}
    (hidle : (rule.events place t.lines).1.isOpen = false) :
    (rule.readAll (t.pieces.map Text.trimEnd) .idle).1 = .idle := by
  have wellFormed : (rule.events place t.lines).1.WellFormed :=
    wellFormed_readLines TableTally.wellFormed_idle 0 _
  have idle : (rule.events place t.lines).1 = .idle := wellFormed.eq_idle hidle
  rw [rule.readAll_pieces place, idle]
  rfl

/-- The messages on two texts: those on the first, and those on the rest of the line at the joint
and on the lines after it. -/
theorem messages_joined {resource a b : Text} {init rest : List Text} {line first : Text}
    (ha : a.pieces = init ++ [line]) (hb : b.pieces = first :: rest) (hends : closing <:+ line)
    (hidle : (rule.events (Document.plain resource a).originalRange a.lines).1.isOpen = false)
    (hspecs : OwnSpecs line first) :
    rule.messages resource (a ++ b) = rule.messages resource a ++
      ((rule.readLater line first.trimEnd .idle).andThen
        (rule.readAll (rest.map Text.trimEnd))).2.filterMap Event.message? := by
  have idle := rule.readAll_pieces_idle hidle
  have left : (rule.readAll ((init ++ [line]).map Text.trimEnd) .idle).1.isOpen = false := by
    rw [← ha, idle]
    rfl
  rw [messages_eq, messages_eq, Text.pieces_append ha hb, rule.readAll_joined hends hspecs left,
    ← ha, Reading.andThen_assoc, Reading.andThen, List.filterMap_append, idle]

/-- A text that ends with the end of a table, and after which no table is open, and any text: if no
table begins both in the last line of the one and in the first line of the other, the messages on
both together are those on the one and those on the other.  If a table begins in the last line of
the first text, the first line of the second is not read. -/
theorem messages_append (resource : Text) {a b : Text} (hends : closing <:+ a)
    (hidle : (rule.events (Document.plain resource a).originalRange a.lines).1.isOpen = false)
    (hspecs : OwnSpecs a.lastPiece b.firstPiece) :
    (a.lastPiece.occurs .tableBegin = false ∨ b.firstPiece.occurs .tableBegin = false →
      rule.messages resource (a ++ b) = rule.messages resource a ++ rule.messages resource b) ∧
    (a.lastPiece.occurs .tableBegin = true →
      rule.messages resource (a ++ b) =
        rule.messages resource a ++ rule.messages resource (b.dropWhile (· != '\n'))) := by
  obtain ⟨init, line, ha, hline⟩ := exists_pieces_of_closing hends
  obtain ⟨first, rest, hb⟩ := List.exists_cons_of_ne_nil (Text.pieces_ne_nil b)
  have last : a.lastPiece = line := by simp [Text.lastPiece, ha]
  have start : b.firstPiece = first := by simp [Text.firstPiece, hb]
  rw [last, start] at hspecs ⊢
  have joined := rule.messages_joined ha hb hline hidle hspecs
  constructor
  · intro hbegin
    have whole : rule.readLater line first.trimEnd .idle =
        rule.readLine nowhere .idle first.trimEnd := by
      show _ = rule.readOutside nowhere [] first.trimEnd .idle
      cases hhere : line.occurs .tableBegin with
      | false => rw [rule.readLater_of_not_occurs hhere]
      | true =>
          have hfirst := hbegin.resolve_left (by simp [hhere])
          rw [rule.readLater_of_occurs hhere, readOutside, cut_trimEnd_eq_none hfirst]
    rw [joined, rule.messages_eq resource b, hb, List.map_cons, readAll, whole]
  · intro hhere
    rw [joined, rule.messages_eq resource (b.dropWhile _), Text.pieces_dropWhile hb, List.map_cons,
      readAll, rule.readLater_of_occurs hhere]
    rfl

/-- A line that ends one table and begins another, and two tables in one line. -/
theorem messages_append_tables :
    let rule : Alignment := ⟨0.5, ['S']⟩
    let lines : Text := "\\begin\x7btabular\x7d\x7bc\x7d\n1 \\\\\n\\end\x7btabular\x7d".toList
    let line : Text := "\\begin\x7btabular\x7d\x7bc\x7d 1 \\\\ \\end\x7btabular\x7d".toList
    (∀ a ∈ [lines, line], closing <:+ a ∧
      (rule.events (Document.plain "t.tex".toList a).originalRange a.lines).1.isOpen = false ∧
      OwnSpecs a.lastPiece line.firstPiece) ∧
    Text.occurs .tableBegin lines.lastPiece = false ∧
    Text.occurs .tableBegin line.lastPiece = true ∧
    rule.messages "t.tex".toList (lines ++ line) =
      rule.messages "t.tex".toList lines ++ rule.messages "t.tex".toList line ∧
    rule.messages "t.tex".toList (line ++ line) =
      rule.messages "t.tex".toList line ++
        rule.messages "t.tex".toList (line.dropWhile (· != '\n')) := by
  intro rule lines line
  have conditions : ∀ a ∈ [lines, line], closing <:+ a ∧
      (rule.events (Document.plain "t.tex".toList a).originalRange a.lines).1.isOpen = false ∧
      OwnSpecs a.lastPiece line.firstPiece := by
    decide +kernel
  have ends : Text.occurs .tableBegin lines.lastPiece = false := by decide +kernel
  have begins : Text.occurs .tableBegin line.lastPiece = true := by decide +kernel
  obtain ⟨hends, hidle, hspecs⟩ := conditions lines (by simp)
  obtain ⟨hends', hidle', hspecs'⟩ := conditions line (by simp)
  exact ⟨conditions, ends, begins,
    (rule.messages_append "t.tex".toList hends hidle hspecs).1 (Or.inl ends),
    (rule.messages_append "t.tex".toList hends' hidle' hspecs').2 begins⟩

/-- Of two tables in one line, each of which is reported where it stands alone, one is reported. -/
theorem messages_append_one_line :
    let rule : Alignment := ⟨0.5, ['S']⟩
    let line : Text := "\\begin\x7btabular\x7d\x7bc\x7d1\\\\\\end\x7btabular\x7d".toList
    closing <:+ line ∧
      (rule.events (Document.plain "t.tex".toList line).originalRange line.lines).1.isOpen = false ∧
      rule.messages "t.tex".toList line = [alignMessage] ∧
      rule.messages "t.tex".toList (line ++ line) = [alignMessage] ∧
      rule.messages "t.tex".toList (line ++ line) ≠
        rule.messages "t.tex".toList line ++ rule.messages "t.tex".toList line := by
  intro rule line
  have alone : rule.messages "t.tex".toList line = [alignMessage] := by decide +kernel
  have together : rule.messages "t.tex".toList (line ++ line) = [alignMessage] := by
    decide +kernel
  refine ⟨by decide, by decide +kernel, alone, together, ?_⟩
  rw [alone, together]
  decide

end Alignment

end NumeralLint
