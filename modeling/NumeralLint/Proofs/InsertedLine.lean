/-
A line that holds nothing of a table.

Where no table begins or ends and no row ends, the rule on tables reads on with
the tally it had (`readLine_of_isTableFree`), so such a line may be inserted
anywhere, also in the middle of a table.  The lines after it get numbers that
are one higher, and that is the only way in which a place can see the new line:
the range of a column specification was made when its table was entered, with
the number that the line had then.  So no relation between the tallies of the
two runs is needed: the run with the new line is the run without it under
another numbering of the lines (`findings_insertLine`), and numberings only move
what is found (`findings_move`).
-/
import NumeralLint.Proofs.Source.Index
import NumeralLint.Proofs.Table.WholeTable
import NumeralLint.Proofs.Text.Parity
import NumeralLint.Proofs.TrailingBlanks

namespace NumeralLint

/-- Where a position is once a line was inserted before line `n`. -/
def Position.insertLine (n : Nat) (p : Position) : Position :=
  if p.line < n then p else p.addLines 1

theorem Position.line_insertLine (n : Nat) (p : Position) :
    (p.insertLine n).line = if p.line < n then p.line else p.line + 1 := by
  rw [insertLine]
  split <;> rfl

/-- The advisory in a text into which a line was inserted before line `n`: the line starts at the
offset `place` and has `size` bytes with its ending. -/
def Advisory.insertLine (n place size : Nat) (a : Advisory) : Advisory :=
  { a with
    range := a.range.map (.insertLine n)
    offset := if a.offset < place then a.offset else a.offset + size }

namespace Text

/-- No table begins or ends in the line, and no row ends in it. -/
structure IsTableFree (line : Text) : Prop where
  noBegin : line.occurs .tableBegin = false
  noEnd : line.occurs .tableEnd = false
  noRow : line.terminators = 0

instance (line : Text) : Decidable line.IsTableFree :=
  decidable_of_iff (_ ∧ _ ∧ _)
    ⟨fun ⟨noBegin, noEnd, noRow⟩ => ⟨noBegin, noEnd, noRow⟩, fun h => ⟨h.noBegin, h.noEnd, h.noRow⟩⟩

theorem IsTableFree.of_prefix {t line : Text} (ht : t <+: line) (h : line.IsTableFree) :
    t.IsTableFree := by
  obtain ⟨u, rfl⟩ := ht
  have notFound : ∀ {r : Recogniser}, occurs r (t ++ u) = false →
      (∀ found, cut r t = some found → (cut r (t ++ u)).isSome = true) → occurs r t = false := by
    intro r hnone hlonger
    refine occurs_eq_false.mpr (Option.eq_none_iff_forall_ne_some.mpr fun found hfound => ?_)
    exact Bool.false_ne_true (hnone.symm.trans (hlonger found hfound))
  refine ⟨notFound h.noBegin ?_, notFound h.noEnd ?_, List.count_eq_zero.mpr fun hmem => ?_⟩
  · intro found hfound
    rw [cut_tableBegin_append hfound u]
    rfl
  · intro found hfound
    rw [cut_tableEnd_append hfound u]
    rfl
  · have notLone : Atom.rowTerminator ≠ .plain '\\' := by decide
    obtain ⟨as, bs, hatoms⟩ := List.append_of_mem hmem
    obtain ⟨heven, after, hparts⟩ := (exists_atoms_iff notLone).mp ⟨as, bs, hatoms, rfl⟩
    have longer : t ++ u = spell as ++ Atom.rowTerminator.text ++ (after ++ u) := by
      rw [← List.append_assoc, ← hparts]
    obtain ⟨as', bs', hatoms', -⟩ := (exists_atoms_iff notLone).mpr ⟨heven, _, longer⟩
    refine List.count_eq_zero.mp h.noRow ?_
    rw [hatoms']
    exact List.mem_append_right _ List.mem_cons_self

end Text

/-! ## Findings -/

namespace Alignment

variable (rule : Alignment)

theorem readLine_of_isTableFree {line : Text} (h : line.IsTableFree) (place : Nat → Nat → Range)
    (tally : TableTally) : rule.readLine place tally line = (tally, []) := by
  cases hopen : tally.isOpen with
  | true =>
      rw [rule.readLine_body place hopen h.noBegin h.noEnd, readRow]
      rcases line.terminator_cases with ⟨-, places⟩ | ⟨more, -, -, -, -, count⟩
      · rw [places]
      · exact absurd (h.noRow.symm.trans count) (by simp)
  | false =>
      have nothing : line.cut .tableBegin = none := Text.occurs_eq_false.mp h.noBegin
      simp [readLine, hopen, readOutside, nothing]

theorem readLines_congr {place place' : Nat → Nat → Nat → Range} {first : Nat} (tally : TableTally)
    {lines : List Text} (h : ∀ n, first ≤ n → n < first + lines.length → place n = place' n) :
    rule.readLines place first tally lines = rule.readLines place' first tally lines := by
  induction lines generalizing first tally with
  | nil => rfl
  | cons line rest ih =>
      have here : place first = place' first := h first (Nat.le_refl _) (by simp)
      have later : ∀ n, first + 1 ≤ n → n < first + 1 + rest.length → place n = place' n := by
        intro n hfirst hlast
        exact h n (by omega) (by rw [List.length_cons]; omega)
      rw [readLines, here, ih _ later, readLines]

/-- With one more line that holds nothing of a table, the rule finds what it finds without it, where
the lines after it have the next number. -/
theorem findings_insertLine (place : Nat → Nat → Nat → Range) {line : Text}
    (hline : line.trimEnd.IsTableFree) (above below : List Text) :
    rule.findings place (above ++ line :: below) =
      rule.findings (fun n => place (if n < above.length then n else n + 1)) (above ++ below) := by
  have before : ∀ tally, rule.readLines place 0 tally (above.map Text.trimEnd) =
      rule.readLines (fun n => place (if n < above.length then n else n + 1)) 0 tally
        (above.map Text.trimEnd) := by
    intro tally
    refine rule.readLines_congr tally fun n _ hlast => ?_
    rw [List.length_map, Nat.zero_add] at hlast
    rw [if_pos hlast]
  have after : ∀ tally, rule.readLines place (above.length + 1) tally (below.map Text.trimEnd) =
      rule.readLines (fun n => place (if n < above.length then n else n + 1)) above.length tally
        (below.map Text.trimEnd) := by
    intro tally
    rw [readLines_add]
    refine rule.readLines_congr tally fun n hfirst _ => ?_
    rw [if_neg (Nat.not_lt.mpr hfirst)]
  simp only [findings, events, List.map_append, List.map_cons, readLines_append, readLines,
    rule.readLine_of_isTableFree hline, List.length_map, Nat.zero_add, before, after,
    List.flatten_append, List.flatten_cons, List.nil_append]

theorem preparedFindings_insertLine {line : Text} (hline : line.trimEnd.IsTableFree)
    (above below : List Text) :
    (Rule.alignment rule).preparedFindings (above ++ line :: below) =
      ((Rule.alignment rule).preparedFindings (above ++ below)).map
        (Finding.move (Range.map (.insertLine above.length))) := by
  have moved : (fun n => Range.ofLine (if n < above.length then n else n + 1)) =
      fun n start stop => (Range.ofLine n start stop).map (.insertLine above.length) := by
    funext n start stop
    by_cases h : n < above.length <;>
      simp [Range.ofLine, Range.map, Position.insertLine, Position.addLines, h]
  show rule.findings Range.ofLine (above ++ line :: below) = _
  rw [rule.findings_insertLine Range.ofLine hline, moved]
  exact rule.findings_move (Range.map (.insertLine above.length)) Range.ofLine (above ++ below)

end Alignment

/-! ## The line index -/

namespace LineIndex

open Text

theorem end_lt_of_mem_linesFrom {start : Nat} {ps : List Text} {line : IndexedLine}
    (h : line ∈ linesFrom start ps) :
    line.start + line.body.width < start + width (joinPieces (ps ++ [[]])) := by
  induction ps generalizing start with
  | nil => exact absurd h List.not_mem_nil
  | cons piece rest ih =>
      have feed : Char.utf8Size '\n' = 1 := rfl
      have size : width (joinPieces (piece :: rest ++ [[]])) =
          piece.width + (1 + width (joinPieces (rest ++ [[]]))) := by
        rw [List.cons_append, joinPieces_cons (by simp), width_append, width_cons, feed]
      rw [size]
      rcases List.mem_cons.mp h with rfl | h
      · have body := width_pieceBody_le piece
        show start + piece.pieceBody.width < _
        omega
      · have later := ih h
        omega

variable {t t' line : Text} {front back : List Text}

/-- The lines before an inserted line keep their numbers, and those after it get the next ones and
start further down. -/
theorem getElem?_lines_insertLine (ht : t.pieces = front ++ back)
    (ht' : t'.pieces = front ++ line :: back) (l : Nat) :
    (ofText t').lines[if l < front.length then l else l + 1]? =
      (ofText t).lines[l]?.map fun found =>
        if l < front.length then found else ⟨line.width + 1 + found.start, found.body⟩ := by
  have count : (linesFrom 0 front).length = front.length := length_linesFrom 0 front
  simp only [ofText, ht, ht', linesFrom_append, linesFrom]
  split
  · next hl =>
      rw [List.getElem?_append_left (by omega), List.getElem?_append_left (by omega)]
      simp
  · next hl =>
      have past : l + 1 - (linesFrom 0 front).length = l - (linesFrom 0 front).length + 1 := by omega
      have start : ∀ n : Nat, n + line.width + 1 = line.width + 1 + n := by omega
      rw [List.getElem?_append_right (by omega), List.getElem?_append_right (by omega), past,
        List.getElem?_cons_succ, start, linesFrom_add, List.getElem?_map]

theorem body_insertLine (ht : t.pieces = front ++ back) (ht' : t'.pieces = front ++ line :: back)
    (l : Nat) : (ofText t').body (if l < front.length then l else l + 1) = (ofText t).body l := by
  rw [body, body, getElem?_lines_insertLine ht ht']
  cases (ofText t).lines[l]? with
  | none => rfl
  | some found =>
      dsimp only [Option.map_some]
      split <;> rfl

theorem offset_lt_iff (ht : t.pieces = front ++ back) {p : Position}
    (hp : p.line < t.pieces.length) :
    (ofText t).offset p < width (joinPieces (front ++ [[]])) ↔ p.line < front.length := by
  obtain ⟨found, -, -, hfound, -⟩ := exists_line (List.getElem?_eq_getElem hp)
  have place : (ofText t).offset p = found.start + min p.column found.body.width := by
    rw [offset, hfound]
  rw [ofText, ht, linesFrom_append, Nat.zero_add] at hfound
  have count : (linesFrom 0 front).length = front.length := length_linesFrom 0 front
  by_cases hl : p.line < front.length
  · rw [List.getElem?_append_left (by omega)] at hfound
    have ends := end_lt_of_mem_linesFrom (List.mem_of_getElem? hfound)
    exact iff_of_true (by omega) hl
  · rw [List.getElem?_append_right (by omega)] at hfound
    have starts := le_start_of_mem_linesFrom (List.mem_of_getElem? hfound)
    exact iff_of_false (by omega) hl

theorem offset_insertLine (ht : t.pieces = front ++ back) (ht' : t'.pieces = front ++ line :: back)
    {p : Position} (hp : p.line < t.pieces.length) :
    (ofText t').offset (p.insertLine front.length) =
      if p.line < front.length then (ofText t).offset p
      else (ofText t).offset p + (line.width + 1) := by
  obtain ⟨found, -, -, hfound, -⟩ := exists_line (List.getElem?_eq_getElem hp)
  have moved := getElem?_lines_insertLine ht ht' p.line
  rw [hfound, Option.map_some] at moved
  by_cases hl : p.line < front.length
  · rw [if_pos hl, if_pos hl] at moved
    rw [if_pos hl, Position.insertLine, if_pos hl, offset, offset, moved, hfound]
  · rw [if_neg hl, if_neg hl] at moved
    rw [if_neg hl, Position.insertLine, if_neg hl, Position.addLines, offset, offset, moved, hfound]
    dsimp only
    omega

end LineIndex

/-! ## Reports -/

theorem Advisory.insertLine_of_lt {n place size : Nat} {a : Advisory}
    (hstart : a.range.start.line < n) (hstop : a.range.stop.line < n) (hoffset : a.offset < place) :
    a.insertLine n place size = a := by
  rw [insertLine, Range.map, Position.insertLine, Position.insertLine, if_pos hstart, if_pos hstop,
    if_pos hoffset]

theorem Text.length_lines_le (t : Text) : t.lines.length ≤ t.pieces.length := by
  have counts : ∀ {ps lines : List Text}, ps.map trimEnd = lines.map trimEnd →
      ps.length = lines.length := by
    intro ps lines h
    simpa using congrArg List.length h
  rcases map_trimEnd_linesOfPieces t.pieces with h | h
  · exact (counts h).ge
  · have concat : t.pieces.map trimEnd = (t.lines ++ [[]]).map trimEnd := by
      rw [List.map_append]
      exact h
    rw [counts concat, List.length_append]
    exact Nat.le_add_right _ _

namespace Rule

variable {rule : Rule} {resource original prepared : Text}

theorem line_of_mem_findings {finding : Finding}
    (h : finding ∈ rule.findings (.inPlace resource original prepared)) :
    finding.range.start.line < prepared.pieces.length ∧
      finding.range.stop.line = finding.range.start.line := by
  refine ⟨(line_lt_of_mem_findings h).trans_le prepared.length_lines_le, ?_⟩
  obtain ⟨before, marked, after, ⟨n, -, hrange⟩, -⟩ := exists_markedIn h
  rw [hrange]
  rfl

end Rule

namespace Alignment

variable (rule : Alignment) {resource t t' p p' line : Text} {front back : List Text}
  {prepare : Text → Text}

/-- The reports on a text whose pieces are prepared each by itself, with one more piece that holds
nothing of a table once it is prepared. -/
theorem check_insertPiece (ht : t.pieces = front ++ back) (ht' : t'.pieces = front ++ line :: back)
    (hp : p.pieces = t.pieces.map prepare) (hp' : p'.pieces = t'.pieces.map prepare)
    (hline : (prepare line).trimEnd.IsTableFree) :
    (Rule.alignment rule).check (.inPlace resource t' p') =
      ((Rule.alignment rule).check (.inPlace resource t p)).map
        (.insertLine front.length (Text.joinPieces (front ++ [[]])).width (line.width + 1)) := by
  have found : (Rule.alignment rule).findings (.inPlace resource t' p') =
      ((Rule.alignment rule).findings (.inPlace resource t p)).map
        (Finding.move (Range.map (.insertLine front.length))) := by
    have more := rule.preparedFindings_insertLine hline (front.map prepare) (back.map prepare)
    rw [← List.map_cons, ← List.map_append, ← ht', ← hp', ← List.map_append, ← ht, ← hp,
      List.length_map, Rule.preparedFindings_pieces, Rule.preparedFindings_pieces] at more
    exact more
  rw [Rule.check, found, Document.advisories, List.map_map, Rule.check, Document.advisories,
    List.map_map]
  refine List.map_congr_left fun finding hfinding => ?_
  have inside : finding.range.start.line < t.pieces.length := by
    have bound := (Rule.line_of_mem_findings hfinding).1
    rwa [hp, List.length_map] at bound
  have body : (LineIndex.ofText t').body (finding.range.start.insertLine front.length).line =
      (LineIndex.ofText t).body finding.range.start.line := by
    rw [Position.line_insertLine]
    exact LineIndex.body_insertLine ht ht' _
  have offset := LineIndex.offset_insertLine ht ht' inside
  rw [← if_congr (LineIndex.offset_lt_iff ht inside) rfl rfl] at offset
  exact congrArg₂ (Advisory.mk _ _ finding.message resource) body offset

theorem insertLine_of_mem_check (ht : t.pieces = front ++ back)
    (hp : p.pieces = t.pieces.map prepare) {a : Advisory}
    (ha : a ∈ (Rule.alignment rule).check (.inPlace resource t p))
    (habove : a.range.start.line < front.length) (size : Nat) :
    a.insertLine front.length (Text.joinPieces (front ++ [[]])).width size = a := by
  obtain ⟨finding, hfinding, rfl⟩ := List.mem_map.mp ha
  obtain ⟨hpiece, hstop⟩ := Rule.line_of_mem_findings hfinding
  rw [hp, List.length_map] at hpiece
  have offset := (LineIndex.offset_lt_iff ht hpiece).mpr habove
  exact Advisory.insertLine_of_lt habove (hstop ▸ habove) offset

end Alignment

/-! ## Texts with one line more -/

theorem Document.exists_prepare {document : Text → Text → Document}
    (h : document = .plain ∨ document = .uncommented) :
    ∃ prepare : Text → Text, (∀ line, (prepare line).trimEnd <+: line) ∧
      ∀ resource t, ∃ p, document resource t = .inPlace resource t p ∧
        p.pieces = t.pieces.map prepare := by
  rcases h with rfl | rfl
  · refine ⟨id, fun line => Text.prefix_dropTrailing _ line, fun resource t => ⟨t, rfl, ?_⟩⟩
    exact (List.map_id _).symm
  · refine ⟨Text.uncommentPiece, fun line => ?_, fun resource t =>
      ⟨t.withoutComments, rfl, Text.pieces_withoutComments t⟩⟩
    have kept : line.uncommentPiece.trimEnd = (line.pieceBody.beforeAtom .commentSign).trimEnd :=
      Text.trimEnd_append_blanks (fun _ => Text.isBlank_of_mem_pieceReturns) _
    rw [kept]
    exact ((Text.prefix_dropTrailing _ _).trans (Text.beforeAtom_isPrefix _ _)).trans
      (Text.prefix_dropTrailing _ _)

theorem Text.pieces_append_line {line : Text} (hline : '\n' ∉ line) (t : Text) :
    (t ++ '\n' :: line).pieces = t.pieces ++ [line] := by
  obtain ⟨init, last, hlast⟩ : ∃ init last, t.pieces = init ++ [last] :=
    ⟨_, _, (List.dropLast_concat_getLast (Text.pieces_ne_nil t)).symm⟩
  have feed : Text.pieces ('\n' :: line) = [] :: [line] := by
    rw [← Text.pieces_of_noFeed hline]
    exact Text.pieces_append_feed List.not_mem_nil line
  rw [Text.pieces_append hlast feed, hlast, List.append_nil, List.append_assoc, List.singleton_append]

namespace Alignment

/-- A line in which no table begins or ends and no row ends may be inserted before any line, or after
the last: the rule on tables reports what it reports without the line.  The reports on the lines
after it stand one line, and as many bytes as it has, further down.  Those before it stay as they
are, and so does the report on a table that is entered before the line and left after it.  This holds
of the texts as they are and of the texts without their comments. -/
theorem check_insertLine (rule : Alignment) (resource : Text) {document : Text → Text → Document}
    (hdocument : document = .plain ∨ document = .uncommented) {line : Text} (hfeed : '\n' ∉ line)
    (hline : line.IsTableFree) :
    (∀ above below : Text, (above = [] ∨ ∃ s, above = s ++ ['\n']) →
      (Rule.alignment rule).check (document resource (above ++ (line ++ '\n' :: below))) =
          ((Rule.alignment rule).check (document resource (above ++ below))).map
            (.insertLine above.lines.length above.width (line.width + 1)) ∧
        ∀ a ∈ (Rule.alignment rule).check (document resource (above ++ below)),
          a.range.start.line < above.lines.length →
            a ∈ (Rule.alignment rule).check
              (document resource (above ++ (line ++ '\n' :: below)))) ∧
    ∀ t : Text, (Rule.alignment rule).check (document resource (t ++ '\n' :: line)) =
      (Rule.alignment rule).check (document resource t) := by
  obtain ⟨prepare, begins, prepared⟩ := Document.exists_prepare hdocument
  have free : (prepare line).trimEnd.IsTableFree := hline.of_prefix (begins line)
  constructor
  · intro above below habove
    have whole : above.IsWholeLines := habove
    obtain ⟨init, hinit⟩ := whole.exists_pieces
    have count : init.length = above.lines.length := by
      rw [Text.lines_of_pieces hinit, List.length_map]
    have place : (Text.joinPieces (init ++ [[]])).width = above.width := by
      rw [← hinit, Text.joinPieces_pieces]
    have ht := Text.pieces_append_of_pieces hinit below
    have ht' := Text.pieces_append_of_pieces hinit (line ++ '\n' :: below)
    rw [Text.pieces_append_feed hfeed] at ht'
    obtain ⟨p, hdoc, hp⟩ := prepared resource (above ++ below)
    obtain ⟨p', hdoc', hp'⟩ := prepared resource (above ++ (line ++ '\n' :: below))
    rw [hdoc, hdoc', ← count, ← place, rule.check_insertPiece ht ht' hp hp' free]
    refine ⟨rfl, fun a ha habove => List.mem_map.mpr ⟨a, ha, ?_⟩⟩
    exact rule.insertLine_of_mem_check ht hp ha habove _
  · intro t
    obtain ⟨p, hdoc, hp⟩ := prepared resource t
    obtain ⟨p', hdoc', hp'⟩ := prepared resource (t ++ '\n' :: line)
    have ht : t.pieces = t.pieces ++ [] := (List.append_nil _).symm
    have ht' := Text.pieces_append_line hfeed t
    rw [hdoc, hdoc', rule.check_insertPiece ht ht' hp hp' free]
    refine (List.map_congr_left fun a ha => ?_).trans (List.map_id _)
    have inside : a.range.start.line < t.pieces.length := by
      obtain ⟨finding, hfinding, rfl⟩ := List.mem_map.mp ha
      have bound := (Rule.line_of_mem_findings hfinding).1
      rwa [hp, List.length_map] at bound
    exact rule.insertLine_of_mem_check ht hp ha inside _

/-- A rule and a comment, inserted into a table that is reported; behind it a row of another table is
reported. -/
theorem check_insertLine_hline :
    let rule : Alignment := ⟨0.5, ['S']⟩
    let check : Text → List Advisory := fun t =>
      (Rule.alignment rule).check (.uncommented "t.tex".toList t)
    let above : Text := "é\n\\begin\x7btabular\x7d\x7bc\x7d\r\n".toList
    let below : Text :=
      "1 \\\\\n\\end\x7btabular\x7d\\begin\x7btabular\x7d\x7bcc\x7d\n3\\\\".toList
    let line : Text := "\\hline \\% % é\r".toList
    ((above = [] ∨ ∃ s, above = s ++ ['\n']) ∧ '\n' ∉ line ∧ line.IsTableFree ∧
      (check (above ++ below)).map (fun a => (a.range.start.line, a.offset)) =
        [(1, 19), (4, 61)]) ∧
    (check (above ++ (line ++ '\n' :: below)) = (check (above ++ below)).map
        (.insertLine above.lines.length above.width (line.width + 1)) ∧
      ∀ a ∈ check (above ++ below), a.range.start.line < above.lines.length →
        a ∈ check (above ++ (line ++ '\n' :: below))) ∧
    check (above ++ below ++ '\n' :: line) = check (above ++ below) := by
  intro rule check above below line
  have whole : above = [] ∨ ∃ s, above = s ++ ['\n'] := Or.inr ⟨above.dropLast, by decide +kernel⟩
  have noFeed : '\n' ∉ line := by decide +kernel
  have free : line.IsTableFree := by decide +kernel
  obtain ⟨between, last⟩ :=
    rule.check_insertLine "t.tex".toList (Or.inr rfl) noFeed free
  exact ⟨⟨whole, noFeed, free, by decide +kernel⟩, between above below whole, last (above ++ below)⟩

end Alignment

end NumeralLint
