/-
The carets under the line of an advisory.

Columns count bytes and carets count characters.  Both columns are first
brought into the line, the second one not before the first, so that the bytes
between them can be counted whatever range an advisory has, and are counted
for the characters where a column falls inside one (`render?_eq`).  Where the
columns are boundaries of characters they cut the line into the part before
the range, the part in it and the part after it, and the carets repeat the
lengths of the first two (`caretRow_eq`).  The advisories of a check have such
columns, so their carets stand under the text that is meant
(`PointsAt.caretRow_eq`).
-/
import NumeralLint.Advisory.Render
import NumeralLint.Proofs.Source.Pointing

namespace NumeralLint

/-! ## Steps that can fail -/

/-- The number from `low` to `high` that is nearest to `n`, if there are numbers from `low` to
`high`. -/
def clamp? (low high n : Nat) : Option Nat :=
  if low ≤ high then some (max low (min n high)) else none

/-- What is left of a number, if it is not less than what is taken from it. -/
def difference? (stop start : Nat) : Option Nat :=
  if start ≤ stop then some (stop - start) else none

namespace Advisory

/-- The number of characters between two places of a line, where the number of bytes is worked out
before the slice is tried. -/
def charsBetween? (line : Text) (start stop : Nat) : Option Nat :=
  (difference? stop start).map fun bytes =>
    ((line.part? start stop).map List.length).getD bytes

def caretStop? (a : Advisory) : Option Nat :=
  if a.range.stop.line = a.range.start.line then
    clamp? a.caretStart a.line.width a.range.stop.column
  else some a.line.width

def caretRow? (a : Advisory) : Option Text :=
  a.caretStop?.bind fun stop =>
    (charsBetween? a.line 0 a.caretStart).bind fun indent =>
      (charsBetween? a.line a.caretStart stop).map fun carets =>
        List.replicate indent ' ' ++ List.replicate (max 1 carets) '^'

/-- An advisory with its line and the carets, if every step on the way to them can be taken. -/
def render? (a : Advisory) : Option Text :=
  a.caretRow?.map fun row =>
    a.headline ++ "\n  ".toList ++ a.line ++ "\n  ".toList ++ row

variable (a : Advisory)

theorem caretStart_le_width : a.caretStart ≤ a.line.width := Nat.min_le_right _ _

theorem caretStart_le_caretStop : a.caretStart ≤ a.caretStop := by
  rw [caretStop]
  split
  · exact Nat.le_max_left _ _
  · exact a.caretStart_le_width

theorem caretStop?_eq : a.caretStop? = some a.caretStop := by
  rw [caretStop?, caretStop]
  split
  · rw [clamp?, if_pos a.caretStart_le_width]
  · rfl

theorem charsBetween?_eq {line : Text} {start stop : Nat} (h : start ≤ stop) :
    charsBetween? line start stop = some (charsBetween line start stop) := by
  rw [charsBetween?, charsBetween, difference?, if_pos h, Option.map_some, Text.part?, if_pos h]

theorem caretRow?_eq : a.caretRow? = some a.caretRow := by
  rw [caretRow?, caretRow, a.caretStop?_eq, Option.bind_some, charsBetween?_eq (Nat.zero_le _),
    Option.bind_some, charsBetween?_eq a.caretStart_le_caretStop, Option.map_some]

/-- No step fails, whatever range the advisory has. -/
theorem render?_eq : a.render? = some a.render := by
  rw [render?, render, a.caretRow?_eq, Option.map_some]

/-! ## The row of carets -/

theorem charsBetween_append (s m u : Text) :
    charsBetween (s ++ m ++ u) s.width (s ++ m).width = m.length := by
  rw [charsBetween, Text.width_append, Text.slice?_append]
  rfl

theorem caretRow_eq {a : Advisory} {before marked after : Text}
    (hline : a.line = before ++ marked ++ after) (hstart : before.width = a.caretStart)
    (hstop : (before ++ marked).width = a.caretStop) :
    a.caretRow =
      List.replicate before.length ' ' ++ List.replicate (max 1 marked.length) '^' := by
  have indent : charsBetween a.line 0 a.caretStart = before.length := by
    have counted := charsBetween_append [] before (marked ++ after)
    rwa [List.nil_append, ← List.append_assoc, ← hline, hstart] at counted
  have carets : charsBetween a.line a.caretStart a.caretStop = marked.length := by
    rw [hline, ← hstart, ← hstop, charsBetween_append]
  rw [caretRow, indent, carets]

theorem feed_not_mem_caretRow : '\n' ∉ a.caretRow := by
  intro hmem
  rcases List.mem_append.mp hmem with hmem | hmem
  · exact absurd (List.eq_of_mem_replicate hmem) (by decide)
  · exact absurd (List.eq_of_mem_replicate hmem) (by decide)

theorem pieces_render {a : Advisory} (h : '\n' ∉ a.line) :
    a.render.pieces =
      a.headline.pieces ++ [' ' :: ' ' :: a.line, ' ' :: ' ' :: a.caretRow] := by
  have line : '\n' ∉ ' ' :: ' ' :: a.line := by simpa using h
  have row : '\n' ∉ ' ' :: ' ' :: a.caretRow := by simpa using a.feed_not_mem_caretRow
  let rows : Text := ' ' :: ' ' :: a.line ++ '\n' :: ' ' :: ' ' :: a.caretRow
  have below : Text.pieces ([] ++ '\n' :: rows) =
      [] :: [' ' :: ' ' :: a.line, ' ' :: ' ' :: a.caretRow] := by
    rw [Text.pieces_append_feed List.not_mem_nil, Text.pieces_append_feed line,
      Text.pieces_of_noFeed row]
  have above := List.dropLast_concat_getLast (Text.pieces_ne_nil a.headline)
  have whole : a.render = a.headline ++ ([] ++ '\n' :: rows) := by
    show a.headline ++ ['\n', ' ', ' '] ++ a.line ++ ['\n', ' ', ' '] ++ a.caretRow = _
    simp [rows]
  rw [whole, Text.pieces_append above.symm below, List.append_nil, List.append_cons, above]

theorem exists_marked {a : Advisory} (hline : a.range.stop.line = a.range.start.line)
    (hstart : a.line.IsBoundary (min a.range.start.column a.line.width))
    (hstop : a.line.IsBoundary (min a.range.stop.column a.line.width)) :
    ∃ before marked after, a.line = before ++ marked ++ after ∧ before.width = a.caretStart ∧
      (before ++ marked).width = a.caretStop := by
  have stops : a.line.IsBoundary a.caretStop := by
    rw [caretStop, if_pos hline]
    rcases Nat.le_total a.caretStart (min a.range.stop.column a.line.width) with h | h
    · rwa [Nat.max_eq_right h]
    · rwa [Nat.max_eq_left h]
  have part := Text.isSome_part?_iff.mpr ⟨a.caretStart_le_caretStop, hstart, stops⟩
  obtain ⟨marked, hmarked⟩ := Option.isSome_iff_exists.mp part
  obtain ⟨before, after, parts⟩ := Text.part?_eq_some_iff.mp hmarked
  exact ⟨before, marked, after, parts⟩

/-- An advisory that points at a text has its carets under that text. -/
theorem PointsAt.caretRow_eq {original : Text} {a : Advisory} {before marked after : Text}
    (h : a.PointsAt original before marked after) :
    a.caretRow =
      List.replicate before.length ' ' ++ List.replicate (max 1 marked.length) '^' := by
  have ordered := h.ordered
  have bounded := h.bounded
  rw [h.start, h.stop] at ordered
  rw [h.stop] at bounded
  have start : before.width = a.caretStart := by
    rw [caretStart, h.start, Nat.min_eq_left (Nat.le_trans ordered bounded)]
  have stop : (before ++ marked).width = a.caretStop := by
    rw [caretStop, h.stop, if_pos rfl, ← start, Nat.min_eq_left bounded, Nat.max_eq_right ordered]
  exact Advisory.caretRow_eq h.line start stop

/-- Rendering an advisory never fails and draws at least one caret, whatever its range is.  If the
range lies on one line and between characters, and the line is one line, then the carets stand
under the characters of the range and nowhere else; a range without characters has its one caret
where it starts. -/
theorem render_underlines (a : Advisory) :
    a.render? = some a.render ∧
    (∃ indent carets, 0 < carets ∧ a.render = a.headline ++ "\n  ".toList ++ a.line ++
      "\n  ".toList ++ (List.replicate indent ' ' ++ List.replicate carets '^')) ∧
    (a.range.stop.line = a.range.start.line → '\n' ∉ a.line →
      a.line.IsBoundary (min a.range.start.column a.line.width) →
      a.line.IsBoundary (min a.range.stop.column a.line.width) →
      ∃ before marked after, a.line = before ++ marked ++ after ∧
        before.width = min a.range.start.column a.line.width ∧
        (before ++ marked).width = max before.width (min a.range.stop.column a.line.width) ∧
        a.render.pieces = a.headline.pieces ++
          [' ' :: ' ' :: (before ++ marked ++ after),
           ' ' :: ' ' :: (List.replicate before.length ' ' ++
             List.replicate (max 1 marked.length) '^')]) := by
  refine ⟨a.render?_eq, ⟨_, _, Nat.le_max_left 1 _, rfl⟩, ?_⟩
  intro hline hfeed hstart hstop
  obtain ⟨before, marked, after, parts, hbefore, hmarked⟩ := exists_marked hline hstart hstop
  have stop : a.caretStop = max before.width (min a.range.stop.column a.line.width) := by
    rw [caretStop, if_pos hline, hbefore]
  refine ⟨before, marked, after, parts, hbefore, hmarked.trans stop, ?_⟩
  rw [pieces_render hfeed, caretRow_eq parts hbefore hmarked, parts]

/-- Characters of two and three bytes stand before the range, in it and after it. -/
theorem render_underlines_accents :
    let a : Advisory :=
      { ruleId := "num:words".toList, range := ⟨⟨0, 4⟩, ⟨0, 8⟩⟩, message := "m".toList,
        resource := "t.tex".toList, line := "déjà 3 €".toList, offset := 4 }
    (a.range.stop.line = a.range.start.line ∧ '\n' ∉ a.line ∧
      a.line.IsBoundary (min a.range.start.column a.line.width) ∧
      a.line.IsBoundary (min a.range.stop.column a.line.width) ∧
      a.caretRow = "   ^^^".toList) ∧
    ∃ before marked after, a.line = before ++ marked ++ after ∧
      before.width = min a.range.start.column a.line.width ∧
      (before ++ marked).width = max before.width (min a.range.stop.column a.line.width) ∧
      a.render.pieces = a.headline.pieces ++
        [' ' :: ' ' :: (before ++ marked ++ after),
         ' ' :: ' ' :: (List.replicate before.length ' ' ++
           List.replicate (max 1 marked.length) '^')] := by
  intro a
  have noFeed : '\n' ∉ a.line := by decide
  have start : a.line.IsBoundary (min a.range.start.column a.line.width) :=
    ⟨"déj".toList, "à 3 €".toList, by decide, by decide⟩
  have stop : a.line.IsBoundary (min a.range.stop.column a.line.width) :=
    ⟨"déjà 3".toList, " €".toList, by decide, by decide⟩
  have row : a.caretRow = "   ^^^".toList := by decide
  exact ⟨⟨rfl, noFeed, start, stop, row⟩, (render_underlines a).2.2 rfl noFeed start stop⟩

end Advisory

end NumeralLint
