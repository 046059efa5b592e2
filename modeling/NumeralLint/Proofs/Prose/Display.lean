/-
Display math and what is reported in it.

A display goes from an unescaped `\[` to the first unescaped `\]` after it.
The line of its beginning opens a block, and no line between those of its
beginning and its end closes one by a `\]` (`Display.endsBlock_eq`).  But
lines are counted, not delimiters, and blocks have no names: a display may be
read as prose if the line that begins it also closes a block, or if more
environments end in it than begin.  `Display.of_mem_check` says that nothing
else lets a report into a display.
-/
import NumeralLint.Proofs.Prose.Depth
import NumeralLint.Proofs.Source.LineAtoms

namespace NumeralLint

namespace Atom

/-- The beginning of display math. -/
def displayBegin : Atom := escaped '['

/-- The end of display math. -/
def displayEnd : Atom := escaped ']'

end Atom

open Atom (displayBegin displayEnd)

/-- Whether a line closes a block by the end of an environment. -/
def endsEnvironment (line : Text) : Bool :=
  line.occurs (Recogniser.blockDelimiter "end".toList)

/-- The text has a display after the atoms `before`.  Its content `inner` ends at the first end of
display math. -/
structure Display (t : Text) (before inner after : List Atom) : Prop where
  whole : t.atoms = before ++ displayBegin :: (inner ++ displayEnd :: after)
  first : displayEnd ∉ inner

namespace Display

open Text (feeds spell EscapedAt endPosition)

/-- The position lies in the display: not before its beginning, and before its end. -/
def Contains (before inner : List Atom) (p : Position) : Prop :=
  ¬ p.Before (endPosition (spell before)) ∧
    p.Before (endPosition (spell (before ++ displayBegin :: (inner ++ [displayEnd]))))

instance (before inner : List Atom) (p : Position) : Decidable (Contains before inner p) :=
  inferInstanceAs (Decidable (_ ∧ _))

variable {t : Text} {before inner after : List Atom}

/-! ## The lines of a display -/

theorem line_of_contains {p : Position} (h : Contains before inner p) :
    feeds before ≤ p.line ∧ p.line ≤ feeds before + feeds inner := by
  have last : feeds (before ++ displayBegin :: (inner ++ [displayEnd])) =
      feeds before + feeds inner := by
    have noFeeds : feeds [displayBegin] = 0 ∧ feeds [displayEnd] = 0 := by decide
    rw [Text.feeds_append, Text.feeds_cons, Text.feeds_append, noFeeds.1, noFeeds.2]
    omega
  obtain ⟨notBefore, hbefore⟩ := h
  have start : ¬ p.line < feeds before := fun hlt => notBefore (Or.inl hlt)
  have stop : p.line ≤ feeds before + feeds inner := by
    rw [← last]
    rcases hbefore with hlt | ⟨heq, -⟩
    · exact Nat.le_of_lt hlt
    · exact Nat.le_of_eq heq
  exact ⟨Nat.le_of_not_lt start, stop⟩

theorem escapedAt_begin (h : Display t before inner after) : EscapedAt '[' (feeds before) t :=
  ⟨before, _, h.whole, rfl⟩

theorem not_escapedAt_end (h : Display t before inner after) {n : Nat} (hfirst : feeds before < n)
    (hlast : n < feeds before + feeds inner) : ¬ EscapedAt ']' n t := by
  rintro ⟨before', after', hsplit, rfl⟩
  have whole := h.whole.symm.trans hsplit
  rcases List.append_eq_append_iff.mp whole with ⟨x, rfl, hx⟩ | ⟨x, rfl, -⟩
  · cases x with
    | nil => exact absurd (List.cons.inj hx).1 (by decide)
    | cons e x =>
        obtain ⟨rfl, hrest⟩ := List.cons.inj hx
        rw [Text.feeds_append, Text.feeds_cons] at hlast
        rcases List.append_eq_append_iff.mp hrest with ⟨y, rfl, -⟩ | ⟨y, rfl, hy⟩
        · rw [Text.feeds_append] at hlast
          omega
        · cases y with
          | nil =>
              rw [List.append_nil] at hlast
              omega
          | cons e y =>
              obtain ⟨rfl, -⟩ := List.cons.inj hy
              exact h.first (List.mem_append_right _ List.mem_cons_self)
  · rw [Text.feeds_append] at hfirst
    omega

/-! ## Blocks -/

theorem beginsBlock_eq (h : Display t before inner after) {line : Text}
    (hline : t.lines[feeds before]? = some line) : beginsBlock line.trimEnd = true := by
  have escaped := (Text.escaped_mem_line_iff (c := '[') (by decide) hline).mpr h.escapedAt_begin
  exact Bool.or_eq_true_iff.mpr (Or.inr (List.contains_iff_mem.mpr escaped))

theorem endsBlock_eq (h : Display t before inner after) {n : Nat} {line : Text}
    (hline : t.lines[n]? = some line) (hfirst : feeds before < n)
    (hlast : n < feeds before + feeds inner) :
    endsBlock line.trimEnd = endsEnvironment line.trimEnd := by
  have noEnd : line.trimEnd.hasAtom (.escaped ']') = false := by
    refine Bool.eq_false_iff.mpr fun hmem => h.not_escapedAt_end hfirst hlast ?_
    exact (Text.escaped_mem_line_iff (by decide) hline).mp (List.contains_iff_mem.mp hmem)
  rw [endsBlock, noEnd, Bool.or_false]
  rfl

theorem not_isProse (h : Display t before inner after) {line : Text}
    (hline : t.lines[feeds before]? = some line) :
    ¬ IsProse (t.lines.map Text.trimEnd) (feeds before) := by
  intro hprose
  have opens := (isProse_iff _ _).mp hprose
  rw [List.getElem?_map, hline, Option.map_some, Option.toList_some, List.countP_singleton,
    if_pos (h.beginsBlock_eq hline)] at opens
  omega

theorem countP_endsBlock_eq (h : Display t before inner after) {n : Nat}
    (hlast : n ≤ feeds before + feeds inner) :
    (((t.lines.map Text.trimEnd).take n).drop (feeds before + 1)).countP endsBlock =
      (((t.lines.map Text.trimEnd).take n).drop (feeds before + 1)).countP endsEnvironment := by
  refine List.countP_congr fun trimmed hmem => ?_
  obtain ⟨i, hi⟩ := List.mem_iff_getElem?.mp hmem
  rw [List.getElem?_drop, List.getElem?_take] at hi
  split at hi
  · next hlt =>
      obtain ⟨line, hline, rfl⟩ := Option.map_eq_some_iff.mp (List.getElem?_map ▸ hi)
      rw [h.endsBlock_eq hline (by omega) (by omega)]
  · exact absurd hi (by simp)

/-- Where a line of a display is prose, more lines since the first have ended an environment than
have begun a block; the first line counts as well if it closes a block. -/
theorem countP_lt_of_isProse (h : Display t before inner after) {n : Nat}
    (hfirst : feeds before < n) (hlast : n ≤ feeds before + feeds inner) {line : Text}
    (hline : t.lines[feeds before]? = some line)
    (hprose : IsProse (t.lines.map Text.trimEnd) n) :
    (((t.lines.map Text.trimEnd).take (n + 1)).drop (feeds before + 1)).countP beginsBlock <
      [line.trimEnd].countP endsBlock +
        (((t.lines.map Text.trimEnd).take n).drop (feeds before + 1)).countP endsEnvironment := by
  have fromFirst : ∀ k, feeds before < k → ((t.lines.map Text.trimEnd).take k).drop (feeds before) =
      [line.trimEnd] ++ ((t.lines.map Text.trimEnd).take k).drop (feeds before + 1) := by
    intro k hk
    have trimmed : ((t.lines.map Text.trimEnd).take k)[feeds before]? = some line.trimEnd := by
      rw [List.getElem?_take_of_lt hk, List.getElem?_map, hline]
      rfl
    obtain ⟨hlt, hget⟩ := List.getElem?_eq_some_iff.mp trimmed
    rw [List.drop_eq_getElem_cons hlt, hget, List.singleton_append]
  have begins : [line.trimEnd].countP beginsBlock = 1 := by
    rw [List.countP_singleton, if_pos (h.beginsBlock_eq hline)]
  have balance := hprose (feeds before) (Nat.le_of_lt hfirst)
  rw [fromFirst n hfirst, fromFirst (n + 1) (by omega), List.countP_append, List.countP_append,
    begins, h.countP_endsBlock_eq hlast] at balance
  omega

/-! ## Reports -/

/-- A numeral in a display is reported only on a line after the first of the display, and only if
that line is prose.  Then more lines since the first have ended an environment than have begun a
block, where the first line counts as well if it closes a block. -/
theorem of_mem_check (rule : SmallIntegers) {resource original prepared : Text}
    {before inner after : List Atom} (h : Display prepared before inner after) {a : Advisory}
    (ha : a ∈ (Rule.smallIntegers rule).check ⟨resource, original, prepared, id⟩)
    (hin : Contains before inner a.range.start) :
    let lines := prepared.lines.map Text.trimEnd
    let first := feeds before
    let n := a.range.start.line
    first < n ∧ IsProse lines n ∧
      ((lines.take (n + 1)).drop (first + 1)).countP beginsBlock <
        lines[first]?.toList.countP endsBlock +
          ((lines.take n).drop (first + 1)).countP endsEnvironment := by
  intro lines first n
  obtain ⟨finding, hfinding, rfl⟩ := List.mem_map.mp ha
  obtain ⟨m, line, start, stop, hline, hprose, hrange⟩ := rule.exists_prose_of_mem_findings hfinding
  have same : n = m := congrArg (fun range => range.start.line) hrange
  rw [← same] at hline hprose
  obtain ⟨hstart, hstop⟩ := line_of_contains hin
  obtain ⟨hn, -⟩ := List.getElem?_eq_some_iff.mp hline
  have inside : first < prepared.lines.length := by
    rw [List.length_map] at hn
    exact Nat.lt_of_le_of_lt hstart hn
  have firstLine := List.getElem?_eq_getElem inside
  have later : first < n := by
    refine Nat.lt_of_le_of_ne hstart fun heq => h.not_isProse firstLine ?_
    show IsProse lines first
    rw [heq]
    exact hprose
  refine ⟨later, hprose, ?_⟩
  have counted := h.countP_lt_of_isProse later hstop firstLine hprose
  rw [List.getElem?_map, firstLine]
  exact counted

/-- An environment ends in a display that it did not begin in. -/
theorem of_mem_check_table_end :
    let rule : SmallIntegers := ⟨10, Abbreviations.usual.sentences⟩
    let text : Text := "\\[\n\\end\x7btable\x7d\n3 cats\n\\]".toList
    let inner := Text.atoms "\n\\end\x7btable\x7d\n3 cats\n".toList
    let a : Advisory := ⟨SmallIntegers.ruleId, ⟨⟨2, 0⟩, ⟨2, 1⟩⟩, SmallIntegers.message,
      "t.tex".toList, "3 cats".toList, 15⟩
    let lines := text.lines.map Text.trimEnd
    (Display text [] inner [] ∧
      a ∈ (Rule.smallIntegers rule).check (.plain "t.tex".toList text) ∧
      Contains [] inner a.range.start) ∧
    0 < 2 ∧ IsProse lines 2 ∧
      ((lines.take 3).drop 1).countP beginsBlock <
        lines[0]?.toList.countP endsBlock +
          ((lines.take 2).drop 1).countP endsEnvironment := by
  intro rule text inner a lines
  have display : Display text [] inner [] := ⟨by decide +kernel, by decide +kernel⟩
  have reported : a ∈ (Rule.smallIntegers rule).check (.plain "t.tex".toList text) := by
    decide +kernel
  have inside : Contains [] inner a.range.start := by decide +kernel
  exact ⟨⟨display, reported, inside⟩, display.of_mem_check rule reported inside⟩

/-- One line ends a display and begins another, and a numeral in the second is reported. -/
theorem mem_check_second_display :
    let rule : SmallIntegers := ⟨10, Abbreviations.usual.sentences⟩
    let text : Text := "\\[ x \\] \\[\nWe saw 3 cats. \\]\n".toList
    let before := Text.atoms "\\[ x \\] ".toList
    let inner := Text.atoms "\nWe saw 3 cats. ".toList
    Display text before inner [.plain '\n'] ∧
      ∃ a ∈ (Rule.smallIntegers rule).check (.plain "t.tex".toList text),
        Contains before inner a.range.start := by
  intro rule text before inner
  have display : Display text before inner [.plain '\n'] :=
    ⟨by decide +kernel, by decide +kernel⟩
  have reported : ∃ a ∈ (Rule.smallIntegers rule).check (.plain "t.tex".toList text),
      Contains before inner a.range.start := by decide +kernel
  exact ⟨display, reported⟩

end Display

end NumeralLint
