/-
Tables lie in blocks.

The lines of a document are read twice: the rule on small integers counts the
blocks that are open, and the rule on tables follows one table.  A delimiter
of a table is a delimiter of a block (`beginsBlock_of_occurs`,
`endsBlock_of_occurs`).  Where there are no other delimiters of blocks, and
no line has two, a line that enters a table also deepens the blocks, and only
a line that leaves the table can close one; so an open table lies in an open
block after every line (`one_le_depth_of_isOpen`).  Without the first
condition another environment may close the block of a table, without the
second a line may open one block for two tables.
-/
import Mathlib.Data.List.Infix
import NumeralLint.Proofs.Prose.Delimiters
import NumeralLint.Proofs.Prose.Depth
import NumeralLint.Proofs.Table.Reading

namespace NumeralLint

/-! ## Delimiters -/

namespace Recogniser

theorem isSome_blockDelimiter {command t rest : Text}
    (h : delimiter command (literal "tabular".toList) t = some rest) :
    (blockDelimiter command t).isSome = true := by
  have tabular : IsBlockName "tabular".toList := by decide
  have names : ∀ ⦃u v⦄, literal "tabular".toList u = some v →
      ∃ name, IsBlockName name ∧ u = name ++ v := fun _ _ hu =>
    ⟨_, tabular, literal_eq_some.mp hu⟩
  obtain ⟨d, block, rfl⟩ := exists_of_delimiter names h
  exact isSome_blockDelimiter_text block rest

end Recogniser

theorem beginsBlock_of_occurs {line : Text} (h : line.occurs .tableBegin = true) :
    beginsBlock line = true := by
  obtain ⟨m, hsuffix, hread⟩ := Text.occurs_eq_true.mp h
  obtain ⟨rest, hrest⟩ := Option.isSome_iff_exists.mp hread
  have block := Text.occurs_eq_true.mpr ⟨m, hsuffix, Recogniser.isSome_blockDelimiter hrest⟩
  rw [beginsBlock, block, Bool.true_or]

theorem endsBlock_of_occurs {line : Text} (h : line.occurs .tableEnd = true) :
    endsBlock line = true := by
  obtain ⟨m, hsuffix, hread⟩ := Text.occurs_eq_true.mp h
  obtain ⟨rest, hrest⟩ := Option.isSome_iff_exists.mp hread
  have block := Text.occurs_eq_true.mpr ⟨m, hsuffix, Recogniser.isSome_blockDelimiter hrest⟩
  rw [endsBlock, block, Bool.true_or]

/-- Whether the text starts with a delimiter of a table. -/
def isTableDelimiter (t : Text) : Bool :=
  (Recogniser.tableBegin t).isSome || (Recogniser.tableEnd t).isSome

/-- The delimiters of blocks in a line are beginnings and ends of tables, and there is at most
one. -/
structure OnlyTables (line : Text) : Prop where
  begins : ∀ m ∈ line.tails, (Recogniser.blockDelimiter "begin".toList m).isSome = true →
    (Recogniser.tableBegin m).isSome = true
  ends : ∀ m ∈ line.tails, (Recogniser.blockDelimiter "end".toList m).isSome = true →
    (Recogniser.tableEnd m).isSome = true
  noDisplay : line.hasAtom (.escaped '[') = false ∧ line.hasAtom (.escaped ']') = false
  single : line.tails.countP isTableDelimiter ≤ 1

instance (line : Text) : Decidable (OnlyTables line) :=
  decidable_of_iff (_ ∧ _ ∧ _ ∧ _)
    ⟨fun ⟨begins, ends, noDisplay, single⟩ => ⟨begins, ends, noDisplay, single⟩,
      fun h => ⟨h.begins, h.ends, h.noDisplay, h.single⟩⟩

namespace OnlyTables

variable {line : Text}

theorem beginsBlock_eq (h : OnlyTables line) : beginsBlock line = line.occurs .tableBegin := by
  rw [beginsBlock, h.noDisplay.1, Bool.or_false, Bool.eq_iff_iff]
  constructor
  · intro hblock
    obtain ⟨m, hsuffix, hread⟩ := Text.occurs_eq_true.mp hblock
    exact Text.occurs_eq_true.mpr ⟨m, hsuffix, h.begins m ((List.mem_tails _ _).mpr hsuffix) hread⟩
  · intro htable
    have := beginsBlock_of_occurs htable
    rwa [beginsBlock, h.noDisplay.1, Bool.or_false] at this

theorem endsBlock_eq (h : OnlyTables line) : endsBlock line = line.occurs .tableEnd := by
  rw [endsBlock, h.noDisplay.2, Bool.or_false, Bool.eq_iff_iff]
  constructor
  · intro hblock
    obtain ⟨m, hsuffix, hread⟩ := Text.occurs_eq_true.mp hblock
    exact Text.occurs_eq_true.mpr ⟨m, hsuffix, h.ends m ((List.mem_tails _ _).mpr hsuffix) hread⟩
  · intro htable
    have := endsBlock_of_occurs htable
    rwa [endsBlock, h.noDisplay.2, Bool.or_false] at this

/-- A line with the beginning of a table has no end of one: they would stand at two places. -/
theorem not_occurs_tableEnd (h : OnlyTables line) (hbegin : line.occurs .tableBegin = true) :
    line.occurs .tableEnd = false := by
  refine Bool.eq_false_iff.mpr fun hend => ?_
  obtain ⟨m, hm, hread⟩ := Text.occurs_eq_true.mp hbegin
  obtain ⟨m', hm', hread'⟩ := Text.occurs_eq_true.mp hend
  have inFilter : ∀ n, n <:+ line → isTableDelimiter n = true →
      n ∈ line.tails.filter isTableDelimiter :=
    fun n hn hdelimiter => List.mem_filter.mpr ⟨(List.mem_tails _ _).mpr hn, hdelimiter⟩
  have first := inFilter m hm (by rw [isTableDelimiter, hread, Bool.true_or])
  have second := inFilter m' hm' (by rw [isTableDelimiter, hread', Bool.or_true])
  have single := h.single
  rw [List.countP_eq_length_filter] at single
  obtain ⟨n, hn⟩ := List.length_eq_one_iff.mp
    (Nat.le_antisymm single (List.length_pos_of_mem first))
  rw [hn] at first second
  obtain rfl : m = m' :=
    (List.mem_singleton.mp first).trans (List.mem_singleton.mp second).symm
  obtain ⟨rest, hrest⟩ := Option.isSome_iff_exists.mp hread'
  obtain ⟨-, -, -, notBegin⟩ := Recogniser.exists_of_tableEnd hrest
  rw [notBegin] at hread
  exact absurd hread (by simp)

end OnlyTables

/-! ## Reading side by side -/

namespace Alignment

variable (rule : Alignment) (place : Nat → Nat → Range) {tally : TableTally} {line : Text}

theorem readLine_of_closed (hclosed : tally.isOpen = false)
    (hbegin : line.occurs .tableBegin = false) : rule.readLine place tally line = (tally, []) := by
  rw [readLine, if_neg (by simp [hclosed]), readOutside, Text.occurs_eq_false.mp hbegin]

theorem isOpen_readLine (hbegin : line.occurs .tableBegin = false)
    (hend : line.occurs .tableEnd = false) :
    (rule.readLine place tally line).1.isOpen = tally.isOpen := by
  cases hopen : tally.isOpen with
  | false => rw [rule.readLine_of_closed place hopen hbegin, hopen]
  | true =>
      have noRow : closingRow? line = none := by
        rw [closingRow?, Text.occurs_eq_false.mp hend, Option.filter_none]
      rw [readLine, if_pos hopen, noRow, Text.occurs_eq_false.mp hbegin]
      exact (isOpen_readRow _ _ _ _).trans hopen

theorem isOpen_readLine_of_end (hbegin : line.occurs .tableBegin = false)
    (hend : line.occurs .tableEnd = true) :
    (rule.readLine place tally line).1.isOpen = false := by
  cases hopen : tally.isOpen with
  | false => rw [rule.readLine_of_closed place hopen hbegin, hopen]
  | true =>
      obtain ⟨⟨row, rest⟩, hcut⟩ := Option.isSome_iff_exists.mp hend
      have hrow : row.occurs .tableBegin = false := by
        refine Bool.eq_false_iff.mpr fun h => ?_
        obtain ⟨before, after, hfound, -⟩ := Text.exists_cut_tableBegin_of_row hcut h
        rw [Text.occurs, hfound] at hbegin
        exact absurd hbegin (by simp)
      have hrest := (Text.occurs_tableBegin_of_cut hcut hrow).symm.trans hbegin
      have closing : closingRow? line = some (row, rest) := by
        simp [closingRow?, hcut, hrow]
      rw [readLine, if_pos hopen, closing]
      show (rule.readOutside place line rest .idle).1.isOpen = false
      rw [readOutside, Text.occurs_eq_false.mp hrest]
      rfl

/-- One line keeps it that an open table lies in an open block. -/
theorem one_le_depthStep_of_isOpen (hline : OnlyTables line) {depth : Nat}
    (h : tally.isOpen = true → 1 ≤ depth)
    (hopen : (rule.readLine place tally line).1.isOpen = true) : 1 ≤ depthStep depth line := by
  have begins := hline.beginsBlock_eq
  have ends := hline.endsBlock_eq
  cases hbegin : line.occurs .tableBegin with
  | true =>
      have hend := hline.not_occurs_tableEnd hbegin
      rw [depthStep, depthAfter, depthInside, begins, ends, hbegin, hend]
      exact Nat.le_add_left 1 depth
  | false =>
      cases hend : line.occurs .tableEnd with
      | true =>
          rw [rule.isOpen_readLine_of_end place hbegin hend] at hopen
          exact absurd hopen Bool.false_ne_true
      | false =>
          rw [rule.isOpen_readLine place hbegin hend] at hopen
          rw [depthStep, depthAfter, depthInside, begins, ends, hbegin, hend]
          exact h hopen

theorem one_le_depth_of_isOpen (place : Nat → Nat → Nat → Range) {lines : List Text}
    (hlines : ∀ line ∈ lines, OnlyTables line) (first : Nat) {depth : Nat}
    (h : tally.isOpen = true → 1 ≤ depth)
    (hopen : (rule.readLines place first tally lines).1.isOpen = true) :
    1 ≤ lines.foldl depthStep depth := by
  induction lines generalizing first tally depth with
  | nil => exact h hopen
  | cons line rest ih =>
      obtain ⟨hline, hrest⟩ := List.forall_mem_cons.mp hlines
      exact ih hrest (first + 1) (rule.one_le_depthStep_of_isOpen (place first) hline h) hopen

/-- The tally before line `n` of a document. -/
def tallyBefore (doc : Document) (n : Nat) : TableTally :=
  (rule.readLines doc.originalRange 0 .idle ((doc.lines.map Text.trimEnd).take n)).1

/-- The delimiters of tables open and close blocks.  In a document with no other delimiters of
blocks, and at most one in a line, a block is open wherever a table is open; and where a numeral is
reported in prose, the rule on tables has nothing to do: no table is open before the line, and the
line changes nothing and nothing happens in it, so it neither enters nor leaves a table, and no row
is accounted for or reported. -/
theorem tables_in_blocks (words : SmallIntegers) :
    (∀ line : Text, (line.occurs .tableBegin = true → beginsBlock line = true) ∧
      (line.occurs .tableEnd = true → endsBlock line = true)) ∧
    ∀ doc : Document, (∀ line ∈ doc.lines.map Text.trimEnd, OnlyTables line) →
      (∀ n, (rule.tallyBefore doc n).isOpen = true →
        1 ≤ depthOf ((doc.lines.map Text.trimEnd).take n)) ∧
      (doc.toOriginal = id → ∀ a ∈ (Rule.smallIntegers words).check doc,
        let n := a.range.start.line
        (rule.tallyBefore doc n).isOpen = false ∧
        ∃ line, (doc.lines.map Text.trimEnd)[n]? = some line ∧
          rule.readLine (doc.originalRange n) (rule.tallyBefore doc n) line =
            (rule.tallyBefore doc n, [])) := by
  refine ⟨fun _ => ⟨beginsBlock_of_occurs, endsBlock_of_occurs⟩, ?_⟩
  intro doc hdoc
  have covered : ∀ n, (rule.tallyBefore doc n).isOpen = true →
      1 ≤ depthOf ((doc.lines.map Text.trimEnd).take n) := by
    intro n hopen
    refine rule.one_le_depth_of_isOpen doc.originalRange ?_ 0 (fun h => ?_) hopen
    · exact fun line hline => hdoc line (List.mem_of_mem_take hline)
    · exact absurd h Bool.false_ne_true
  refine ⟨covered, ?_⟩
  intro hid a ha n
  obtain ⟨finding, hfinding, rfl⟩ := List.mem_map.mp ha
  obtain ⟨m, line, start, stop, hline, hprose, hrange⟩ := words.exists_prose_of_mem_findings hfinding
  have same : n = m := by
    show finding.range.start.line = m
    rw [hrange, Document.originalRange, hid]
    rfl
  rw [same]
  have depth := (isProse_iff _ _).mp hprose
  rw [hline, Option.toList_some, List.countP_singleton] at depth
  have closed : (rule.tallyBefore doc m).isOpen = false := by
    refine Bool.eq_false_iff.mpr fun hopen => ?_
    have := covered m hopen
    omega
  have noBegin : line.occurs .tableBegin = false := by
    refine Bool.eq_false_iff.mpr fun hbegin => ?_
    rw [if_pos (beginsBlock_of_occurs hbegin)] at depth
    omega
  exact ⟨closed, line, hline, rule.readLine_of_closed _ closed noBegin⟩

/-- A table that is never ended after another that is given up, between two lines of prose. -/
theorem tables_in_blocks_nested :
    let rule : Alignment := ⟨0.5, ['S']⟩
    let words : SmallIntegers := ⟨10, Abbreviations.usual.sentences⟩
    let doc := Document.plain "t.tex".toList
      ("We saw 3 cats.\n\\begin\x7btabular\x7d\x7bc\x7d\n1 \\\\\n".toList ++
        "\\begin\x7b tabular \x7d\x7bc\x7d\n\\end\x7btabular\x7d\n4 cats".toList)
    let a : Advisory := ⟨SmallIntegers.ruleId, ⟨⟨0, 7⟩, ⟨0, 8⟩⟩, SmallIntegers.message,
      "t.tex".toList, "We saw 3 cats.".toList, 7⟩
    ((∀ line ∈ doc.lines.map Text.trimEnd, OnlyTables line) ∧ doc.toOriginal = id ∧
      a ∈ (Rule.smallIntegers words).check doc) ∧
    ((rule.tallyBefore doc 4).isOpen = true ∧ 1 ≤ depthOf ((doc.lines.map Text.trimEnd).take 4)) ∧
    (rule.tallyBefore doc 0).isOpen = false ∧
      ∃ line, (doc.lines.map Text.trimEnd)[0]? = some line ∧
        rule.readLine (doc.originalRange 0) (rule.tallyBefore doc 0) line =
          (rule.tallyBefore doc 0, []) := by
  intro rule words doc a
  have only : ∀ line ∈ doc.lines.map Text.trimEnd, OnlyTables line := by decide +kernel
  have reported : a ∈ (Rule.smallIntegers words).check doc := by decide +kernel
  have opened : (rule.tallyBefore doc 4).isOpen = true := by decide +kernel
  obtain ⟨covered, prose⟩ := (rule.tables_in_blocks words).2 doc only
  exact ⟨⟨only, rfl, reported⟩, ⟨opened, covered 4 opened⟩, prose rfl a reported⟩

end Alignment

end NumeralLint
