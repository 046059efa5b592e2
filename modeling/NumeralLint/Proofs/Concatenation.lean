/-
What a rule reports of one text after another.

The first text ends with the end of a line and leaves nothing open.  Then
each rule reads the second text as if nothing had come before it: the rule on
small integers starts again at depth zero, and the rule on tables outside
every table, with a tally in which nothing is left of the first text.  What
is reported of the second text stands further down, by the lines and by the
bytes of the first.  The range of a column specification is made when a
table is entered and reported when it is left; both happen in the same text,
so it moves with the others.
-/
import NumeralLint.Proofs.Prose.Depth
import NumeralLint.Proofs.Reports
import NumeralLint.Proofs.Source.Joining
import NumeralLint.Proofs.SourceMap
import NumeralLint.Proofs.Table.WellFormed
import NumeralLint.Proofs.Table.WholeTable

namespace NumeralLint

/-- The advisory further down in a document, by so many lines and so many bytes. -/
def Advisory.moveDown (lines bytes : Nat) (a : Advisory) : Advisory :=
  { a with range := a.range.map (.addLines lines), offset := bytes + a.offset }

/-- The rule has read the document and nothing is open: no block for the rule on small integers, no
table for the rule on tables. -/
def Rule.IsAtRest (doc : Document) : Rule → Prop
  | smallIntegers _ => depthOf (doc.lines.map Text.trimEnd) = 0
  | alignment rule => (rule.events doc.originalRange doc.lines).1.isOpen = false

instance (doc : Document) : (rule : Rule) → Decidable (rule.IsAtRest doc)
  | .smallIntegers _ => inferInstanceAs (Decidable (_ = _))
  | .alignment _ => inferInstanceAs (Decidable (_ = _))

/-! ## Lines after other lines -/

section Lines

variable (place : Nat → Nat → Nat → Range) {lines : List Text}

namespace SmallIntegers

variable (rule : SmallIntegers)

theorem length_readLines (depth : Nat) (lines : List Text) :
    (rule.readLines depth lines).length = lines.length := by
  induction lines generalizing depth with
  | nil => rfl
  | cons line rest ih => rw [readLines, List.length_cons, ih, List.length_cons]

theorem readLines_append (depth : Nat) (lines later : List Text) :
    rule.readLines depth (lines ++ later) =
      rule.readLines depth lines ++ rule.readLines (lines.foldl depthStep depth) later := by
  induction lines generalizing depth with
  | nil => rfl
  | cons line rest ih =>
      have next : (rule.readLine depth line).1 = depthStep depth line := rfl
      rw [List.cons_append, readLines, ih, readLines, List.foldl_cons, next]
      rfl

/-- After lines that leave no block open, the rule reads on as from the start. -/
theorem findings_append (h : depthOf (lines.map Text.trimEnd) = 0) (later : List Text) :
    rule.findings place (lines ++ later) =
      rule.findings place lines ++ rule.findings (fun n => place (n + lines.length)) later := by
  have fresh : (lines.map Text.trimEnd).foldl depthStep 0 = 0 := h
  rw [findings, events, List.map_append, readLines_append, fresh, List.mapIdx_append,
    List.flatten_append, length_readLines, List.length_map]
  rfl

end SmallIntegers

namespace Alignment

variable (rule : Alignment)

theorem readLines_add (d first : Nat) (tally : TableTally) (lines : List Text) :
    rule.readLines place (first + d) tally lines =
      rule.readLines (fun n => place (n + d)) first tally lines := by
  induction lines generalizing first tally with
  | nil => rfl
  | cons line rest ih =>
      have next : first + d + 1 = first + 1 + d := by omega
      rw [readLines, readLines, next, ih]

/-- After lines that leave no table open, the rule reads on as from the start. -/
theorem findings_append (h : (rule.events place lines).1.isOpen = false) (later : List Text) :
    rule.findings place (lines ++ later) =
      rule.findings place lines ++ rule.findings (fun n => place (n + lines.length)) later := by
  have wellFormed : (rule.events place lines).1.WellFormed :=
    wellFormed_readLines TableTally.wellFormed_idle 0 _
  have idle : (rule.readLines place 0 .idle (lines.map Text.trimEnd)).1 = .idle :=
    wellFormed.eq_idle h
  rw [findings, events, List.map_append, readLines_append, idle, List.flatten_append,
    List.filterMap_append, List.length_map, readLines_add]
  rfl

end Alignment

end Lines

/-! ## Documents in which nothing is moved -/

namespace Document

/-- The document whose prepared text has the positions of the original text. -/
def inPlace (resource original prepared : Text) : Document := ⟨resource, original, prepared, id⟩

variable {resource a b p q both ruleId : Text} {findings : List Finding}

theorem advisories_append_left (ha : a.IsWholeLines)
    (h : ∀ finding ∈ findings, finding.range.start.line < a.lines.length) :
    (inPlace resource (a ++ b) both).advisories ruleId findings =
      (inPlace resource a p).advisories ruleId findings := by
  refine List.map_congr_left fun finding hfinding => ?_
  have body := LineIndex.body_append_left ha b (h finding hfinding)
  have offset := LineIndex.offset_append_left ha b (h finding hfinding)
  exact congrArg₂ (Advisory.mk ruleId finding.range finding.message resource) body offset

theorem advisories_append_right (ha : a.IsWholeLines) :
    (inPlace resource (a ++ b) both).advisories ruleId
        (findings.map (Finding.move (Range.map (.addLines a.lines.length)))) =
      ((inPlace resource b q).advisories ruleId findings).map
        (.moveDown a.lines.length a.width) := by
  rw [advisories, List.map_map, advisories, List.map_map]
  refine List.map_congr_left fun finding _ => ?_
  have body := LineIndex.body_append_right ha b finding.range.start.line
  have offset := LineIndex.offset_append_right ha b finding.range.start
  exact congrArg₂ (Advisory.mk ruleId _ finding.message resource) body offset

end Document

namespace Rule

variable {rule : Rule} {resource original prepared : Text}

theorem findings_inPlace (rule : Rule) :
    rule.findings (.inPlace resource original prepared) = rule.preparedFindings prepared.lines := by
  cases rule <;> rfl

theorem preparedFindings_append (hrest : rule.IsAtRest (.inPlace resource original prepared))
    (later : List Text) :
    rule.preparedFindings (prepared.lines ++ later) = rule.preparedFindings prepared.lines ++
      (rule.preparedFindings later).map
        (Finding.move (Range.map (.addLines prepared.lines.length))) := by
  cases rule with
  | smallIntegers rule =>
      refine (rule.findings_append Range.ofLine hrest later).trans (congrArg _ ?_)
      exact rule.findings_move (Range.map (.addLines _)) Range.ofLine later
  | alignment rule =>
      refine (rule.findings_append Range.ofLine hrest later).trans (congrArg _ ?_)
      exact rule.findings_move (Range.map (.addLines _)) Range.ofLine later

theorem line_lt_of_mem_findings {finding : Finding}
    (h : finding ∈ rule.findings (.inPlace resource original prepared)) :
    finding.range.start.line < prepared.lines.length := by
  obtain ⟨before, marked, after, ⟨n, hline, hrange⟩, -⟩ := exists_markedIn h
  obtain ⟨hn, -⟩ := List.getElem?_eq_some_iff.mp hline
  rw [hrange]
  rwa [List.length_map] at hn

/-! ## Reports -/

/-- The reports on a text that is, in its original and in its prepared lines, one text after
another. -/
theorem check_inPlace_append {a b p q both : Text} (ha : a.IsWholeLines)
    (hlines : both.lines = p.lines ++ q.lines) (hcount : p.lines.length = a.lines.length)
    (hrest : rule.IsAtRest (.inPlace resource a p)) :
    rule.check (.inPlace resource (a ++ b) both) = rule.check (.inPlace resource a p) ++
      (rule.check (.inPlace resource b q)).map (.moveDown a.lines.length a.width) := by
  have found : rule.findings (.inPlace resource (a ++ b) both) =
      rule.findings (.inPlace resource a p) ++ (rule.findings (.inPlace resource b q)).map
        (Finding.move (Range.map (.addLines a.lines.length))) := by
    rw [findings_inPlace, findings_inPlace, findings_inPlace, hlines,
      preparedFindings_append hrest, hcount]
  have above : ∀ finding ∈ rule.findings (.inPlace resource a p),
      finding.range.start.line < a.lines.length := by
    intro finding hfinding
    rw [← hcount]
    exact line_lt_of_mem_findings hfinding
  calc rule.check (.inPlace resource (a ++ b) both)
      = (Document.inPlace resource (a ++ b) both).advisories rule.id
          (rule.findings (.inPlace resource a p)) ++
        (Document.inPlace resource (a ++ b) both).advisories rule.id
          ((rule.findings (.inPlace resource b q)).map
            (Finding.move (Range.map (.addLines a.lines.length)))) := by
        rw [check, found, Document.advisories, List.map_append]
        rfl
    _ = rule.check (.inPlace resource a p) ++
        (rule.check (.inPlace resource b q)).map (.moveDown a.lines.length a.width) := by
        rw [Document.advisories_append_left ha above, Document.advisories_append_right ha]
        rfl

/-- If a text of whole lines leaves nothing open for a rule, what the rule reports of it with
another text after it is what it reports of the first, and then what it reports of the second,
further down by the lines and the bytes of the first.  This holds of the texts as they are and of
the texts without their comments. -/
theorem check_append (rule : Rule) (resource : Text) {a : Text}
    (ha : a = [] ∨ ∃ s, a = s ++ ['\n']) (b : Text) :
    (rule.IsAtRest (.plain resource a) →
      rule.check (.plain resource (a ++ b)) = rule.check (.plain resource a) ++
        (rule.check (.plain resource b)).map (.moveDown a.lines.length a.width)) ∧
    (rule.IsAtRest (.uncommented resource a) →
      rule.check (.uncommented resource (a ++ b)) = rule.check (.uncommented resource a) ++
        (rule.check (.uncommented resource b)).map (.moveDown a.lines.length a.width)) := by
  have whole : a.IsWholeLines := ha
  constructor
  · intro hrest
    exact check_inPlace_append whole (whole.lines_append b) rfl hrest
  · intro hrest
    have lines : (a ++ b).withoutComments.lines =
        a.withoutComments.lines ++ b.withoutComments.lines := by
      rw [whole.withoutComments_append, whole.withoutComments.lines_append]
    exact check_inPlace_append whole lines whole.length_lines_withoutComments hrest

/-- A numeral and a table with a comment in it, and after them another numeral and table. -/
theorem check_append_table :
    let rules : List Rule :=
      [.smallIntegers ⟨10, Abbreviations.usual.sentences⟩, .alignment ⟨0.5, ['S']⟩]
    let a : Text :=
      "4 é\n\\begin\x7btabular\x7d\x7bc\x7d\r\n1 \\\\ % one\n\\end\x7btabular\x7d\n".toList
    let b : Text := "é 3\n\\begin\x7btabular\x7d\x7bc\x7d\n2 \\\\ \\end\x7btabular\x7d".toList
    (a = [] ∨ ∃ s, a = s ++ ['\n']) ∧ a.lines.length = 4 ∧
      (∀ rule ∈ rules, ∀ t ∈ [a, b], rule.check (.plain "t.tex".toList t) ≠ [] ∧
        rule.check (.uncommented "t.tex".toList t) ≠ []) ∧ ∀ rule ∈ rules,
      (rule.IsAtRest (.plain "t.tex".toList a) ∧ rule.IsAtRest (.uncommented "t.tex".toList a)) ∧
      rule.check (.plain "t.tex".toList (a ++ b)) = rule.check (.plain "t.tex".toList a) ++
        (rule.check (.plain "t.tex".toList b)).map (.moveDown a.lines.length a.width) ∧
      rule.check (.uncommented "t.tex".toList (a ++ b)) =
        rule.check (.uncommented "t.tex".toList a) ++
          (rule.check (.uncommented "t.tex".toList b)).map (.moveDown a.lines.length a.width) := by
  intro rules a b
  have ends : a = [] ∨ ∃ s, a = s ++ ['\n'] := Or.inr ⟨a.dropLast, by decide +kernel⟩
  have rests : ∀ rule ∈ rules, rule.IsAtRest (.plain "t.tex".toList a) ∧
      rule.IsAtRest (.uncommented "t.tex".toList a) := by decide +kernel
  have reported : ∀ rule ∈ rules, ∀ t ∈ [a, b], rule.check (.plain "t.tex".toList t) ≠ [] ∧
      rule.check (.uncommented "t.tex".toList t) ≠ [] := by decide +kernel
  refine ⟨ends, by decide +kernel, reported, ?_⟩
  intro rule hrule
  obtain ⟨plain, uncommented⟩ := rests rule hrule
  obtain ⟨first, second⟩ := rule.check_append "t.tex".toList ends b
  exact ⟨⟨plain, uncommented⟩, first plain, second uncommented⟩

end Rule

end NumeralLint
