/-
What a linter reports of a document without comments.

Each rule says of its findings which text they mark in the lines that it
reads (`SmallIntegers.exists_markedIn`, `Alignment.isRight_of_mem_findings`);
the advisories point at those texts in the original text.
-/
import NumeralLint.Linter
import NumeralLint.Proofs.Prose.Reports
import NumeralLint.Proofs.Table.Reports

namespace NumeralLint

namespace Rule

/-- What a message of a rule says of the text `marked`, which stands after `before` and before
`after` in its line. -/
def Says : Rule → Text → Text → Text → Text → Prop
  | smallIntegers rule, message, _, marked, _ =>
      message = SmallIntegers.message ∧ rule.AsksFor marked
  | alignment _, message, before, marked, after => Alignment.Says message before marked after

theorem Says.append {rule : Rule} {message before marked after : Text}
    (h : rule.Says message before marked after) (more : Text) :
    rule.Says message before marked (after ++ more) := by
  cases rule with
  | smallIntegers rule => exact h
  | alignment rule => exact Alignment.Says.append h more

theorem exists_markedIn {doc : Document} {rule : Rule} {finding : Finding}
    (h : finding ∈ rule.findings doc) :
    ∃ before marked after,
      MarkedIn doc.originalRange (doc.lines.map Text.trimEnd) finding.range before marked after ∧
        rule.Says finding.message before marked after := by
  cases rule with
  | alignment rule => exact Alignment.isRight_of_mem_findings h
  | smallIntegers rule =>
      obtain ⟨message, before, marked, after, hmarked, hasks⟩ := rule.exists_markedIn h
      exact ⟨before, marked, after, hmarked, message, hasks⟩

/-- Every advisory of a rule points at a text of which its message is right. -/
theorem exists_pointsAt {rule : Rule} {resource original : Text} {a : Advisory}
    (ha : a ∈ rule.check (.uncommented resource original)) :
    a.ruleId = rule.id ∧ ∃ before marked after,
      a.PointsAt original before marked after ∧ rule.Says a.message before marked after := by
  obtain ⟨finding, hfinding, hid, hmessage, points⟩ := exists_finding_of_advisory ha
  obtain ⟨before, marked, after, hmarked, hsays⟩ := exists_markedIn hfinding
  obtain ⟨more, hpoints⟩ := points before marked after hmarked
  refine ⟨hid, before, marked, after ++ more, hpoints, ?_⟩
  rw [hmessage]
  exact hsays.append more

end Rule

namespace Linter

/-- Every advisory on a document without comments is made by one of the rules and points, in the
original text, exactly at a text of which its message is right. -/
theorem check_pointsAt (linter : Linter) {resource original : Text} {a : Advisory}
    (ha : a ∈ linter.check (.uncommented resource original)) :
    ∃ rule ∈ linter.rules, a.ruleId = rule.id ∧ ∃ before marked after,
      a.PointsAt original before marked after ∧ rule.Says a.message before marked after := by
  obtain ⟨rule, hrule, hmem⟩ := List.mem_flatMap.mp ha
  exact ⟨rule, hrule, Rule.exists_pointsAt hmem⟩

/-- A numeral on the second line, between a letter of two bytes and a comment. -/
theorem check_pointsAt_second_line :
    let linter : Linter :=
      ⟨[.smallIntegers ⟨10, Abbreviations.usual.sentences⟩, .alignment ⟨0.5, ['S']⟩]⟩
    let original := "A.\r\né has 3 cats. % 5\r\n".toList
    let a : Advisory := ⟨SmallIntegers.ruleId, ⟨⟨1, 7⟩, ⟨1, 8⟩⟩, SmallIntegers.message,
      "t.tex".toList, "é has 3 cats. % 5".toList, 11⟩
    a ∈ linter.check (.uncommented "t.tex".toList original) ∧
      ∃ rule ∈ linter.rules, a.ruleId = rule.id ∧ ∃ before marked after,
        a.PointsAt original before marked after ∧ rule.Says a.message before marked after := by
  intro linter original a
  have reported : a ∈ linter.check (.uncommented "t.tex".toList original) := by
    decide +kernel
  exact ⟨reported, linter.check_pointsAt reported⟩

end Linter

end NumeralLint
