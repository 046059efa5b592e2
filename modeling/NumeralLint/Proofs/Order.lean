/-
Reports come in the order of the document, each thing reported once.

In a document in which nothing is moved, the range of a report is a range of
the lines that the rules read.  Reports on prose, on rows and on whole tables
are three sequences, each of them in order: the reports on tables are made at
the ends of tables and stand at their beginnings, so they are not in order
with the reports on rows between.
-/
import NumeralLint.Proofs.Concatenation
import NumeralLint.Proofs.Leniency
import NumeralLint.Proofs.Prose.Order
import NumeralLint.Proofs.Table.Order

namespace NumeralLint

/-- The ranges of the advisories that have one of the messages. -/
def rangesOf (messages : List Text) (advisories : List Advisory) : List Range :=
  (advisories.filter fun a => messages.contains a.message).map Advisory.range

theorem rangesOf_advisories (messages : List Text) (doc : Document) (ruleId : Text)
    (findings : List Finding) :
    rangesOf messages (doc.advisories ruleId findings) =
      (findings.filter fun finding => messages.contains finding.message).map Finding.range := by
  rw [rangesOf, Document.advisories, List.filter_map, List.map_map]
  rfl

namespace Alignment

/-- The messages about rows. -/
def rowMessages : List Text := [severalRowsMessage, cellCountMessage]

/-- The range of an event that is reported with one of the messages. -/
def Event.rangeOf? (messages : List Text) (event : Event) : Option Range :=
  (event.finding?.filter fun finding => messages.contains finding.message).map Finding.range

theorem Event.rangeOf?_rowMessages (event : Event) : event.rangeOf? rowMessages = event.row? := by
  cases event with
  | severalRows range | wrongCellCount range _ _ => rfl
  | spanningRow | nested | noSpecification | entered => rfl
  | left rows misaligned anchor => cases misaligned <;> rfl

theorem Event.rangeOf?_alignMessage (event : Event) :
    event.rangeOf? [alignMessage] = none ∨ event.rangeOf? [alignMessage] = event.anchor? := by
  cases event with
  | severalRows | wrongCellCount | spanningRow | nested | noSpecification | entered =>
      exact Or.inl rfl
  | left rows misaligned anchor =>
      cases misaligned with
      | false => exact Or.inl rfl
      | true => exact Or.inr rfl

theorem rangesOf_check (rule : Alignment) (messages : List Text) (doc : Document) :
    rangesOf messages ((Rule.alignment rule).check doc) =
      (rule.events doc.originalRange doc.lines).2.flatten.filterMap
        (Event.rangeOf? messages) := by
  rw [Rule.check, rangesOf_advisories, Rule.findings, findings, List.filter_filterMap,
    List.map_filterMap]
  rfl

/-- The tables that begin in the lines of a document. -/
def tablesOf (doc : Document) : List OpenedTable :=
  openedTables doc.originalRange 0 (doc.lines.map Text.trimEnd)

/-- The advisories on rows come in order, and so do those on tables.  The tables that begin in the
lines are those that the rule enters, no two of them at one place; it leaves those that are closed,
each once, and at no others there are advisories. -/
structure InOrder (rule : Alignment) (doc : Document) : Prop where
  rows : (rangesOf rowMessages ((Rule.alignment rule).check doc)).Pairwise Range.StartsBefore
  tables : (rangesOf [alignMessage] ((Rule.alignment rule).check doc)).Pairwise Range.StartsBefore
  closed : (rangesOf [alignMessage] ((Rule.alignment rule).check doc)).Sublist
    (closedAnchors (tablesOf doc))
  entered : (rule.events doc.originalRange doc.lines).2.flatten.filterMap Event.types? =
    (tablesOf doc).map OpenedTable.types
  left : (rule.events doc.originalRange doc.lines).2.flatten.filterMap Event.anchor? =
    closedAnchors (tablesOf doc)
  apart : ((tablesOf doc).map OpenedTable.anchor).Pairwise Range.StartsBefore

theorem inOrder_inPlace (rule : Alignment) (resource original prepared : Text) :
    rule.InOrder (.inPlace resource original prepared) := by
  let doc := Document.inPlace resource original prepared
  have apart : ((tablesOf doc).map OpenedTable.anchor).Pairwise Range.StartsBefore :=
    (pairwise_anchor_openedTables 0 (doc.lines.map Text.trimEnd)).1
  obtain ⟨left, entered⟩ :=
    rule.accounts_readLines doc.originalRange 0 .idle (doc.lines.map Text.trimEnd)
  rw [waiting_of_closed rfl, List.nil_append] at left
  have closed : (rangesOf [alignMessage] ((Rule.alignment rule).check doc)).Sublist
      (closedAnchors (tablesOf doc)) := by
    rw [rangesOf_check, tablesOf, ← left]
    refine SmallIntegers.filterMap_sublist_filterMap (fun event range h => ?_) _
    rcases event.rangeOf?_alignMessage with none | same
    · exact absurd (none.symm.trans h) (by simp)
    · exact same.symm.trans h
  have rows : (rangesOf rowMessages ((Rule.alignment rule).check doc)).Pairwise
      Range.StartsBefore := by
    rw [rangesOf_check, funext Event.rangeOf?_rowMessages]
    exact (rule.pairwise_row_readLines 0 .idle (doc.lines.map Text.trimEnd)).1
  have tables := apart.sublist (closed.trans (closedAnchors_sublist _))
  exact ⟨rows, tables, closed, entered, left, apart⟩

end Alignment

namespace Rule

/-- In a document in which nothing is moved, the advisories on prose come one after the other, each
in its own sentence; and the advisories on rows come in order, and so do those on tables, one at
most for each table, and none for a table that is given up or never closed. -/
theorem check_inOrder (resource original prepared : Text) :
    let doc := Document.inPlace resource original prepared
    (∀ rule : SmallIntegers,
      rule.InOrder doc.lines (((Rule.smallIntegers rule).check doc).map Advisory.range)) ∧
    ∀ rule : Alignment, rule.InOrder doc := by
  intro doc
  refine ⟨fun rule => ?_, fun rule => rule.inOrder_inPlace resource original prepared⟩
  have ranges : ((Rule.smallIntegers rule).check doc).map Advisory.range =
      (rule.findings Range.ofLine doc.lines).map Finding.range := by
    rw [check, Document.advisories, List.map_map]
    rfl
  rw [ranges]
  exact rule.inOrder_findings doc.lines

end Rule

end NumeralLint
