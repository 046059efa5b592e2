/-
Reports on prose come in the order of the sentences.

Whatever cuts the lines, the sentences that are located in them come one after
the other (`located_pairwise`), and a report lies in the sentence that it is
made of.  So reports do not overlap, and there is one for a sentence at most;
nothing else is asked of the sentences, which need not cover the line.
-/
import Mathlib.Data.List.Forall2
import NumeralLint.Proofs.Prose.Depth
import NumeralLint.Proofs.Prose.Placement
import NumeralLint.Proofs.Prose.Reports
import NumeralLint.Proofs.SourceMap

namespace NumeralLint

/-- The range is a part, and not an empty one, of the sentence that is located in the line. -/
def Range.LiesIn (r : Range) (located : Nat × PlacedSentence) : Prop :=
  ∃ start stop, r = .ofLine located.1 start stop ∧
    located.2.offset ≤ start ∧ start < stop ∧ stop ≤ located.2.stop

/-- What is read off the elements of a list belongs to those off which something is read, one by
one. -/
theorem forall₂_filterMap_filter {α β : Type} {f : α → Option β} {P : β → α → Prop}
    (h : ∀ a b, f a = some b → P b a) (l : List α) :
    List.Forall₂ P (l.filterMap f) (l.filter fun a => (f a).isSome) := by
  induction l with
  | nil => exact .nil
  | cons a l ih =>
      cases ha : f a with
      | none =>
          rw [List.filterMap_cons_none ha, List.filter_cons_of_neg (by simp [ha])]
          exact ih
      | some b =>
          rw [List.filterMap_cons_some ha, List.filter_cons_of_pos (by simp [ha])]
          exact .cons (h a b ha) ih

namespace SmallIntegers

variable (rule : SmallIntegers)

/-- The sentences that are located in a line, with the number of the line. -/
def locatedIn (n : Nat) (line : Text) : List (Nat × PlacedSentence) :=
  (placedSentences line (rule.sentences line)).map (Prod.mk n)

/-- The sentences that are located in the lines that are prose. -/
def located (lines : List Text) : List (Nat × PlacedSentence) :=
  ((lines.map Text.trimEnd).mapIdx fun n line =>
    if IsProse (lines.map Text.trimEnd) n then rule.locatedIn n line else []).flatten

/-- What is found of a located sentence. -/
def sentenceFinding? (place : Nat → Nat → Nat → Range) (located : Nat × PlacedSentence) :
    Option Finding :=
  (rule.offending? located.2.text).map fun n =>
    ⟨place located.1 (located.2.offset + n.start) (located.2.offset + n.stop), message⟩

theorem proseFindings_eq_filterMap (place : Nat → Nat → Nat → Range) (n : Nat) (line : Text) :
    rule.proseFindings (place n) line =
      (rule.locatedIn n line).filterMap (rule.sentenceFinding? place) := by
  rw [proseFindings, proseEvents, locatedIn, placedSentences, List.filterMap_map,
    List.filterMap_filterMap, List.filterMap_filterMap]
  refine congrArg (List.filterMap · _) (funext fun placement => ?_)
  cases placement with
  | missing text => rfl
  | found s =>
      show ((rule.offending? s.text).map _).bind _ = (rule.offending? s.text).map _
      rw [Option.bind_map]
      cases rule.offending? s.text <;> rfl

theorem findings_eq_filterMap (place : Nat → Nat → Nat → Range) (lines : List Text) :
    rule.findings place lines = (rule.located lines).filterMap (rule.sentenceFinding? place) := by
  rw [findings_eq_flatten, located, List.filterMap_flatten, List.mapIdx_eq_zipIdx_map,
    List.mapIdx_eq_zipIdx_map, List.map_map]
  refine congrArg List.flatten (List.map_congr_left fun (line, n) _ => ?_)
  dsimp only [Function.comp_apply]
  split
  · exact rule.proseFindings_eq_filterMap place n line
  · rfl

/-- The first sentence stands in a line before that of the second, or ends before it in its line. -/
def Apart (x y : Nat × PlacedSentence) : Prop :=
  x.1 < y.1 ∨ x.1 = y.1 ∧ x.2.stop ≤ y.2.offset

theorem locatedIn_pairwise (n : Nat) (line : Text) : (rule.locatedIn n line).Pairwise Apart := by
  have apart := (locates_placeAll [] line (rule.sentences line)).pairwise
  rw [locatedIn, List.pairwise_map]
  exact apart.imp fun h => Or.inr ⟨rfl, h.2⟩

theorem located_pairwise (lines : List Text) : (rule.located lines).Pairwise Apart := by
  have numbered : ∀ n line, ∀ x ∈ (if IsProse (lines.map Text.trimEnd) n then
      rule.locatedIn n line else []), x.1 = n := by
    intro n line x hx
    split at hx
    · obtain ⟨s, -, rfl⟩ := List.mem_map.mp hx
      rfl
    · exact absurd hx List.not_mem_nil
  rw [located, List.pairwise_flatten]
  constructor
  · intro sentences hsentences
    obtain ⟨n, hn, rfl⟩ := List.mem_mapIdx.mp hsentences
    split
    · exact rule.locatedIn_pairwise n _
    · exact List.Pairwise.nil
  · rw [List.pairwise_iff_getElem]
    intro i j hi hj hij x hx y hy
    rw [List.getElem_mapIdx] at hx hy
    rw [Apart, numbered i _ x hx, numbered j _ y hy]
    exact Or.inl hij

/-- A numeral that is reported lies in its sentence. -/
theorem liesIn_of_sentenceFinding {located : Nat × PlacedSentence} {finding : Finding}
    (h : rule.sentenceFinding? Range.ofLine located = some finding) :
    finding.range.LiesIn located := by
  obtain ⟨n, hn, rfl⟩ := Option.map_eq_some_iff.mp h
  rw [offending?] at hn
  split at hn
  · obtain ⟨before, after, whole, hstart, hne, -⟩ :=
      NumeralScan.mem_numerals (List.mem_of_mem_head? hn)
    have size : located.2.text.width = before.width + n.text.width + after.width := by
      rw [whole, Text.width_append, Text.width_append]
    have some_width : n.text.width ≠ 0 := mt Text.width_eq_zero.mp hne
    refine ⟨_, _, rfl, Nat.le_add_right _ _, ?_, ?_⟩
    · rw [Numeral.stop]
      omega
    · rw [Numeral.stop, PlacedSentence.stop, size]
      omega
  · exact absurd hn (by simp)

/-- The reports on the lines of a text come one after the other, one in each of the located
sentences that have a numeral to report, and none elsewhere. -/
structure InOrder (lines : List Text) (ranges : List Range) : Prop where
  disjoint : ranges.Pairwise fun r r' => r.StartsBefore r' ∧ r.EndsBefore r'
  one_each : List.Forall₂ Range.LiesIn ranges
    ((rule.located lines).filter fun located => (rule.offending? located.2.text).isSome)

theorem inOrder_findings (lines : List Text) :
    rule.InOrder lines ((rule.findings Range.ofLine lines).map Finding.range) := by
  rw [findings_eq_filterMap, List.map_filterMap]
  have lies : ∀ x r, (rule.sentenceFinding? Range.ofLine x).map Finding.range = some r →
      r.LiesIn x := by
    intro x r hr
    obtain ⟨finding, hfinding, rfl⟩ := Option.map_eq_some_iff.mp hr
    exact rule.liesIn_of_sentenceFinding hfinding
  have told := forall₂_filterMap_filter lies (rule.located lines)
  simp only [sentenceFinding?, Option.isSome_map] at told
  refine ⟨?_, told⟩
  refine (rule.located_pairwise lines).filterMap _ ?_
  intro x y hxy r hr r' hr'
  obtain ⟨start, stop, rfl, hstart, hstop, hend⟩ := lies x r hr
  obtain ⟨start', stop', rfl, hstart', -, -⟩ := lies y r' hr'
  simp only [Range.StartsBefore, Range.EndsBefore, Position.Before, Range.ofLine]
  rcases hxy with hline | ⟨hline, happart⟩
  · exact ⟨Or.inl hline, Or.inr (Or.inl hline)⟩
  · refine ⟨Or.inr ⟨hline, by omega⟩, ?_⟩
    rcases Nat.lt_or_ge stop start' with hlt | hge
    · exact Or.inr (Or.inr ⟨hline, hlt⟩)
    · have touch : stop = start' := by omega
      exact Or.inl (by rw [hline, touch])

end SmallIntegers

end NumeralLint
