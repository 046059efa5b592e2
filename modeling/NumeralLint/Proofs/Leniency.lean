/-
Options that report less.

A lower limit and a longer list of aligned types only take reports away.  The
limit decides which numerals are small and nothing else; a sentence is still
reported at its first numeral, or not at all (`offending?_mono`).  The types
decide on the verdict when a table is left and nothing else: two runs reach
the same tallies line by line, and what happens in them differs in verdicts
alone (`milder_readLines`).
-/
import Mathlib.Data.List.Forall2
import NumeralLint.Proofs.Prose.Depth

namespace NumeralLint

/-! ## Limits -/

namespace SmallIntegers

variable {limit limit' : Int} {sentences : Text → List Text}

theorem isSmall_mono (h : limit ≤ limit') {n : Numeral}
    (hn : isSmall ⟨limit, sentences⟩ n = true) : isSmall ⟨limit', sentences⟩ n = true := by
  obtain ⟨v, hv, hsmall⟩ := (Option.any_eq_true _ _).mp hn
  refine (Option.any_eq_true _ _).mpr ⟨v, hv, ?_⟩
  obtain ⟨hmin, hmax⟩ := of_decide_eq_true hsmall
  exact decide_eq_true ⟨hmin, Int.le_trans hmax h⟩

/-- What a lower limit asks for in a sentence, a higher one asks for too, at the same numeral. -/
theorem offending?_mono (h : limit ≤ limit') {sentence : Text} {n : Numeral}
    (hn : offending? ⟨limit, sentences⟩ sentence = some n) :
    offending? ⟨limit', sentences⟩ sentence = some n := by
  rw [offending?] at hn ⊢
  split at hn
  · next hall =>
      have all : sentence.numerals.all (isSmall ⟨limit', sentences⟩) = true := by
        rw [List.all_eq_true] at hall ⊢
        intro m hm
        exact isSmall_mono h (hall m hm)
      rw [if_pos all]
      exact hn
  · exact absurd hn (by simp)

theorem sentenceEvent?_mono (h : limit ≤ limit') {placement : Placement} {event : Event}
    (hevent : sentenceEvent? ⟨limit, sentences⟩ placement = some event) :
    sentenceEvent? ⟨limit', sentences⟩ placement = some event := by
  cases placement with
  | missing text => exact hevent
  | found s =>
      obtain ⟨n, hn, hreport⟩ := Option.map_eq_some_iff.mp hevent
      exact Option.map_eq_some_iff.mpr ⟨n, offending?_mono h hn, hreport⟩

/-- If whatever `f` makes of an element `g` makes of it too, `f` makes a part of what `g` makes. -/
theorem filterMap_sublist_filterMap {α β : Type} {f g : α → Option β}
    (h : ∀ a b, f a = some b → g a = some b) (l : List α) :
    (l.filterMap f).Sublist (l.filterMap g) := by
  induction l with
  | nil => exact List.Sublist.refl _
  | cons a l ih =>
      cases hf : f a with
      | some b =>
          rw [List.filterMap_cons_some hf, List.filterMap_cons_some (h a b hf)]
          exact ih.cons_cons b
      | none =>
          rw [List.filterMap_cons_none hf]
          cases hg : g a with
          | some b =>
              rw [List.filterMap_cons_some hg]
              exact ih.cons b
          | none =>
              rw [List.filterMap_cons_none hg]
              exact ih

theorem findings_sublist_of_le (h : limit ≤ limit') (place : Nat → Nat → Nat → Range)
    (lines : List Text) :
    (findings ⟨limit, sentences⟩ place lines).Sublist
      (findings ⟨limit', sentences⟩ place lines) := by
  refine findings_sublist_of_lines ?_ place lines
  intro place line
  have events : (proseEvents ⟨limit, sentences⟩ line).Sublist
      (proseEvents ⟨limit', sentences⟩ line) :=
    filterMap_sublist_filterMap (fun _ _ => sentenceEvent?_mono h) _
  exact events.filterMap _

end SmallIntegers

/-! ## Aligned types -/

namespace Alignment

open List (Forall₂)

/-- The same happens in two runs, but that the first may give a table a milder verdict. -/
inductive Event.Milder : Event → Event → Prop
  | same (event : Event) : Milder event event
  | verdict {rows : Nat} {anchor : Range} {misaligned misaligned' : Bool} :
      (misaligned = true → misaligned' = true) →
      Milder (.left rows misaligned anchor) (.left rows misaligned' anchor)

/-- Two readings reach the same tally, and the verdicts in the first are milder. -/
def Reading.Milder (reading reading' : Reading) : Prop :=
  reading.1 = reading'.1 ∧ Forall₂ Event.Milder reading.2 reading'.2

theorem Reading.Milder.refl (reading : Reading) : reading.Milder reading :=
  ⟨rfl, List.forall₂_same.mpr fun event _ => .same event⟩

theorem Reading.Milder.andThen {reading reading' : Reading} {next next' : TableTally → Reading}
    (h : reading.Milder reading') (hnext : ∀ tally, (next tally).Milder (next' tally)) :
    (reading.andThen next).Milder (reading'.andThen next') := by
  obtain ⟨tallies, events⟩ := h
  have later := hnext reading.1
  rw [Reading.andThen, Reading.andThen, ← tallies]
  exact ⟨later.1, List.rel_append events later.2⟩

section Rules

variable {rule rule' : Alignment}
  (h : ∀ tally, rule.needsAlignment tally = true → rule'.needsAlignment tally = true)
include h

theorem milder_leaveTable (tally : TableTally) :
    (rule.leaveTable tally).Milder (rule'.leaveTable tally) :=
  ⟨rfl, .cons (.verdict (h tally)) .nil⟩

variable (place : Nat → Nat → Range)

theorem milder_readInside (column : Nat) (t : Text) (tally : TableTally) :
    (rule.readInside place column t tally).Milder (rule'.readInside place column t tally) := by
  rw [readInside, readInside]
  split
  · exact .refl _
  · exact (Reading.Milder.refl _).andThen (milder_leaveTable h)

theorem milder_enterTable (line t : Text) (tally : TableTally) :
    (rule.enterTable place line t tally).Milder (rule'.enterTable place line t tally) := by
  rw [enterTable, enterTable]
  split
  · exact .refl _
  · exact (Reading.Milder.refl _).andThen (milder_readInside h place _ _)

theorem milder_readOutside (line t : Text) (tally : TableTally) :
    (rule.readOutside place line t tally).Milder (rule'.readOutside place line t tally) := by
  rw [readOutside, readOutside]
  split
  · exact .refl _
  · exact milder_enterTable h place line _ tally

theorem milder_readLine (tally : TableTally) (line : Text) :
    (rule.readLine place tally line).Milder (rule'.readLine place tally line) := by
  rw [readLine, readLine]
  split
  · split
    · exact ((Reading.Milder.refl _).andThen (milder_leaveTable h)).andThen
        (milder_readOutside h place line _)
    · split
      · exact .refl _
      · exact (Reading.Milder.refl _).andThen (milder_enterTable h place line _)
  · exact milder_readOutside h place line line tally

/-- Two runs in lock step: the tallies are the same after every line, so the verdicts of the two
rules are given on the same tables. -/
theorem milder_readLines (place : Nat → Nat → Nat → Range) (first : Nat) (tally : TableTally)
    (lines : List Text) :
    (rule.readLines place first tally lines).1 = (rule'.readLines place first tally lines).1 ∧
      Forall₂ (Forall₂ Event.Milder) (rule.readLines place first tally lines).2
        (rule'.readLines place first tally lines).2 := by
  induction lines generalizing first tally with
  | nil => exact ⟨rfl, .nil⟩
  | cons line rest ih =>
      obtain ⟨tallies, events⟩ := milder_readLine h (place first) tally line
      obtain ⟨last, later⟩ := ih (first + 1) (rule.readLine (place first) tally line).1
      rw [readLines, readLines, ← tallies]
      exact ⟨last, .cons events later⟩

end Rules

/-- Milder verdicts take reports of tables away, and nothing else. -/
theorem sublist_of_milder {events events' : List Event} (h : Forall₂ Event.Milder events events') :
    (events.filterMap Event.finding?).Sublist (events'.filterMap Event.finding?) ∧
      (events.filterMap Event.finding?).filter (·.message ≠ alignMessage) =
        (events'.filterMap Event.finding?).filter (·.message ≠ alignMessage) := by
  induction h with
  | nil => exact ⟨List.Sublist.refl _, rfl⟩
  | @cons event event' events events' hevent _ ih =>
      obtain ⟨part, others⟩ := ih
      cases hevent with
      | same =>
          rw [List.filterMap_cons, List.filterMap_cons]
          cases event.finding? with
          | none => exact ⟨part, others⟩
          | some finding =>
              refine ⟨part.cons_cons finding, ?_⟩
              simp only [List.filter_cons, others]
      | @verdict rows anchor misaligned misaligned' hverdict =>
          cases misaligned with
          | true =>
              obtain rfl := hverdict rfl
              exact ⟨part.cons_cons _, by simpa [Event.finding?] using others⟩
          | false =>
              cases misaligned' with
              | true => exact ⟨part.cons _, by simpa [Event.finding?] using others⟩
              | false => exact ⟨part, others⟩

/-- A column that is not of an aligned type is not of one when fewer types are aligned. -/
theorem needsAlignment_anti {threshold : Float} {types types' : List Char} (h : types ⊆ types')
    (tally : TableTally) (hneeds : needsAlignment ⟨threshold, types'⟩ tally = true) :
    needsAlignment ⟨threshold, types⟩ tally = true := by
  obtain ⟨⟨type, column⟩, hmem, hcolumn⟩ := List.any_eq_true.mp hneeds
  obtain ⟨hshare, haligned⟩ := Bool.and_eq_true_iff.mp hcolumn
  refine List.any_eq_true.mpr ⟨(type, column), hmem, Bool.and_eq_true_iff.mpr ⟨hshare, ?_⟩⟩
  have absent : type ∉ types' := by simpa using haligned
  have : type ∉ types := fun hin => absent (h hin)
  simpa using this

theorem findings_sublist_of_subset (threshold : Float) {types types' : List Char}
    (h : types ⊆ types') (place : Nat → Nat → Nat → Range) (lines : List Text) :
    (findings ⟨threshold, types'⟩ place lines).Sublist (findings ⟨threshold, types⟩ place lines) ∧
      (findings ⟨threshold, types'⟩ place lines).filter (·.message ≠ alignMessage) =
        (findings ⟨threshold, types⟩ place lines).filter (·.message ≠ alignMessage) :=
  sublist_of_milder <| List.rel_flatten <|
    (milder_readLines (needsAlignment_anti h) place 0 .idle (lines.map Text.trimEnd)).2

end Alignment

/-! ## Reports -/

namespace Rule

/-- Milder options only take reports away, whatever the document is and whatever cuts its lines into
sentences.  With a lower limit, the rule on small integers makes a part of the reports that it makes
with a higher one.  With more aligned types, the rule on tables makes a part of the reports that it
makes with fewer, and the reports that are not on the alignment of a table are all there. -/
theorem check_sublist_of_options :
    (∀ (sentences : Text → List Text) {limit limit' : Int}, limit ≤ limit' → ∀ doc : Document,
      ((smallIntegers ⟨limit, sentences⟩).check doc).Sublist
        ((smallIntegers ⟨limit', sentences⟩).check doc)) ∧
    ∀ (threshold : Float) {types types' : List Char}, types ⊆ types' → ∀ doc : Document,
      ((alignment ⟨threshold, types'⟩).check doc).Sublist
        ((alignment ⟨threshold, types⟩).check doc) ∧
      ((alignment ⟨threshold, types'⟩).check doc).filter
          (·.message ≠ Alignment.alignMessage) =
        ((alignment ⟨threshold, types⟩).check doc).filter
          (·.message ≠ Alignment.alignMessage) := by
  constructor
  · intro sentences limit limit' h doc
    exact (SmallIntegers.findings_sublist_of_le h doc.originalRange doc.lines).map _
  · intro threshold types types' h doc
    obtain ⟨part, others⟩ :=
      Alignment.findings_sublist_of_subset threshold h doc.originalRange doc.lines
    refine ⟨part.map _, ?_⟩
    rw [check, check, Document.advisories, Document.advisories, List.filter_map, List.filter_map]
    exact congrArg (List.map _) others

/-- A limit between two numerals, and a type that is aligned in one of two runs over a table with a
row that is too long. -/
theorem check_sublist_of_options_table :
    let text : Text := "We saw 3 cats. We saw 8 dogs.\n".toList ++
      "\\begin\x7btabular\x7d\x7blc\x7d\na & 1 \\\\\na & 1 & 2 \\\\\n\\end\x7btabular\x7d".toList
    let doc := Document.plain "t.tex".toList text
    let words (limit : Int) := (smallIntegers ⟨limit, Abbreviations.usual.sentences⟩).check doc
    let table (types : List Char) := (alignment ⟨0.5, types⟩).check doc
    ((5 : Int) ≤ 10 ∧ ['S'] ⊆ ['S', 'c']) ∧
      ((words 5).Sublist (words 10) ∧ (words 5).length = 1 ∧ (words 10).length = 2) ∧
      (table ['S', 'c']).Sublist (table ['S']) ∧
      (table ['S', 'c']).filter (·.message ≠ Alignment.alignMessage) =
        (table ['S']).filter (·.message ≠ Alignment.alignMessage) ∧
      (table ['S', 'c']).length = 1 ∧ (table ['S']).length = 2 := by
  intro text doc words table
  have lower : (5 : Int) ≤ 10 := by decide
  have fewer : ['S'] ⊆ ['S', 'c'] := List.cons_subset_cons _ (List.nil_subset _)
  obtain ⟨limits, types⟩ := check_sublist_of_options
  obtain ⟨part, others⟩ := types 0.5 fewer doc
  exact ⟨⟨lower, fewer⟩, ⟨limits _ lower doc, by decide +kernel, by decide +kernel⟩, part, others,
    by decide +kernel, by decide +kernel⟩

end Rule

end NumeralLint
