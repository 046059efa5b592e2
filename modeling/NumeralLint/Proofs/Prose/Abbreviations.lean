/-
More abbreviations merge sentences and add no report.

The word before a full stop ends at a blank or a bracket, and after a cut
there is a blank: so the word is the same wherever the sentence of the full
stop starts (`Abbreviations.coversBefore_append`).  A full stop at which a
sentence ends with more abbreviations is therefore one at which a sentence
ends with fewer, and the parts with more are made of whole parts with fewer
(`Merges`).  Of sentences that are merged, the one that is reported when they
are one sentence was reported before, at the same numeral: its numerals are
small, and there are no numerals before them.
-/
import NumeralLint.Linter
import NumeralLint.Proofs.Prose.Depth
import NumeralLint.Proofs.Segmentation

namespace NumeralLint

open scoped List

/-- `Merges coarse fine`: each of the texts `coarse` is made of consecutive texts of `fine`, of at
least one, and none of these is left out. -/
inductive Merges : List Text → List Text → Prop
  | nil : Merges [] []
  | merge {coarse fine : List Text} (group : List Text) :
      group ≠ [] → Merges coarse fine → Merges (group.flatten :: coarse) (group ++ fine)

namespace Abbreviations

variable {fewer more : Abbreviations}

/-! ## The word before a full stop -/

theorem coversBefore_append (abbr : Abbreviations) {seen : Text}
    (h : ∃ c ∈ seen, isWordBreak c = true) (earlier : Text) :
    abbr.coversBefore (seen ++ earlier) = abbr.coversBefore seen := by
  obtain ⟨c, hc, hbreak⟩ := h
  have stops : (seen.takeWhile fun c => !isWordBreak c).length ≠ seen.length := by
    intro hall
    have whole := (List.takeWhile_prefix _).eq_of_length hall
    have := List.takeWhile_eq_self_iff.mp whole c hc
    simp [hbreak] at this
  rw [coversBefore, coversBefore, List.takeWhile_append, if_neg stops]

theorem covers_mono (h : fewer.words ⊆ more.words) {word : Text}
    (hcovers : fewer.covers word = true) : more.covers word = true := by
  have listed : ∀ w, fewer.words.contains w = true → more.words.contains w = true := by
    intro w hw
    exact List.contains_iff_mem.mpr (h (List.contains_iff_mem.mp hw))
  unfold covers at hcovers ⊢
  split at hcovers
  · next c =>
      rcases (Bool.or_eq_true _ _).mp hcovers with hc | hc
      · exact (Bool.or_eq_true _ _).mpr (Or.inl hc)
      · exact (Bool.or_eq_true _ _).mpr (Or.inr (listed _ hc))
  · exact listed _ hcovers

theorem endsSentence_anti (h : fewer.words ⊆ more.words) {before : Text} {mark : Char}
    {after : Text} (hends : more.endsSentence before mark after = true) :
    fewer.endsSentence before mark after = true := by
  rw [endsSentence, Bool.and_eq_true, Bool.not_eq_true', Bool.and_eq_false_iff] at hends ⊢
  obtain ⟨hafter, hmark | hword⟩ := hends
  · exact ⟨hafter, Or.inl hmark⟩
  · refine ⟨hafter, Or.inr (Bool.eq_false_iff.mpr ?_)⟩
    intro hcovers
    exact Bool.eq_false_iff.mp hword (covers_mono h hcovers)

/-! ## Parts -/

/-- `WordIsSeen earlier seen t`: if a full stop comes next in `t`, which follows on `earlier` and on
`seen`, nearest character first, the word before it does not reach into `earlier`. -/
def WordIsSeen (earlier : List Text) (seen t : Text) : Prop :=
  earlier = [] ∨ (∃ c ∈ seen, isWordBreak c = true) ∨ (seen = [] ∧ t.head?.all isBlank = true)

theorem WordIsSeen.read {earlier : List Text} {seen t : Text} {c : Char}
    (h : WordIsSeen earlier seen (c :: t)) (marks after : Text) :
    WordIsSeen earlier (marks ++ c :: seen) after := by
  rcases h with h | ⟨d, hd, hbreak⟩ | ⟨-, hblank⟩
  · exact Or.inl h
  · exact Or.inr (Or.inl ⟨d, List.mem_append_right _ (List.mem_cons_of_mem c hd), hbreak⟩)
  · have hc : isBlank c = true := by simpa using hblank
    exact Or.inr (Or.inl ⟨c, by simp, by simp [isWordBreak, hc]⟩)

/-- Whether a sentence ends at a stop does not depend on the text before the word that was seen. -/
theorem endsSentence_append {earlier : List Text} {seen t : Text} {c : Char}
    (hstop : isStop c = true) (hword : WordIsSeen earlier seen (c :: t)) (abbr : Abbreviations)
    (after : Text) :
    abbr.endsSentence (seen ++ earlier.flatten.reverse) c after =
      abbr.endsSentence seen c after := by
  have notBlank : isBlank c = false := not_isBlank_of_isEndMark (by simp [isEndMark, hstop])
  rcases hword with rfl | hbreak | ⟨-, hblank⟩
  · rw [List.flatten_nil, List.reverse_nil, List.append_nil]
  · rw [endsSentence, endsSentence, abbr.coversBefore_append hbreak]
  · simp [notBlank] at hblank

/-- Two runs over the same text: `earlier` are the parts that the run with fewer abbreviations has
made since the run with more last ended one, so that the part of the latter goes back over them. -/
theorem merges_partsAfter (h : fewer.words ⊆ more.words) (earlier : List Text) (seen t : Text)
    (hword : WordIsSeen earlier seen t) :
    Merges (more.partsAfter (seen ++ earlier.flatten.reverse) t)
      (earlier ++ fewer.partsAfter seen t) := by
  fun_induction partsAfter fewer seen t generalizing earlier with
  | case1 seen =>
      have last := Merges.merge (earlier ++ [seen.reverse]) (by simp) .nil
      simpa [partsAfter] using last
  | case2 seen c t hstop marks part hends ih =>
      -- The sentence ends here with fewer abbreviations; with more it ends here or goes on.
      obtain ⟨hblank, -⟩ := (Bool.and_eq_true _ _).mp hends
      rw [partsAfter, if_pos hstop]
      dsimp only
      split
      · have later := ih [] (Or.inl rfl)
        have cut := Merges.merge (earlier ++ [part.reverse]) (by simp) later
        simpa [part, marks] using cut
      · have later := ih (earlier ++ [part.reverse]) (Or.inr (Or.inr ⟨rfl, hblank⟩))
        simpa [part, marks] using later
  | case3 seen c t hstop marks part hends ih =>
      have goes : ¬more.endsSentence (seen ++ earlier.flatten.reverse) c (t.dropWhile isEndMark) =
          true := by
        rw [endsSentence_append hstop hword]
        exact mt (endsSentence_anti h) hends
      rw [partsAfter, if_pos hstop]
      dsimp only
      rw [if_neg goes]
      have later := ih earlier (hword.read marks.reverse _)
      simpa [part, marks] using later
  | case4 seen c t hstop ih =>
      rw [partsAfter, if_neg hstop]
      exact ih earlier (hword.read [] t)

theorem merges_parts (h : fewer.words ⊆ more.words) (t : Text) :
    Merges (more.parts t) (fewer.parts t) :=
  merges_partsAfter h [] [] t (Or.inl rfl)

end Abbreviations

/-! ## The boundaries of sentences -/

/-- The number of bytes of the line up to the end of the sentence. -/
def PlacedSentence.stop (s : PlacedSentence) : Nat := s.offset + s.text.width

theorem head?_sentencesOfParts (place : Nat) (parts : List Text) :
    (sentencesOfParts place parts).head?.map PlacedSentence.offset =
      if Text.trim parts.flatten = [] then none
      else some (place + Text.width (parts.flatten.takeWhile isBlank)) := by
  induction parts generalizing place with
  | nil => rfl
  | cons part rest ih =>
      rw [sentencesOfParts_cons, List.head?_append, Option.map_or, ih, List.flatten_cons]
      cases h : part.trim with
      | nil =>
          rw [sentencesOfParts_blank h, Text.takeWhile_isBlank_append_of_trim_eq_nil h]
          simp [sentencesOfParts, Text.trim_append_eq_nil, h, Nat.add_assoc]
      | cons d s =>
          rw [sentencesOfParts_sentence h, Text.takeWhile_isBlank_append_of_trim_ne_nil (by simp [h])]
          simp [Text.trim_append_eq_nil, h]

theorem getLast?_sentencesOfParts_singleton (place : Nat) (part : Text) :
    (sentencesOfParts place [part]).getLast?.map PlacedSentence.stop =
      if part.trim = [] then none else some (place + part.trimEnd.width) := by
  cases h : part.trim with
  | nil =>
      rw [sentencesOfParts_blank h]
      rfl
  | cons d s =>
      have ends := Text.trimEnd_eq_append_trim (t := part) (by simp [h])
      rw [sentencesOfParts_sentence h, ends, h, Text.width_append, ← Nat.add_assoc]
      rfl

theorem getLast?_sentencesOfParts (place : Nat) (parts : List Text) :
    (sentencesOfParts place parts).getLast?.map PlacedSentence.stop =
      if Text.trim parts.flatten = [] then none
      else some (place + Text.width (Text.trimEnd parts.flatten)) := by
  induction parts generalizing place with
  | nil => rfl
  | cons part rest ih =>
      rw [sentencesOfParts_cons, List.getLast?_append, Option.map_or, ih,
        getLast?_sentencesOfParts_singleton, List.flatten_cons]
      by_cases h : Text.trim rest.flatten = []
      · rw [if_pos h, Text.trimEnd_append_blanks (Text.trim_eq_nil.mp h)]
        simp [Text.trim_append_eq_nil, h]
      · rw [if_neg h, Text.trimEnd_append_of_trim_ne_nil h, Text.width_append]
        simp [Text.trim_append_eq_nil, h, Nat.add_assoc]

/-! ## What holds of every merged sentence -/

theorem sentencesOfParts_singleton_of_mem {place : Nat} {t : Text} {s : PlacedSentence}
    (h : s ∈ sentencesOfParts place [t]) : sentencesOfParts place [t] = [s] := by
  cases htrim : t.trim with
  | nil =>
      rw [sentencesOfParts_blank htrim] at h
      exact absurd h List.not_mem_nil
  | cons d u =>
      rw [sentencesOfParts_sentence htrim] at h ⊢
      rw [List.mem_singleton.mp h]
      rfl

/-- What is read off the sentences of a line is, with merged sentences, a part of what it was, if
this holds of every sentence that is merged of others. -/
theorem sublist_filterMap_sentencesOfParts {α : Type} {f : PlacedSentence → Option α}
    (hmerged : ∀ place group, SplitAtBlanks group →
      ∀ s ∈ sentencesOfParts place [group.flatten],
        (f s).toList <+ (sentencesOfParts place group).filterMap f)
    {coarse fine : List Text} (h : Merges coarse fine) (hblanks : SplitAtBlanks fine)
    (place : Nat) :
    (sentencesOfParts place coarse).filterMap f <+ (sentencesOfParts place fine).filterMap f := by
  induction h generalizing place with
  | nil => exact List.Sublist.refl _
  | @merge coarse fine group _ _ ih =>
      have here : (sentencesOfParts place [group.flatten]).filterMap f <+
          (sentencesOfParts place group).filterMap f := by
        cases hone : sentencesOfParts place [group.flatten] with
        | nil => exact List.nil_sublist _
        | cons s rest =>
            have hs : s ∈ sentencesOfParts place [group.flatten] := hone ▸ List.mem_cons_self
            have alone : [s].filterMap f = (f s).toList := by
              cases h : f s <;> simp [h]
            rw [← hone, sentencesOfParts_singleton_of_mem hs, alone]
            exact hmerged place group hblanks.left s hs
      rw [sentencesOfParts_cons, sentencesOfParts_append, List.filterMap_append,
        List.filterMap_append]
      exact here.append (ih hblanks.right _)

theorem offset_mem_of_merged {place : Nat} {group : List Text} {s : PlacedSentence}
    (h : s ∈ sentencesOfParts place [group.flatten]) :
    s.offset ∈ (sentencesOfParts place group).map PlacedSentence.offset := by
  have merged := head?_sentencesOfParts place [group.flatten]
  rw [sentencesOfParts_singleton_of_mem h, List.flatten_singleton,
    ← head?_sentencesOfParts] at merged
  exact List.mem_of_head? (List.head?_map.trans merged.symm)

theorem stop_mem_of_merged {place : Nat} {group : List Text} {s : PlacedSentence}
    (h : s ∈ sentencesOfParts place [group.flatten]) :
    s.stop ∈ (sentencesOfParts place group).map PlacedSentence.stop := by
  have merged := getLast?_sentencesOfParts place [group.flatten]
  rw [sentencesOfParts_singleton_of_mem h, List.flatten_singleton,
    ← getLast?_sentencesOfParts] at merged
  exact List.mem_of_getLast? (List.getLast?_map.trans merged.symm)

/-- If a merged sentence has its boundary from the sentences that it is made of, the boundaries in
a line are, with merged sentences, a part of what they were. -/
theorem sublist_map_sentencesOfParts {boundary : PlacedSentence → Nat}
    (hmerged : ∀ place group, ∀ s ∈ sentencesOfParts place [group.flatten],
      boundary s ∈ (sentencesOfParts place group).map boundary)
    {coarse fine : List Text} (h : Merges coarse fine) (hblanks : SplitAtBlanks fine)
    (place : Nat) :
    (sentencesOfParts place coarse).map boundary <+ (sentencesOfParts place fine).map boundary := by
  rw [← List.filterMap_eq_map]
  refine sublist_filterMap_sentencesOfParts ?_ h hblanks place
  intro place group _ s hs
  rw [List.filterMap_eq_map]
  exact List.singleton_sublist.mpr (hmerged place group s hs)

/-! ## Reports -/

namespace SmallIntegers

variable (rule : SmallIntegers)

/-- The numeral that is reported of the numerals of a sentence. -/
def offendingIn (found : List Numeral) : Option Numeral :=
  if found.all rule.isSmall then found.head? else none

theorem offendingIn_shift (d : Nat) (found : List Numeral) :
    rule.offendingIn (found.map (Numeral.shift d)) =
      (rule.offendingIn found).map (Numeral.shift d) := by
  have small : rule.isSmall ∘ Numeral.shift d = rule.isSmall := rfl
  rw [offendingIn, offendingIn, List.all_map, small, List.head?_map]
  split <;> rfl

/-- Where numerals are reported that are taken together, one of the lists that they come from is
reported alone. -/
theorem offendingIn_flatten_sublist (sentences : List (List Numeral)) :
    (rule.offendingIn sentences.flatten).toList <+ sentences.filterMap rule.offendingIn := by
  induction sentences with
  | nil => exact List.Sublist.refl _
  | cons found rest ih =>
      cases found with
      | nil => exact ih
      | cons n later =>
          by_cases hsmall : ((n :: later) ++ rest.flatten).all rule.isSmall = true
          · have first : (n :: later).all rule.isSmall = true := by
              rw [List.all_append, Bool.and_eq_true] at hsmall
              exact hsmall.1
            have here : rule.offendingIn (n :: later) = some n := if_pos first
            rw [List.flatten_cons, offendingIn, if_pos hsmall, List.filterMap_cons_some here]
            exact List.singleton_sublist.mpr List.mem_cons_self
          · rw [List.flatten_cons, offendingIn, if_neg hsmall]
            exact List.nil_sublist _

end SmallIntegers

/-- The numerals of a sentence, at their places in the line. -/
def PlacedSentence.numerals (s : PlacedSentence) : List Numeral :=
  s.text.numerals.map (Numeral.shift s.offset)

theorem numerals_of_merged {place : Nat} {group : List Text} (h : SplitAtBlanks group)
    {s : PlacedSentence} (hs : s ∈ sentencesOfParts place [group.flatten]) :
    s.numerals = ((sentencesOfParts place group).map PlacedSentence.numerals).flatten := by
  have spaced : ∀ parts, SplitAtBlanks parts →
      Spaced place parts.flatten (sentencesOfParts place parts) := by
    intro parts hparts
    exact @spaced_sentencesOfParts _ hparts [] (by simp) place
  have one : SplitAtBlanks [group.flatten] := ⟨fun h => absurd rfl h, trivial⟩
  have merged := (spaced [group.flatten] one).numerals_eq
  rw [List.flatten_singleton, (spaced group h).numerals_eq,
    sentencesOfParts_singleton_of_mem hs, List.flatMap_singleton] at merged
  exact merged.symm

namespace SmallIntegers

variable (limit : Int)

theorem finding?_of_found (rule : SmallIntegers) (place : Nat → Nat → Range)
    (s : PlacedSentence) :
    (rule.sentenceEvent? (.found s)).bind (Event.finding? place) =
      (rule.offendingIn s.numerals).map fun n => ⟨place n.start n.stop, message⟩ := by
  have event : rule.sentenceEvent? (.found s) = (rule.offendingIn s.text.numerals).map fun n =>
      .report (s.offset + n.start) (s.offset + n.stop) := rfl
  rw [event, PlacedSentence.numerals, offendingIn_shift]
  cases rule.offendingIn s.text.numerals with
  | none => rfl
  | some n =>
      have stop : (n.shift s.offset).stop = s.offset + n.stop := Nat.add_assoc _ _ _
      simp only [Option.map_some, Option.bind_some, Event.finding?, stop]
      rfl

theorem proseFindings_eq (abbr : Abbreviations) (place : Nat → Nat → Range) (line : Text) :
    proseFindings ⟨limit, abbr.sentences⟩ place line =
      ((sentencesOfParts 0 (abbr.parts line)).filterMap fun s =>
        offendingIn ⟨limit, abbr.sentences⟩ s.numerals).map fun n =>
          ⟨place n.start n.stop, message⟩ := by
  rw [proseFindings, proseEvents, placeAll_sentences, List.filterMap_map,
    List.filterMap_filterMap, List.map_filterMap]
  exact congrArg (List.filterMap · _) (funext fun s => finding?_of_found _ place s)

theorem proseFindings_sublist {fewer more : Abbreviations} (h : fewer.words ⊆ more.words)
    (place : Nat → Nat → Range) (line : Text) :
    proseFindings ⟨limit, more.sentences⟩ place line <+
      proseFindings ⟨limit, fewer.sentences⟩ place line := by
  rw [proseFindings_eq, proseFindings_eq]
  refine List.Sublist.map _ ?_
  refine sublist_filterMap_sentencesOfParts ?_ (Abbreviations.merges_parts h line)
    (fewer.splitAtBlanks_partsAfter [] line) 0
  intro place group hgroup s hs
  rw [numerals_of_merged hgroup hs]
  have reported := offendingIn_flatten_sublist ⟨limit, more.sentences⟩
    ((sentencesOfParts place group).map PlacedSentence.numerals)
  rwa [List.filterMap_map] at reported

theorem findings_sublist {fewer more : Abbreviations} (h : fewer.words ⊆ more.words)
    (place : Nat → Nat → Nat → Range) (lines : List Text) :
    findings ⟨limit, more.sentences⟩ place lines <+
      findings ⟨limit, fewer.sentences⟩ place lines :=
  findings_sublist_of_lines (proseFindings_sublist limit h) place lines

end SmallIntegers

namespace Abbreviations

variable {fewer more : Abbreviations}

/-- With more abbreviations, sentences are merged and nothing else is reported.  On every line, the
parts are made of whole parts, and the places where sentences start and where they end are some of
the places where they did; in every document, the rule on small integers reports a part of what it
did, in the same order. -/
theorem check_sublist (h : fewer.words ⊆ more.words) :
    (∀ line, Merges (more.parts line) (fewer.parts line) ∧
      (placedSentences line (more.sentences line)).map PlacedSentence.offset <+
        (placedSentences line (fewer.sentences line)).map PlacedSentence.offset ∧
      (placedSentences line (more.sentences line)).map PlacedSentence.stop <+
        (placedSentences line (fewer.sentences line)).map PlacedSentence.stop) ∧
    ∀ (limit : Int) (doc : Document),
      (Rule.smallIntegers ⟨limit, more.sentences⟩).check doc <+
        (Rule.smallIntegers ⟨limit, fewer.sentences⟩).check doc := by
  constructor
  · intro line
    have merges := merges_parts h line
    have blanks : SplitAtBlanks (fewer.parts line) := fewer.splitAtBlanks_partsAfter [] line
    rw [placedSentences_eq, placedSentences_eq]
    refine ⟨merges, ?_, ?_⟩
    · exact sublist_map_sentencesOfParts (fun _ _ _ => offset_mem_of_merged) merges blanks 0
    · exact sublist_map_sentencesOfParts (fun _ _ _ => stop_mem_of_merged) merges blanks 0
  · intro limit doc
    exact (SmallIntegers.findings_sublist limit h doc.originalRange doc.lines).map _

/-- The usual abbreviations and another one, in a line with two full stops after it. -/
theorem check_sublist_theorems :
    let more := usual.insertAll ["Thm.".toList]
    let doc := Document.plain "t.tex".toList "By Thm. 3 and thm. 4 it holds. So 12.".toList
    usual.words ⊆ more.words ∧
      (∀ line, Merges (more.parts line) (usual.parts line) ∧
        (placedSentences line (more.sentences line)).map PlacedSentence.offset <+
          (placedSentences line (usual.sentences line)).map PlacedSentence.offset ∧
        (placedSentences line (more.sentences line)).map PlacedSentence.stop <+
          (placedSentences line (usual.sentences line)).map PlacedSentence.stop) ∧
      ((Rule.smallIntegers ⟨10, more.sentences⟩).check doc <+
        (Rule.smallIntegers ⟨10, usual.sentences⟩).check doc) ∧
      ((Rule.smallIntegers ⟨10, more.sentences⟩).check doc).length = 1 ∧
      ((Rule.smallIntegers ⟨10, usual.sentences⟩).check doc).length = 2 := by
  intro more doc
  have added : usual.words ⊆ more.words := List.subset_append_left _ _
  obtain ⟨merged, reported⟩ := check_sublist added
  exact ⟨added, merged, reported 10 doc, by decide +kernel, by decide +kernel⟩

end Abbreviations

end NumeralLint
