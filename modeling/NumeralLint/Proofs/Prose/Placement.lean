/-
Sentences are found as far to the left as they can be.

Each sentence is looked for from the end of the one before, and found at its
first occurrence there; `Locates` says this step by step, and everything below
is an induction over its steps.  What is found is never behind: wherever else
the sentences occur one after the other, the search has found each of them
there or before (`Locates.forall₂_of_occurrences`), and just there if no text
before an occurrence holds the first character of its sentence
(`Locates.eq_of_plainGaps`).
-/
import Mathlib.Data.List.Chain
import NumeralLint.Proofs.Prose.Abbreviations
import NumeralLint.Proofs.Prose.Slices

namespace NumeralLint

open Text
open scoped List

/-! ## One sentence after the other -/

/-- Each sentence with the end of the one before it, the first of them with `start`. -/
def withStarts (start : Nat) : List PlacedSentence → List (Nat × PlacedSentence)
  | [] => []
  | s :: ss => (start, s) :: withStarts s.stop ss

/-- `Locates front rest sentences placed`: of the sentences, looked for one after the other in the
rest of a line after `front`, just those in `placed` are found. -/
inductive Locates : Text → Text → List Text → List PlacedSentence → Prop
  | done {front rest : Text} : Locates front rest [] []
  | empty {front rest : Text} {ss : List Text} {placed : List PlacedSentence} :
      Locates front rest ss placed → Locates front rest ([] :: ss) placed
  /-- A sentence that does not occur in the rest of the line is passed over. -/
  | passed {front rest s : Text} {ss : List Text} {placed : List PlacedSentence} : s ≠ [] →
      (∀ w v, rest ≠ w ++ (s ++ v)) → Locates front rest ss placed →
      Locates front rest (s :: ss) placed
  /-- Of a sentence that occurs there, the first occurrence is found. -/
  | found {front before s after : Text} {ss : List Text} {placed : List PlacedSentence} : s ≠ [] →
      (∀ w v, before ++ (s ++ after) = w ++ (s ++ v) → before <+: w) →
      Locates (front ++ before ++ s) after ss placed →
      Locates front (before ++ (s ++ after)) (s :: ss) (⟨s, (front ++ before).width⟩ :: placed)

theorem locates_placeAll (front rest : Text) (ss : List Text) :
    Locates front rest ss ((placeAll front.width rest ss).filterMap Placement.sentence?) := by
  induction ss generalizing front rest with
  | nil => exact .done
  | cons s ss ih =>
      by_cases hs : s = []
      · subst hs
        exact .empty (ih front rest)
      · cases h : rest.cut (.literal s) with
        | none =>
            have step : placeAll front.width rest (s :: ss) =
                .missing s :: placeAll front.width rest ss := by simp [placeAll, hs, h]
            rw [step]
            refine .passed hs ?_ (ih front rest)
            rintro w v rfl
            obtain ⟨before, after, hcut, -⟩ := exists_cut_literal s w v
            exact absurd (h.symm.trans hcut) (by simp)
        | some parts =>
            obtain ⟨before, after⟩ := parts
            have whole := cut_literal_eq_some h
            rw [List.append_assoc] at whole
            subst whole
            rw [placeAll_found hs h, ← width_append, ← width_append]
            refine .found hs ?_ (ih (front ++ before ++ s) after)
            intro w v hparts
            exact prefix_of_cut_literal h hparts

namespace Locates

variable {front rest : Text} {ss : List Text} {placed : List PlacedSentence}

/-! ## What is found -/

theorem map_text_sublist (h : Locates front rest ss placed) :
    placed.map PlacedSentence.text <+ ss.filter fun s => !s.isEmpty := by
  induction h with
  | done => exact List.Sublist.refl []
  | empty _ ih => exact ih
  | @passed front rest s ss placed hs _ _ ih =>
      rw [List.filter_cons_of_pos (by simpa using hs)]
      exact ih.cons s
  | @found front before s after ss placed hs _ _ ih =>
      rw [List.filter_cons_of_pos (by simpa using hs)]
      exact ih.cons_cons s

theorem le_offset (h : Locates front rest ss placed) : ∀ o ∈ placed, front.width ≤ o.offset := by
  induction h with
  | done => simp
  | empty _ ih | passed _ _ _ ih => exact ih
  | @found front before s after ss placed _ _ _ ih =>
      refine List.forall_mem_cons.mpr ⟨by simp, ?_⟩
      intro o ho
      have later := ih o ho
      simp only [width_append] at later
      omega

theorem pairwise (h : Locates front rest ss placed) :
    placed.Pairwise fun o o' => o.offset < o'.offset ∧ o.stop ≤ o'.offset := by
  induction h with
  | done => exact List.Pairwise.nil
  | empty _ ih | passed _ _ _ ih => exact ih
  | @found front before s after ss placed hs _ hlater ih =>
      refine List.pairwise_cons.mpr ⟨?_, ih⟩
      intro o ho
      have later : (front ++ before ++ s).width ≤ o.offset := hlater.le_offset o ho
      have size : s.width ≠ 0 := fun h => hs (width_eq_zero.mp h)
      rw [width_append] at later
      refine ⟨?_, later⟩
      show (front ++ before).width < o.offset
      omega

theorem isLeast (h : Locates front rest ss placed) :
    ∀ start o, (start, o) ∈ withStarts front.width placed →
      IsLeast {p | start ≤ p ∧ (front ++ rest).part? p (p + o.text.width) = some o.text}
        o.offset := by
  induction h with
  | done => simp [withStarts]
  | empty _ ih | passed _ _ _ ih => exact ih
  | @found front before s after ss placed _ first _ ih =>
      have whole : front ++ (before ++ (s ++ after)) = front ++ before ++ s ++ after := by
        simp only [List.append_assoc]
      intro start o ho
      rcases List.mem_cons.mp ho with heq | ho
      · obtain ⟨rfl, rfl⟩ := Prod.mk.inj heq
        constructor
        · refine ⟨by simp, ?_⟩
          rw [whole, ← width_append]
          exact part?_append (front ++ before) s after
        · rintro p ⟨hp, hslice⟩
          obtain ⟨u, v, hparts, rfl, -⟩ := part?_eq_some_iff.mp hslice
          rw [List.append_assoc] at hparts
          obtain ⟨w, rfl, hw⟩ := exists_append_of_width_le hparts hp
          obtain ⟨x, rfl⟩ := first w v hw
          simp [width_append]
      · rw [PlacedSentence.stop, ← width_append] at ho
        rw [whole]
        exact ih start o ho

end Locates

/-! ## Other occurrences -/

/-- The sentences that are not empty occur in the line one after the other, from the place `start`
on. -/
structure Occurrences (line : Text) (start : Nat) (sentences : List Text)
    (occ : List PlacedSentence) : Prop where
  texts : occ.map PlacedSentence.text = sentences.filter fun s => !s.isEmpty
  slices : ∀ o ∈ occ, line.part? o.offset o.stop = some o.text
  from_start : ∀ o ∈ occ.head?, start ≤ o.offset
  apart : occ.IsChain fun o o' => o.stop ≤ o'.offset

/-- No text before an occurrence, from the one before or from `start` on, holds the first character
of its sentence. -/
def PlainGaps (line : Text) (start : Nat) (occ : List PlacedSentence) : Prop :=
  ∀ o ∈ withStarts start occ, ∀ gap ∈ line.part? o.1 o.2.offset, ∀ c ∈ o.2.text.head?, c ∉ gap

namespace Occurrences

variable {line front rest s : Text} {ss : List Text} {start : Nat} {occ : List PlacedSentence}

theorem of_le (h : Occurrences line start ss occ) {place : Nat} (hle : place ≤ start) :
    Occurrences line place ss occ where
  texts := h.texts
  slices := h.slices
  from_start o ho := Nat.le_trans hle (h.from_start o ho)
  apart := h.apart

theorem of_empty (h : Occurrences line start ([] :: ss) occ) : Occurrences line start ss occ :=
  ⟨h.texts, h.slices, h.from_start, h.apart⟩

theorem exists_cons (h : Occurrences (front ++ rest) front.width (s :: ss) occ) (hs : s ≠ []) :
    ∃ gap back later, rest = gap ++ (s ++ back) ∧ occ = ⟨s, (front ++ gap).width⟩ :: later ∧
      Occurrences (front ++ rest) (front ++ gap ++ s).width ss later := by
  have texts := h.texts
  rw [List.filter_cons_of_pos (by simpa using hs)] at texts
  obtain ⟨o, later, rfl, rfl, hlater⟩ := List.map_eq_cons_iff.mp texts
  obtain ⟨hslice, hslices⟩ := List.forall_mem_cons.mp h.slices
  obtain ⟨hnext, hchain⟩ := List.isChain_cons.mp h.apart
  obtain ⟨u, back, whole, hu, hstop⟩ := part?_eq_some_iff.mp hslice
  have past : front.width ≤ u.width := by
    rw [hu]
    exact h.from_start o rfl
  rw [List.append_assoc] at whole
  obtain ⟨gap, rfl, hrest⟩ := exists_append_of_width_le whole past
  refine ⟨gap, back, later, hrest, by rw [hu], hlater, hslices, ?_, hchain⟩
  intro o' ho'
  rw [hstop]
  exact hnext o' ho'

end Occurrences

namespace Locates

variable {front rest : Text} {ss : List Text} {placed occ : List PlacedSentence}

/-- What is found is not behind any other occurrences of the sentences. -/
theorem forall₂_of_occurrences (h : Locates front rest ss placed)
    (hocc : Occurrences (front ++ rest) front.width ss occ) :
    List.Forall₂ (fun s o => s.text = o.text ∧ s.offset ≤ o.offset) placed occ := by
  induction h generalizing occ with
  | done =>
      obtain rfl := List.map_eq_nil_iff.mp hocc.texts
      exact List.Forall₂.nil
  | empty _ ih => exact ih hocc.of_empty
  | passed hs none _ _ =>
      obtain ⟨gap, back, -, hgap, -⟩ := hocc.exists_cons hs
      exact absurd hgap (none gap back)
  | @found front before s after ss placed hs first _ ih =>
      obtain ⟨gap, back, later, hgap, rfl, hlater⟩ := hocc.exists_cons hs
      obtain ⟨x, rfl⟩ := first gap back hgap
      have whole : front ++ (before ++ (s ++ after)) = front ++ before ++ s ++ after := by
        simp only [List.append_assoc]
      -- The search goes on before the end of the occurrence, so it sees all later ones.
      have cursor : (front ++ before ++ s).width ≤ (front ++ (before ++ x) ++ s).width := by
        simp only [width_append]
        omega
      rw [whole] at hlater
      refine List.Forall₂.cons ⟨rfl, ?_⟩ (ih (hlater.of_le cursor))
      simp [width_append]

/-- Behind gaps without the first characters of their sentences, just those occurrences are
found. -/
theorem eq_of_plainGaps (h : Locates front rest ss placed)
    (hocc : Occurrences (front ++ rest) front.width ss occ)
    (hgaps : PlainGaps (front ++ rest) front.width occ) : placed = occ := by
  induction h generalizing occ with
  | done =>
      obtain rfl := List.map_eq_nil_iff.mp hocc.texts
      rfl
  | empty _ ih => exact ih hocc.of_empty hgaps
  | passed hs none _ _ =>
      obtain ⟨gap, back, -, hgap, -⟩ := hocc.exists_cons hs
      exact absurd hgap (none gap back)
  | @found front before s after ss placed hs first _ ih =>
      obtain ⟨gap, back, later, hgap, rfl, hlater⟩ := hocc.exists_cons hs
      obtain ⟨x, rfl⟩ := first gap back hgap
      obtain ⟨d, tail, rfl⟩ := List.exists_cons_of_ne_nil hs
      have slice : (front ++ (before ++ (d :: tail ++ after))).part? front.width
          (front ++ (before ++ x)).width = some (before ++ x) := by
        have part := part?_append front (before ++ x) (d :: tail ++ back)
        rw [List.append_assoc, ← hgap] at part
        exact part
      have absent : d ∉ before ++ x := hgaps _ List.mem_cons_self _ slice d rfl
      have nothing : x = [] := by
        rw [List.append_assoc] at hgap
        cases x with
        | nil => rfl
        | cons e x =>
            obtain ⟨rfl, -⟩ := List.cons.inj (List.append_cancel_left hgap)
            exact absurd (List.mem_append_right before List.mem_cons_self) absent
      subst nothing
      have whole : front ++ (before ++ (d :: tail ++ after)) =
          front ++ before ++ (d :: tail) ++ after := by
        simp only [List.append_assoc]
      rw [List.append_nil] at hlater ⊢
      refine congrArg (_ :: ·) (ih (whole ▸ hlater) ?_)
      intro o ho
      rw [← whole]
      refine hgaps o (List.mem_cons_of_mem _ ?_)
      rw [PlacedSentence.stop, ← width_append, List.append_nil]
      exact ho

end Locates

/-! ## A whole line -/

/-- What is found of the sentences of a line: slices of the line in order, each at its first
occurrence after the one before. -/
structure Located (line : Text) (sentences : List Text) (placed : List PlacedSentence) : Prop where
  sublist : placed.map PlacedSentence.text <+ sentences.filter fun s => !s.isEmpty
  slices : ∀ s ∈ placed, line.part? s.offset s.stop = some s.text
  apart : placed.Pairwise fun s s' => s.offset < s'.offset ∧ s.stop ≤ s'.offset
  leftmost : ∀ start s, (start, s) ∈ withStarts 0 placed →
    IsLeast {p | start ≤ p ∧ line.part? p (p + s.text.width) = some s.text} s.offset

/-- Sentences are found at their first occurrences, none of them behind any other occurrences of
them all; the latter are found themselves where their gaps do not hold the first characters of
sentences. -/
theorem located_placedSentences (line : Text) (sentences : List Text) :
    let placed := placedSentences line sentences
    Located line sentences placed ∧
      ∀ occ, Occurrences line 0 sentences occ →
        List.Forall₂ (fun s o => s.text = o.text ∧ s.offset ≤ o.offset) placed occ ∧
          (PlainGaps line 0 occ → placed = occ) := by
  intro placed
  have located : Locates [] line sentences placed := locates_placeAll [] line sentences
  constructor
  · constructor
    case sublist => exact located.map_text_sublist
    case slices => exact fun s hs => part?_of_mem_placedSentences hs
    case apart => exact located.pairwise
    case leftmost => exact located.isLeast
  · intro occ hocc
    exact ⟨located.forall₂_of_occurrences hocc, fun hgaps => located.eq_of_plainGaps hocc hgaps⟩

/-- A sentence that stands twice in a line is found twice, though the second place would do for the
first of them. -/
theorem located_placedSentences_twice :
    let line : Text := "  One 1.  One 1.  ".toList
    let sentence : Text := "One 1.".toList
    let occ : List PlacedSentence := [⟨sentence, 2⟩, ⟨sentence, 10⟩]
    Occurrences line 0 [sentence, [], sentence] occ ∧ PlainGaps line 0 occ ∧
      placedSentences line [sentence, [], sentence] = occ := by
  intro line sentence occ
  have occurs : Occurrences line 0 [sentence, [], sentence] occ := by
    refine ⟨by decide, by decide, by decide, ?_⟩
    exact List.isChain_cons_cons.mpr ⟨by decide, List.IsChain.singleton _⟩
  have gaps : PlainGaps line 0 occ := by
    intro o ho gap hgap c hc
    have first : line.part? 0 2 = some [' ', ' '] := by decide
    have second : line.part? 8 10 = some [' ', ' '] := by decide
    rcases List.mem_pair.mp ho with rfl | rfl
    · obtain rfl := Option.some.inj (first.symm.trans hgap)
      obtain rfl := Option.some.inj hc
      decide
    · obtain rfl := Option.some.inj (second.symm.trans hgap)
      obtain rfl := Option.some.inj hc
      decide
  exact ⟨occurs, gaps, ((located_placedSentences line _).2 occ occurs).2 gaps⟩

end NumeralLint
