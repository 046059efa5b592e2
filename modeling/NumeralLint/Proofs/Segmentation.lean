/-
Cutting a line into sentences loses nothing of it.

Every part of a line but the last ends in an end mark, and a blank follows
it (`SplitAtBlanks`).  So what lies between two sentences is blank and not
empty (`Spaced`); a sentence is found where it was cut, because no earlier
place has its first character (`placeAll_parts`); and a scan for numerals
sees the same in the sentences as in the line (`Spaced.numerals_eq`).
-/
import NumeralLint.Proofs.Numerals
import NumeralLint.Proofs.Text.Search
import NumeralLint.Proofs.Text.Trim
import NumeralLint.Prose.Placement
import NumeralLint.Prose.Sentence

namespace NumeralLint

/-- The sentences that the parts of a line make: each is what trimming leaves of its part, and its
place is the place of that slice.  `place` is the number of bytes before the first part. -/
def sentencesOfParts (place : Nat) : List Text → List PlacedSentence
  | [] => []
  | part :: rest =>
      if part.trim.isEmpty then sentencesOfParts (place + part.width) rest
      else
        ⟨part.trim, place + Text.width (part.takeWhile isBlank)⟩ ::
          sentencesOfParts (place + part.width) rest

theorem sentencesOfParts_blank {part : Text} (h : part.trim = []) (place : Nat)
    (rest : List Text) :
    sentencesOfParts place (part :: rest) = sentencesOfParts (place + part.width) rest := by
  simp [sentencesOfParts, h]

theorem sentencesOfParts_sentence {part s : Text} {d : Char} (h : part.trim = d :: s)
    (place : Nat) (rest : List Text) :
    sentencesOfParts place (part :: rest) =
      ⟨d :: s, place + Text.width (part.takeWhile isBlank)⟩ ::
        sentencesOfParts (place + part.width) rest := by
  simp [sentencesOfParts, h]

theorem sentencesOfParts_cons (place : Nat) (part : Text) (rest : List Text) :
    sentencesOfParts place (part :: rest) =
      sentencesOfParts place [part] ++ sentencesOfParts (place + part.width) rest := by
  cases h : part.trim with
  | nil => rw [sentencesOfParts_blank h, sentencesOfParts_blank h, sentencesOfParts, List.nil_append]
  | cons d s => rw [sentencesOfParts_sentence h, sentencesOfParts_sentence h]; rfl

theorem sentencesOfParts_append (place : Nat) (parts parts' : List Text) :
    sentencesOfParts place (parts ++ parts') =
      sentencesOfParts place parts ++
        sentencesOfParts (place + Text.width parts.flatten) parts' := by
  induction parts generalizing place with
  | nil => rfl
  | cons part rest ih =>
      rw [List.cons_append, sentencesOfParts_cons, ih, sentencesOfParts_cons place part rest,
        List.append_assoc, List.flatten_cons, Text.width_append, Nat.add_assoc]

/-! ## A sentence is found where it was cut -/

theorem placeAll_found {s rest before after : Text} (hs : s ≠ [])
    (h : Text.cut (.literal s) rest = some (before, after)) (place : Nat) (ss : List Text) :
    placeAll place rest (s :: ss) =
      .found ⟨s, place + before.width⟩ :: placeAll (place + before.width + s.width) after ss := by
  simp [placeAll, hs, h]

theorem map_text_sentencesOfParts (place : Nat) (parts : List Text) :
    (sentencesOfParts place parts).map PlacedSentence.text =
      (parts.map Text.trim).filter fun s => !s.isEmpty := by
  induction parts generalizing place with
  | nil => rfl
  | cons part rest ih =>
      cases h : part.trim with
      | nil => simp [sentencesOfParts, h, ih]
      | cons d s => simp [sentencesOfParts, h, ih]

/-- Looking for the sentences of parts, from blanks before the parts on, finds each of them at the
place of its slice: what lies between is blank, and a sentence does not start with a blank. -/
theorem placeAll_parts {gap : Text} (hgap : ∀ c ∈ gap, isBlank c = true) (place : Nat)
    (parts : List Text) :
    placeAll place (gap ++ parts.flatten)
        ((parts.map Text.trim).filter fun s => !s.isEmpty) =
      (sentencesOfParts (place + gap.width) parts).map .found := by
  induction parts generalizing place gap with
  | nil => rfl
  | cons part rest ih =>
      cases h : part.trim with
      | nil =>
          have blank : ∀ c ∈ gap ++ part, isBlank c = true :=
            List.forall_mem_append.mpr ⟨hgap, Text.trim_eq_nil.mp h⟩
          have later := ih blank place
          rw [Text.width_append, ← Nat.add_assoc, List.append_assoc] at later
          rw [sentencesOfParts_blank h, ← later]
          simp [h]
      | cons d s =>
          obtain ⟨tail, hpart, htail, size⟩ := Text.exists_append_of_trim_eq h
          have absent : d ∉ gap ++ part.takeWhile isBlank := by
            intro hd
            have notBlank := Text.not_isBlank_of_trim_eq_cons h
            rcases List.mem_append.mp hd with hd | hd
            · exact absurd (hgap d hd) (by simp [notBlank])
            · exact absurd (List.mem_takeWhile_imp hd) (by simp [notBlank])
          have whole : gap ++ (part :: rest).flatten =
              gap ++ part.takeWhile isBlank ++ (d :: s ++ (tail ++ rest.flatten)) := by
            rw [List.flatten_cons]
            conv => lhs; rw [hpart]
            simp only [List.append_assoc]
          have found := Text.cut_literal_of_not_mem absent (s := s) (tail ++ rest.flatten)
          have later := ih htail (place + Text.width (gap ++ part.takeWhile isBlank)
            + Text.width (d :: s))
          have ends : place + Text.width (gap ++ part.takeWhile isBlank) + Text.width (d :: s)
              + tail.width = place + gap.width + part.width := by
            rw [size, Text.width_append]
            omega
          have kept : ((part :: rest).map Text.trim).filter (fun s => !s.isEmpty) =
              (d :: s) :: (rest.map Text.trim).filter fun s => !s.isEmpty := by
            simp [h]
          rw [kept, whole, placeAll_found (by simp) found, later, ends,
            sentencesOfParts_sentence h, List.map_cons, Text.width_append, ← Nat.add_assoc]

/-- Every sentence of a line is found at the place of its part. -/
theorem placeAll_sentences (abbr : Abbreviations) (line : Text) :
    placeAll 0 line (abbr.sentences line) =
      (sentencesOfParts 0 (abbr.parts line)).map .found := by
  have found := @placeAll_parts [] (by simp) 0 (abbr.parts line)
  rw [List.nil_append, Abbreviations.flatten_parts] at found
  exact found

theorem placedSentences_eq (abbr : Abbreviations) (line : Text) :
    placedSentences line (abbr.sentences line) = sentencesOfParts 0 (abbr.parts line) := by
  rw [placedSentences, placeAll_sentences, List.filterMap_map]
  exact List.filterMap_some

/-! ## Blanks between the sentences -/

/-- Every part but the last ends in a character that is not blank, and after it comes a blank or
the end of the text. -/
def SplitAtBlanks : List Text → Prop
  | [] => True
  | part :: rest =>
      (rest ≠ [] → (∃ s c, part = s ++ [c] ∧ isBlank c = false) ∧
        rest.flatten.head?.all isBlank = true) ∧
      SplitAtBlanks rest

theorem SplitAtBlanks.right {parts parts' : List Text} (h : SplitAtBlanks (parts ++ parts')) :
    SplitAtBlanks parts' := by
  induction parts with
  | nil => exact h
  | cons part rest ih => exact ih h.2

theorem SplitAtBlanks.left {parts parts' : List Text} (h : SplitAtBlanks (parts ++ parts')) :
    SplitAtBlanks parts := by
  induction parts with
  | nil => trivial
  | cons part rest ih =>
      rw [List.cons_append] at h
      obtain ⟨hpart, hrest⟩ := h
      refine ⟨?_, ih hrest⟩
      intro hne
      obtain ⟨hends, hblank⟩ := hpart (by simp [hne])
      refine ⟨hends, ?_⟩
      rw [List.flatten_append, List.head?_append] at hblank
      cases hrest : rest.flatten.head? with
      | none => rfl
      | some c => simpa [hrest] using hblank

theorem not_isBlank_of_isEndMark {c : Char} (h : isEndMark c = true) : isBlank c = false := by
  simp only [isEndMark, isStop, isCloser, Bool.or_eq_true, decide_eq_true_eq, List.mem_cons,
    List.not_mem_nil, or_false] at h
  rcases h with (rfl | rfl | rfl) | (rfl | rfl | rfl | rfl | rfl) <;> decide

theorem Abbreviations.splitAtBlanks_partsAfter (abbr : Abbreviations) (seen t : Text) :
    SplitAtBlanks (abbr.partsAfter seen t) := by
  fun_induction partsAfter abbr seen t with
  | case1 seen => exact ⟨fun h => absurd rfl h, trivial⟩
  | case2 seen c t hstop marks part hends ih =>
      refine ⟨fun _ => ⟨?_, ?_⟩, ih⟩
      · -- The part ends in its last mark, or in the stop itself.
        cases hm : marks.reverse with
        | nil =>
            refine ⟨seen.reverse, c, by simp [part, hm], ?_⟩
            exact not_isBlank_of_isEndMark (by simp [isEndMark, hstop])
        | cons d ds =>
            refine ⟨(ds ++ c :: seen).reverse, d, by simp [part, hm], ?_⟩
            have hd : d ∈ marks := List.mem_reverse.mp (hm ▸ List.mem_cons_self)
            exact not_isBlank_of_isEndMark (List.mem_takeWhile_imp hd)
      · rw [abbr.flatten_partsAfter]
        exact (Bool.and_eq_true_iff.mp hends).1
  | case3 seen c t hstop marks part hends ih => exact ih
  | case4 seen c t hstop ih => exact ih

/-- `SpacedFrom place text ss`: the text, which stands after `place` bytes, is made of the
sentences `ss` at their places, each followed by blanks, of which there is at least one where
another sentence follows. -/
inductive SpacedFrom : Nat → Text → List PlacedSentence → Prop
  | done {place : Nat} : SpacedFrom place [] []
  | sentence {place : Nat} {d : Char} {s gap rest : Text} {ss : List PlacedSentence} :
      isBlank d = false → (∀ c ∈ gap, isBlank c = true) → (ss ≠ [] → gap ≠ []) →
      SpacedFrom (place + Text.width (d :: s) + gap.width) rest ss →
      SpacedFrom place (d :: s ++ gap ++ rest) (⟨d :: s, place⟩ :: ss)

/-- `Spaced place text ss`: the same of a text that may start with blanks. -/
def Spaced (place : Nat) (text : Text) (ss : List PlacedSentence) : Prop :=
  ∃ gap body, text = gap ++ body ∧ (∀ c ∈ gap, isBlank c = true) ∧
    SpacedFrom (place + gap.width) body ss

/-- Where a text that starts with a blank has a sentence, there are blanks before it. -/
theorem SpacedFrom.gap_ne_nil {place : Nat} {gap body : Text} {ss : List PlacedSentence}
    (h : SpacedFrom place body ss) (hs : ss ≠ [])
    (hblank : (gap ++ body).head?.all isBlank = true) : gap ≠ [] := by
  rintro rfl
  cases h with
  | done => exact hs rfl
  | sentence hd => simp [hd] at hblank

/-- The sentences of parts that are split at blanks have blanks between them. -/
theorem spaced_sentencesOfParts {parts : List Text} (h : SplitAtBlanks parts) {gap : Text}
    (hgap : ∀ c ∈ gap, isBlank c = true) (place : Nat) :
    Spaced place (gap ++ parts.flatten) (sentencesOfParts (place + gap.width) parts) := by
  induction parts generalizing place gap with
  | nil => exact ⟨gap, [], rfl, hgap, .done⟩
  | cons part rest ih =>
      obtain ⟨hpart, hrest⟩ := h
      cases htrim : part.trim with
      | nil =>
          have blank : ∀ c ∈ gap ++ part, isBlank c = true :=
            List.forall_mem_append.mpr ⟨hgap, Text.trim_eq_nil.mp htrim⟩
          have later := ih hrest blank place
          rw [Text.width_append, ← Nat.add_assoc, List.append_assoc] at later
          rw [sentencesOfParts_blank htrim]
          exact later
      | cons d s =>
          obtain ⟨tail, whole, htail, size⟩ := Text.exists_append_of_trim_eq htrim
          obtain ⟨between, body, hbody, hbetween, later⟩ := ih hrest htail
            (place + gap.width + Text.width (part.takeWhile isBlank) + Text.width (d :: s))
          have ends : place + gap.width + part.width = place + gap.width
              + Text.width (part.takeWhile isBlank) + Text.width (d :: s) + tail.width := by
            rw [size]
            omega
          have follows : (tail ++ rest.flatten).head?.all isBlank = true := by
            cases tail with
            | cons c tail => simpa using htail c List.mem_cons_self
            | nil =>
                cases rest with
                | nil => rfl
                | cons next rest => exact (hpart (by simp)).2
          refine ⟨gap ++ part.takeWhile isBlank, d :: s ++ between ++ body, ?_, ?_, ?_⟩
          · rw [List.flatten_cons]
            conv => lhs; rw [whole]
            simp only [List.append_assoc, ← hbody]
          · exact List.forall_mem_append.mpr ⟨hgap, fun c hc => List.mem_takeWhile_imp hc⟩
          · rw [sentencesOfParts_sentence htrim, ends, Text.width_append, ← Nat.add_assoc]
            refine .sentence (Text.not_isBlank_of_trim_eq_cons htrim) hbetween ?_ later
            intro hs
            exact later.gap_ne_nil hs (hbody ▸ follows)

/-! ## Numerals -/

/-- No numeral is lost, cut, merged or moved where a text is cut at blanks. -/
theorem SpacedFrom.numerals_eq {place : Nat} {text : Text} {ss : List PlacedSentence}
    (h : SpacedFrom place text ss) :
    NumeralScan.numerals ⟨place, text⟩ =
      ss.flatMap fun s => s.text.numerals.map (Numeral.shift s.offset) := by
  induction h with
  | done => exact NumeralScan.numerals_nil _
  | @sentence place d s gap rest ss hd hgap hsep later ih =>
      have follows : (gap ++ rest).head?.all isBlank = true := by
        cases gap with
        | cons c gap => simpa using hgap c List.mem_cons_self
        | nil =>
            cases later with
            | done => rfl
            | sentence => exact absurd rfl (hsep (by simp))
      rw [List.append_assoc, NumeralScan.numerals_append follows,
        NumeralScan.numerals_blanks hgap, ih, List.flatMap_cons, NumeralScan.numerals_eq_map]

theorem Spaced.numerals_eq {place : Nat} {text : Text} {ss : List PlacedSentence}
    (h : Spaced place text ss) :
    NumeralScan.numerals ⟨place, text⟩ =
      ss.flatMap fun s => s.text.numerals.map (Numeral.shift s.offset) := by
  obtain ⟨gap, body, rfl, hgap, from_⟩ := h
  rw [NumeralScan.numerals_blanks hgap, from_.numerals_eq]

/-- Cutting a line into sentences and looking for them in the line loses nothing: every sentence is
found, at the place of the slice that was cut; before, between and after the sentences there are
only blanks, and between two of them at least one; and the numerals of the sentences, moved to the
places of the sentences, are the numerals of the line. -/
theorem placedSentences_lossless (abbr : Abbreviations) (line : Text) :
    let placed := placedSentences line (abbr.sentences line)
    placed.map PlacedSentence.text = abbr.sentences line ∧
      ((abbr.parts line).flatten = line ∧ placed = sentencesOfParts 0 (abbr.parts line)) ∧
      Spaced 0 line placed ∧
      line.numerals = placed.flatMap fun s => s.text.numerals.map (Numeral.shift s.offset) := by
  intro placed
  have sliced : placed = sentencesOfParts 0 (abbr.parts line) := placedSentences_eq abbr line
  have flat : (abbr.parts line).flatten = line := abbr.flatten_parts line
  have spaced : Spaced 0 line placed := by
    have := @spaced_sentencesOfParts _ (abbr.splitAtBlanks_partsAfter [] line) [] (by simp) 0
    rw [List.nil_append, abbr.flatten_partsAfter] at this
    rw [sliced]
    exact this
  refine ⟨?_, ⟨flat, sliced⟩, spaced, spaced.numerals_eq⟩
  rw [sliced]
  exact map_text_sentencesOfParts 0 _

end NumeralLint
