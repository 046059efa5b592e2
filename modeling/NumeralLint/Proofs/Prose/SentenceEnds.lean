/-
Where a sentence ends does not hang on where it starts.

The scan looks for the word before a full stop no further back than the start
of the sentence, and passes over the marks that follow a stop; both could make
an end depend on the ends before it.  The first does not matter because a blank
follows on every end (`WordIsSeen`); the second says only which stops come first
in their runs, and this can be seen at the run (`NoOpenRun`).  `Ready` holds
these two together and is kept by every step of the scan, so the ends are those
that a reader finds who looks at one place of the text alone
(`endsAt_iff_parts`).  A sentence stands behind a blank or at the start of the
text, where that reader sees the same in the sentence as in the text, so a
sentence is not cut again (`sentences_of_mem_sentences`).
-/
import NumeralLint.Proofs.Prose.Abbreviations
import NumeralLint.Proofs.Text.Slices

namespace NumeralLint

/-- No stop stands among the end marks at the end of the text, so that a stop which follows is the
first of its run. -/
def NoOpenRun (t : Text) : Prop :=
  ∀ front marks, t = front ++ marks → (∀ c ∈ marks, isEndMark c = true) →
    ∀ c ∈ marks, isStop c = false

/-- Between `before` and `after` stands a run of end marks: a stop that belongs to no earlier run,
and all end marks that follow it directly. -/
structure EndRun (before : Text) (mark : Char) (marks after : Text) : Prop where
  stop : isStop mark = true
  first : NoOpenRun before
  follow : ∀ c ∈ marks, isEndMark c = true
  all : ∀ c ∈ after.head?, isEndMark c = false

/-- The last word of a text goes back to the last blank, opening bracket or tie, or else to the
start of the text. -/
def IsLastWord (t word : Text) : Prop :=
  (∀ c ∈ word, isWordBreak c = false) ∧
    ∃ lead, t = lead ++ word ∧ ∀ c ∈ lead.getLast?, isWordBreak c = true

namespace Abbreviations

variable (abbr : Abbreviations)

/-- A full stop after the word belongs to it: a word of one capital, or one that in small letters
is an abbreviation. -/
def Takes (word : Text) : Prop :=
  (∃ c, word = [c] ∧ isUppercase c = true) ∨ Text.lowercase word ∈ abbr.words

/-- A sentence ends between the two texts: after a run of end marks that a blank or the end of the
text follows, except a run that starts with a full stop which belongs to the word before it. -/
def EndsAt (front back : Text) : Prop :=
  ∃ before mark marks, front = before ++ mark :: marks ∧ EndRun before mark marks back ∧
    (∀ c ∈ back.head?, isBlank c = true) ∧
    ¬(mark = '.' ∧ ∃ word, IsLastWord before word ∧ abbr.Takes word)

end Abbreviations

/-! ## Runs -/

theorem isEndMark_of_isStop {c : Char} (h : isStop c = true) : isEndMark c = true := by
  simp [isEndMark, h]

theorem noOpenRun_nil : NoOpenRun [] := by
  intro front marks h _ c hc
  obtain ⟨-, rfl⟩ := List.append_eq_nil_iff.mp h.symm
  exact absurd hc List.not_mem_nil

theorem NoOpenRun.concat {t : Text} {c : Char} (hc : isStop c = false)
    (h : isEndMark c = false ∨ NoOpenRun t) : NoOpenRun (t ++ [c]) := by
  intro front marks whole hmarks
  rcases List.eq_nil_or_concat marks with rfl | ⟨init, d, rfl⟩
  · simp
  · rw [List.concat_eq_append] at whole hmarks ⊢
    rw [← List.append_assoc] at whole
    obtain ⟨rfl, hd⟩ := List.append_inj' whole rfl
    obtain rfl := (List.cons.inj hd).1
    obtain ⟨hinit, hlast⟩ := List.forall_mem_append.mp hmarks
    rcases h with hno | hopen
    · exact absurd (hlast c List.mem_cons_self) (by simp [hno])
    · exact List.forall_mem_append.mpr ⟨hopen front init rfl hinit, by simpa using hc⟩

theorem EndRun.not_noOpenRun_append {before marks after u v : Text} {mark : Char}
    (h : EndRun before mark marks after) (hmarks : marks = u ++ v) :
    ¬NoOpenRun (before ++ mark :: u) := by
  intro hopen
  have marked : ∀ c ∈ mark :: u, isEndMark c = true := by
    refine List.forall_mem_cons.mpr ⟨isEndMark_of_isStop h.stop, fun c hc => h.follow c ?_⟩
    exact hmarks ▸ List.mem_append_left v hc
  have nostop := hopen before (mark :: u) rfl marked mark List.mem_cons_self
  exact absurd h.stop (by simp [nostop])

theorem EndRun.unique {before before' marks marks' after : Text} {mark mark' : Char}
    (h : EndRun before mark marks after) (h' : EndRun before' mark' marks' after)
    (whole : before ++ mark :: marks = before' ++ mark' :: marks') :
    before = before' ∧ mark = mark' := by
  rcases Text.append_eq_append_cons whole with ⟨v, rfl, hmarks⟩ | ⟨v, rfl, hmarks⟩
  · exact absurd h.first (h'.not_noOpenRun_append hmarks)
  · cases v with
    | nil => exact ⟨(List.append_nil _).symm, (List.cons.inj hmarks).1⟩
    | cons d v =>
        obtain ⟨rfl, hmore⟩ := List.cons.inj hmarks
        exact absurd h'.first (h.not_noOpenRun_append hmore)

/-! ## The word before a run -/

theorem isLastWord_iff {t word : Text} :
    IsLastWord t word ↔ word = (t.reverse.takeWhile fun c => !isWordBreak c).reverse := by
  constructor
  · rintro ⟨hword, lead, rfl, hlead⟩
    have none : lead.reverse.takeWhile (fun c => !isWordBreak c) = [] := by
      rcases List.eq_nil_or_concat lead with rfl | ⟨s, c, rfl⟩
      · rfl
      · simp [hlead c (by simp)]
    have own : ∀ c ∈ word.reverse, (!isWordBreak c) = true := by
      intro c hc
      simp [hword c (List.mem_reverse.mp hc)]
    rw [List.reverse_append, List.takeWhile_append_of_pos own, none, List.append_nil,
      List.reverse_reverse]
  · rintro rfl
    refine ⟨?_, (t.reverse.dropWhile fun c => !isWordBreak c).reverse, ?_, ?_⟩
    · intro c hc
      simpa using List.mem_takeWhile_imp (List.mem_reverse.mp hc)
    · rw [← List.reverse_append, List.takeWhile_append_dropWhile, List.reverse_reverse]
    · intro c hc
      rw [List.getLast?_reverse] at hc
      have := List.head?_dropWhile_not (fun c => !isWordBreak c) t.reverse
      rw [Option.mem_def.mp hc] at this
      simpa using this

/-- The last word stays when a text is put before, unless the word starts the text and goes on into
what is put before it. -/
theorem IsLastWord.append {before word u : Text} (h : IsLastWord before word)
    (hu : ∀ c ∈ u.getLast?, isWordBreak c = true) : IsLastWord (u ++ before) word := by
  obtain ⟨hword, lead, rfl, hlead⟩ := h
  refine ⟨hword, u ++ lead, (List.append_assoc _ _ _).symm, fun c hc => ?_⟩
  cases hlast : lead.getLast? with
  | none => exact hu c (by simpa [List.getLast?_append, hlast] using hc)
  | some d => exact hlead c (by simpa [List.getLast?_append, hlast] using hc)

namespace Abbreviations

variable {abbr : Abbreviations}

theorem covers_iff {word : Text} : abbr.covers word = true ↔ abbr.Takes word := by
  unfold covers
  split
  · simp [Takes]
  · next several =>
      have notOne : ¬∃ c, word = [c] ∧ isUppercase c = true := fun ⟨c, hc, _⟩ => several c hc
      simp [Takes, notOne]

theorem coversBefore_reverse_iff {before : Text} :
    abbr.coversBefore before.reverse = true ↔
      ∃ word, IsLastWord before word ∧ abbr.Takes word := by
  simp [coversBefore, covers_iff, isLastWord_iff]

theorem endsSentence_iff {before marks after : Text} {mark : Char}
    (h : EndRun before mark marks after) :
    abbr.endsSentence before.reverse mark after = true ↔
      abbr.EndsAt (before ++ mark :: marks) after := by
  have blank : after.head?.all isBlank = true ↔ ∀ c ∈ after.head?, isBlank c = true := by
    cases after <;> simp
  rw [endsSentence, Bool.and_eq_true, Bool.not_eq_true', ← Bool.not_eq_true, Bool.and_eq_true,
    beq_iff_eq, coversBefore_reverse_iff, blank]
  constructor
  · rintro ⟨hblank, hword⟩
    exact ⟨before, mark, marks, rfl, h, hblank, hword⟩
  · rintro ⟨before', mark', marks', whole, h', hblank, hword⟩
    obtain ⟨rfl, rfl⟩ := h.unique h' whole
    exact ⟨hblank, hword⟩

end Abbreviations

/-! ## The scan -/

namespace Abbreviations

/-- The scan, which has made the parts `earlier` and read `seen`, nearest character first, sees of
the text before it what matters at its next stop: the word before that stop, and whether the stop
is the first of its run. -/
structure Ready (earlier : List Text) (seen t : Text) : Prop where
  word : WordIsSeen earlier seen t
  run : (∀ c ∈ t.head?, isEndMark c = false) ∨ NoOpenRun (earlier.flatten ++ seen.reverse)

theorem head?_dropWhile_isEndMark (t : Text) :
    ∀ c ∈ (t.dropWhile isEndMark).head?, isEndMark c = false := by
  intro c hc
  have := List.head?_dropWhile_not isEndMark t
  rw [Option.mem_def.mp hc] at this
  simpa using this

namespace Ready

variable {earlier : List Text} {seen t : Text} {c : Char}

theorem start (t : Text) : Ready [] [] t := ⟨Or.inl rfl, Or.inr noOpenRun_nil⟩

theorem read (h : Ready earlier seen (c :: t)) (hc : isStop c = false) :
    Ready earlier (c :: seen) t := by
  refine ⟨h.word.read [] t, Or.inr ?_⟩
  rw [List.reverse_cons, ← List.append_assoc]
  exact NoOpenRun.concat hc (h.run.imp_left fun hmark => hmark c rfl)

theorem readRun (h : Ready earlier seen (c :: t)) :
    Ready earlier ((t.takeWhile isEndMark).reverse ++ c :: seen) (t.dropWhile isEndMark) :=
  ⟨h.word.read _ _, Or.inl (head?_dropWhile_isEndMark t)⟩

theorem cut {earlier : List Text} {after : Text} (hblank : after.head?.all isBlank = true)
    (hall : ∀ c ∈ after.head?, isEndMark c = false) : Ready earlier [] after :=
  ⟨Or.inr (Or.inr ⟨rfl, hblank⟩), Or.inl hall⟩

theorem endRun (h : Ready earlier seen (c :: t)) (hc : isStop c = true) :
    EndRun (earlier.flatten ++ seen.reverse) c (t.takeWhile isEndMark) (t.dropWhile isEndMark) where
  stop := hc
  first := h.run.resolve_left fun hmark =>
    absurd (isEndMark_of_isStop hc) (by simp [hmark c rfl])
  follow _ hd := List.mem_takeWhile_imp hd
  all := head?_dropWhile_isEndMark t

/-- The scan decides as one does who sees the whole text. -/
theorem endsSentence_iff (h : Ready earlier seen (c :: t)) (hc : isStop c = true)
    (abbr : Abbreviations) :
    abbr.endsSentence seen c (t.dropWhile isEndMark) = true ↔
      abbr.EndsAt (earlier.flatten ++ seen.reverse ++ c :: t.takeWhile isEndMark)
        (t.dropWhile isEndMark) := by
  rw [← Abbreviations.endsSentence_iff (h.endRun hc), List.reverse_append, List.reverse_reverse,
    endsSentence_append hc h.word]

end Ready

variable {abbr : Abbreviations}

theorem partsAfter_ne_nil (abbr : Abbreviations) (seen t : Text) : abbr.partsAfter seen t ≠ [] := by
  fun_induction partsAfter abbr seen t with
  | case1 | case2 => exact List.cons_ne_nil _ _
  | case3 _ _ _ _ _ _ _ ih | case4 _ _ _ _ ih => exact ih

theorem endsAt_of_partsAfter (earlier : List Text) (seen t : Text) (h : Ready earlier seen t)
    {init rest : List Text} (hparts : abbr.partsAfter seen t = init ++ rest) (hinit : init ≠ [])
    (hrest : rest ≠ []) : abbr.EndsAt (earlier.flatten ++ init.flatten) rest.flatten := by
  fun_induction partsAfter abbr seen t generalizing earlier init with
  | case1 seen =>
      have two := congrArg List.length hparts
      have := List.length_pos_iff.mpr hinit
      have := List.length_pos_iff.mpr hrest
      rw [List.length_append, List.length_singleton] at two
      omega
  | case2 seen c t hstop marks part hends ih =>
      obtain ⟨first, init, rfl⟩ := List.exists_cons_of_ne_nil hinit
      obtain ⟨rfl, hlater⟩ := List.cons.inj hparts
      by_cases hnone : init = []
      · subst hnone
        have here := (h.endsSentence_iff hstop abbr).mp hends
        have rest_eq : rest = abbr.partsAfter [] (t.dropWhile isEndMark) := hlater.symm
        rw [rest_eq, flatten_partsAfter]
        simpa [part, marks] using here
      · have cut : Ready (earlier ++ [part.reverse]) [] (t.dropWhile isEndMark) :=
          .cut ((Bool.and_eq_true _ _).mp hends).1 (head?_dropWhile_isEndMark t)
        simpa using ih _ cut hlater hnone
  | case3 seen c t hstop marks part hends ih => exact ih earlier h.readRun hparts hinit
  | case4 seen c t hstop ih => exact ih earlier (h.read (Bool.eq_false_iff.mpr hstop)) hparts hinit

/-- What goes on over the first end marks goes on over all of them. -/
theorem exists_takeWhile_append (front : Text) {back : Text}
    (h : ∀ c ∈ back.head?, isEndMark c = false) :
    ∃ more, front = (front ++ back).takeWhile isEndMark ++ more ∧
      (front ++ back).dropWhile isEndMark = more ++ back := by
  induction front with
  | nil =>
      cases back with
      | nil => exact ⟨[], rfl, rfl⟩
      | cons c back => exact ⟨[], by simp [h c rfl], by simp [h c rfl]⟩
  | cons d front ih =>
      cases hd : isEndMark d with
      | false => exact ⟨d :: front, by simp [hd], by simp [hd]⟩
      | true =>
          obtain ⟨more, hfront, hmore⟩ := ih
          refine ⟨more, ?_, ?_⟩
          · rw [List.cons_append, List.takeWhile_cons, if_pos hd, List.cons_append, ← hfront]
          · rw [List.cons_append, List.dropWhile_cons, if_pos hd, hmore]

/-- A sentence does not end after a character that continues no run. -/
theorem Ready.not_endsAt {earlier : List Text} {seen t : Text} {c : Char}
    (h : Ready earlier seen (c :: t)) (hc : isStop c = false) (back : Text) :
    ¬abbr.EndsAt (earlier.flatten ++ seen.reverse ++ [c]) back := by
  rintro ⟨before, mark, marks, whole, hrun, -, -⟩
  rcases Text.append_eq_append_cons whole with ⟨v, hseen, hmarks⟩ | ⟨v, -, hmark⟩
  · have hmem : c ∈ marks := hmarks ▸ List.mem_append_right v List.mem_cons_self
    rcases h.run with hno | hopen
    · exact absurd (hrun.follow c hmem) (by simp [hno c rfl])
    · exact hrun.not_noOpenRun_append hmarks (hseen ▸ hopen)
  · cases v with
    | nil =>
        obtain ⟨rfl, -⟩ := List.cons.inj hmark
        exact absurd hrun.stop (by simp [hc])
    | cons d v => exact absurd (List.cons.inj hmark).2 (by simp)

theorem exists_partsAfter_of_endsAt (earlier : List Text) (seen t : Text)
    (h : Ready earlier seen t) {front back : Text} (whole : t = front ++ back) (hne : front ≠ [])
    (hends : abbr.EndsAt (earlier.flatten ++ seen.reverse ++ front) back) :
    ∃ init rest, abbr.partsAfter seen t = init ++ rest ∧ init ≠ [] ∧ rest ≠ [] ∧
      init.flatten = seen.reverse ++ front := by
  have after : ∀ c ∈ back.head?, isEndMark c = false := by
    obtain ⟨_, _, _, -, hrun, -, -⟩ := hends
    exact hrun.all
  obtain ⟨d, more, rfl⟩ := List.exists_cons_of_ne_nil hne
  fun_induction partsAfter abbr seen t generalizing earlier d more with
  | case1 => exact absurd whole.symm (by simp)
  | case2 seen c t hstop marks part cutHere ih =>
      obtain ⟨rfl, rfl⟩ := List.cons.inj whole
      obtain ⟨later, hmore, hlater⟩ := exists_takeWhile_append more after
      cases later with
      | nil =>
          refine ⟨[part.reverse], _, rfl, by simp, abbr.partsAfter_ne_nil _ _, ?_⟩
          rw [List.append_nil] at hmore
          conv => rhs; rw [hmore]
          simp [part, marks]
      | cons e later =>
          have cut : Ready (earlier ++ [part.reverse]) [] ((more ++ back).dropWhile isEndMark) :=
            .cut ((Bool.and_eq_true _ _).mp cutHere).1 (head?_dropWhile_isEndMark _)
          rw [hmore] at hends
          obtain ⟨init, rest, hparts, -, hrest, hinit⟩ :=
            ih _ cut e later hlater (by simp) (by simpa [part, marks] using hends)
          refine ⟨part.reverse :: init, rest, ?_, by simp, hrest, ?_⟩
          · rw [hparts]
            rfl
          · rw [List.flatten_cons, hinit]
            conv => rhs; rw [hmore]
            simp [part, marks]
  | case3 seen c t hstop marks part goesOn ih =>
      obtain ⟨rfl, rfl⟩ := List.cons.inj whole
      obtain ⟨later, hmore, hlater⟩ := exists_takeWhile_append more after
      rw [hmore] at hends
      cases later with
      | nil =>
          have here := h.endsSentence_iff hstop abbr
          rw [List.append_nil] at hends
          exact absurd (here.mpr (hlater ▸ hends)) goesOn
      | cons e later =>
          obtain ⟨init, rest, hparts, hsome, hrest, hinit⟩ :=
            ih earlier h.readRun e later hlater (by simp) (by simpa [part, marks] using hends)
          refine ⟨init, rest, hparts, hsome, hrest, ?_⟩
          rw [hinit]
          conv => rhs; rw [hmore]
          simp [part, marks]
  | case4 seen c t hstop ih =>
      obtain ⟨rfl, rfl⟩ := List.cons.inj whole
      have plain : isStop c = false := Bool.eq_false_iff.mpr hstop
      cases more with
      | nil => exact absurd hends (h.not_endsAt plain back)
      | cons e more =>
          obtain ⟨init, rest, hparts, hsome, hrest, hinit⟩ :=
            ih earlier (h.read plain) e more rfl (by simp) (by simpa using hends)
          exact ⟨init, rest, hparts, hsome, hrest, by simpa using hinit⟩

theorem endsAt_iff_parts {t front back : Text} (whole : t = front ++ back) :
    abbr.EndsAt front back ↔
      ∃ init rest, abbr.parts t = init ++ rest ∧ init ≠ [] ∧ rest ≠ [] ∧ init.flatten = front := by
  constructor
  · intro hends
    have hne : front ≠ [] := by
      obtain ⟨_, _, _, rfl, -⟩ := hends
      simp
    exact exists_partsAfter_of_endsAt [] [] t (.start t) whole hne hends
  · rintro ⟨init, rest, hparts, hinit, hrest, rfl⟩
    have hends := endsAt_of_partsAfter [] [] t (.start t) hparts hinit hrest
    have all : init.flatten ++ rest.flatten = init.flatten ++ back := by
      rw [← whole, ← abbr.flatten_parts t, hparts, List.flatten_append]
    rwa [List.append_cancel_left all] at hends

/-! ## The ends of the sentences in the line -/

theorem EndsAt.trimEnd_eq {front back : Text} (h : abbr.EndsAt front back) :
    front.trim ≠ [] ∧ front.trimEnd = front := by
  obtain ⟨before, mark, marks, rfl, hrun, -, -⟩ := h
  have notBlank : ∀ c ∈ mark :: marks, isBlank c = false := by
    refine List.forall_mem_cons.mpr ⟨not_isBlank_of_isEndMark (isEndMark_of_isStop hrun.stop), ?_⟩
    exact fun c hc => not_isBlank_of_isEndMark (hrun.follow c hc)
  constructor
  · intro hblank
    have := Text.trim_eq_nil.mp hblank mark (by simp)
    exact absurd this (by simp [notBlank mark List.mem_cons_self])
  · obtain ⟨s, c, hlast⟩ := (List.eq_nil_or_concat (before ++ mark :: marks)).resolve_left (by simp)
    rw [List.concat_eq_append] at hlast
    have hc : isBlank c = false := by
      have final := congrArg List.getLast? hlast
      rw [List.getLast?_concat, List.getLast?_append_cons] at final
      exact notBlank c (List.mem_of_getLast? final)
    rw [hlast]
    exact Text.dropTrailing_concat hc s

/-- The last sentence of the first parts ends where they do, up to blanks. -/
theorem stop_mem_of_parts {t : Text} {init rest : List Text} (hparts : abbr.parts t = init ++ rest)
    (hsome : Text.trim init.flatten ≠ []) :
    Text.width (Text.trimEnd init.flatten) ∈
      (placedSentences t (abbr.sentences t)).map PlacedSentence.stop := by
  have last := getLast?_sentencesOfParts 0 init
  rw [if_neg hsome, Nat.zero_add, ← List.getLast?_map] at last
  rw [placedSentences_eq, hparts, sentencesOfParts_append, List.map_append]
  exact List.mem_append_left _ (List.mem_of_getLast? last)

theorem exists_part_of_mem_sentencesOfParts {place : Nat} {parts : List Text} {s : PlacedSentence}
    (h : s ∈ sentencesOfParts place parts) :
    ∃ init part rest, parts = init ++ part :: rest ∧
      s ∈ sentencesOfParts (place + Text.width init.flatten) [part] := by
  induction parts generalizing place with
  | nil => exact absurd h List.not_mem_nil
  | cons part parts ih =>
      rw [sentencesOfParts_cons] at h
      rcases List.mem_append.mp h with here | later
      · exact ⟨[], part, parts, rfl, here⟩
      · obtain ⟨init, found, rest, rfl, hs⟩ := ih later
        refine ⟨part :: init, found, rest, rfl, ?_⟩
        rwa [List.flatten_cons, Text.width_append, ← Nat.add_assoc]

theorem exists_parts_of_mem_placedSentences {t : Text} {s : PlacedSentence}
    (h : s ∈ placedSentences t (abbr.sentences t)) :
    ∃ init part rest, abbr.parts t = init ++ part :: rest ∧
      Text.trim (init ++ [part]).flatten ≠ [] ∧
      s.stop = Text.width (Text.trimEnd (init ++ [part]).flatten) := by
  rw [placedSentences_eq] at h
  obtain ⟨init, part, rest, hparts, hs⟩ := exists_part_of_mem_sentencesOfParts h
  have last := getLast?_sentencesOfParts 0 (init ++ [part])
  rw [sentencesOfParts_append, sentencesOfParts_singleton_of_mem hs, List.getLast?_concat,
    Option.map_some, Nat.zero_add] at last
  split at last
  · exact absurd last (by simp)
  · next hsome => exact ⟨init, part, rest, hparts, hsome, Option.some.inj last⟩

/-- Sentences end where a run ends them, and at the end of the text up to its blanks. -/
theorem mem_stops_iff {t : Text} {place : Nat} :
    place ∈ (placedSentences t (abbr.sentences t)).map PlacedSentence.stop ↔
      (∃ front back, t = front ++ back ∧ abbr.EndsAt front back ∧ front.width = place) ∨
        (t.trim ≠ [] ∧ t.trimEnd.width = place) := by
  constructor
  · intro hplace
    obtain ⟨s, hs, rfl⟩ := List.mem_map.mp hplace
    obtain ⟨init, part, rest, hparts, hsome, hstop⟩ := exists_parts_of_mem_placedSentences hs
    rw [hstop]
    have whole : t = (init ++ [part]).flatten ++ rest.flatten := by
      rw [← abbr.flatten_parts t, hparts]
      simp
    cases rest with
    | nil =>
        rw [List.flatten_nil, List.append_nil] at whole
        exact Or.inr ⟨whole ▸ hsome, by rw [← whole]⟩
    | cons next rest =>
        have hends : abbr.EndsAt (init ++ [part]).flatten (next :: rest).flatten :=
          (endsAt_iff_parts whole).mpr ⟨init ++ [part], next :: rest, by simp [hparts], by simp,
            by simp, rfl⟩
        exact Or.inl ⟨_, _, whole, hends, by rw [hends.trimEnd_eq.2]⟩
  · rintro (⟨front, back, whole, hends, rfl⟩ | ⟨hsome, rfl⟩)
    · obtain ⟨init, rest, hparts, -, -, rfl⟩ := (endsAt_iff_parts whole).mp hends
      obtain ⟨hsome, hfront⟩ := hends.trimEnd_eq
      rw [← hfront]
      exact stop_mem_of_parts hparts hsome
    · have last := stop_mem_of_parts (List.append_nil (abbr.parts t)).symm
      rw [abbr.flatten_parts] at last
      exact last hsome

/-! ## A sentence on its own -/

/-- Blanks behind a text, or nothing at all, hide none of the runs and words that follow. -/
theorem EndsAt.append {front back u v : Text} (hu : ∀ c ∈ u.getLast?, isBlank c = true)
    (hback : back ≠ []) (h : abbr.EndsAt front back) : abbr.EndsAt (u ++ front) (back ++ v) := by
  obtain ⟨before, mark, marks, rfl, hrun, hblank, hword⟩ := h
  have head : (back ++ v).head? = back.head? := List.head?_append_of_ne_nil back hback
  have first : NoOpenRun (u ++ before) := by
    intro front marks whole hmarks
    rcases List.append_eq_append_iff.mp whole with ⟨x, rfl, hbefore⟩ | ⟨x, hx, rfl⟩
    · exact hrun.first x marks hbefore hmarks
    · rcases List.eq_nil_or_concat x with rfl | ⟨y, d, rfl⟩
      · exact hrun.first [] before rfl (by simpa using hmarks)
      · have hd : isBlank d = true := hu d (by rw [hx, List.concat_eq_append]; simp)
        have := not_isBlank_of_isEndMark (hmarks d (by simp))
        exact absurd hd (by simp [this])
  refine ⟨u ++ before, mark, marks, (List.append_assoc _ _ _).symm,
    ⟨hrun.stop, first, hrun.follow, head ▸ hrun.all⟩, head ▸ hblank, ?_⟩
  rintro ⟨hmark, word, hlast, htakes⟩
  refine hword ⟨hmark, word, ?_, htakes⟩
  -- The text has a last word on its own, which is the same, since there is only one.
  have own : IsLastWord before (before.reverse.takeWhile fun c => !isWordBreak c).reverse :=
    isLastWord_iff.mpr rfl
  have same := own.append (u := u) fun c hc => by simp [isWordBreak, hu c hc]
  rw [isLastWord_iff.mp hlast, ← isLastWord_iff.mp same]
  exact own

theorem sentences_of_uncut {s : Text} (htrim : s.trim = s) (hs : s ≠ [])
    (huncut : ∀ init rest, abbr.parts s = init ++ rest → init ≠ [] → rest ≠ [] →
      rest.flatten = []) : abbr.sentences s = [s] := by
  have flat := abbr.flatten_parts s
  obtain ⟨part, rest, hparts⟩ := List.exists_cons_of_ne_nil (abbr.partsAfter_ne_nil [] s)
  have nothing : rest.flatten = [] := by
    by_cases hrest : rest = []
    · rw [hrest, List.flatten_nil]
    · exact huncut [part] rest hparts (List.cons_ne_nil _ _) hrest
  rw [parts, hparts, List.flatten_cons, nothing, List.append_nil] at flat
  have empty : (rest.map Text.trim).filter (fun s => !s.isEmpty) = [] := by
    rw [List.filter_eq_nil_iff]
    intro u hu
    obtain ⟨p, hp, rfl⟩ := List.mem_map.mp hu
    rw [List.flatten_eq_nil_iff.mp nothing p hp]
    simp [Text.trim, Text.trimStart, Text.trimEnd, Text.dropTrailing]
  rw [sentences, parts, hparts, flat, List.map_cons, htrim,
    List.filter_cons_of_pos (by simpa using hs), empty]

/-- A sentence stands in its text at the start or behind a blank. -/
theorem exists_parts_of_mem_sentences {t s : Text} (h : s ∈ abbr.sentences t) :
    ∃ init part rest gap tail, abbr.parts t = init ++ part :: rest ∧ part = gap ++ s ++ tail ∧
      ∀ c ∈ (init.flatten ++ gap).getLast?, isBlank c = true := by
  obtain ⟨hmem, hsome⟩ := List.mem_filter.mp h
  obtain ⟨part, hpart, rfl⟩ := List.mem_map.mp hmem
  obtain ⟨init, rest, hparts⟩ := List.append_of_mem hpart
  obtain ⟨tail, whole, -⟩ := Text.exists_trim_append part
  refine ⟨init, part, rest, _, tail, hparts, whole, ?_⟩
  have blank : ∀ c ∈ List.takeWhile isBlank part, isBlank c = true :=
    fun c hc => List.mem_takeWhile_imp hc
  intro c hc
  rcases List.eq_nil_or_concat (List.takeWhile isBlank part) with hgap | ⟨gap, d, hgap⟩
  · -- Without a blank the part would start where a sentence ends, and there a blank follows.
    by_cases hinit : init = []
    · rw [hgap, hinit] at hc
      exact absurd hc (by simp)
    · have cut : t = init.flatten ++ (part :: rest).flatten := by
        rw [← abbr.flatten_parts t, hparts, List.flatten_append]
      have hends : abbr.EndsAt init.flatten (part :: rest).flatten :=
        (endsAt_iff_parts cut).mpr ⟨init, part :: rest, hparts, hinit, List.cons_ne_nil _ _, rfl⟩
      obtain ⟨_, _, _, -, -, hblank, -⟩ := hends
      obtain ⟨d, s, hs⟩ := List.exists_cons_of_ne_nil (l := part.trim) (by simpa using hsome)
      have head : (part :: rest).flatten.head? = some d := by
        rw [List.flatten_cons, whole, hgap, hs]
        rfl
      have hd := hblank d head
      exact absurd hd (by simp [Text.not_isBlank_of_trim_eq_cons hs])
  · rw [hgap, List.concat_eq_append, ← List.append_assoc, List.getLast?_concat] at hc
    obtain rfl := Option.mem_some_iff.mp hc
    exact blank d (by simp [hgap])

theorem sentences_of_mem_sentences {t s : Text} (h : s ∈ abbr.sentences t) :
    abbr.sentences s = [s] := by
  obtain ⟨htrim, hsome⟩ : s.trim = s ∧ s ≠ [] := by
    obtain ⟨hmem, hsome⟩ := List.mem_filter.mp h
    obtain ⟨part, -, rfl⟩ := List.mem_map.mp hmem
    exact ⟨Text.trim_trim part, by simpa using hsome⟩
  refine sentences_of_uncut htrim hsome ?_
  intro sinit srest hsparts hsinit hsrest
  by_contra hback
  obtain ⟨init, part, rest, gap, tail, hparts, hpart, hgap⟩ := exists_parts_of_mem_sentences h
  have hs : s = sinit.flatten ++ srest.flatten := by
    rw [← abbr.flatten_parts s, hsparts, List.flatten_append]
  have inner : abbr.EndsAt sinit.flatten srest.flatten :=
    (endsAt_iff_parts hs).mpr ⟨sinit, srest, hsparts, hsinit, hsrest, rfl⟩
  have hfront : sinit.flatten ≠ [] := by
    obtain ⟨_, _, _, hne, -⟩ := inner
    simp [hne]
  have whole : t = init.flatten ++ gap ++ sinit.flatten ++
      (srest.flatten ++ (tail ++ rest.flatten)) := by
    rw [← abbr.flatten_parts t, hparts, List.flatten_append, List.flatten_cons, hpart, hs]
    simp only [List.append_assoc]
  -- The text would be cut in the sentence, but there it is cut before and after its part only.
  obtain ⟨cuts, later, hcuts, -, -, hflat⟩ :=
    (endsAt_iff_parts whole).mp (inner.append hgap hback)
  have size := congrArg List.length hflat
  have front_pos := List.length_pos_iff.mpr hfront
  have back_pos := List.length_pos_iff.mpr hback
  have part_size := congrArg List.length hpart
  rw [hs] at part_size
  simp only [List.length_append] at size part_size
  rcases List.append_eq_append_iff.mp (hparts.symm.trans hcuts) with ⟨x, rfl, hx⟩ | ⟨x, rfl, hx⟩
  · cases x with
    | nil =>
        rw [List.append_nil] at size
        omega
    | cons first x =>
        obtain rfl := (List.cons.inj hx).1
        simp only [List.flatten_append, List.flatten_cons, List.length_append] at size
        omega
  · simp only [List.flatten_append, List.length_append] at size
    omega

/-- A sentence ends exactly where the text around the place says so: the text is cut after the runs
of end marks at which a sentence ends, and sentences end there and at the end of the text; and to
cut a sentence again leaves it whole. -/
theorem sentences_endAt (abbr : Abbreviations) (t : Text) :
    (∀ front back, t = front ++ back →
      (abbr.EndsAt front back ↔ ∃ init rest, abbr.parts t = init ++ rest ∧ init ≠ [] ∧
        rest ≠ [] ∧ init.flatten = front)) ∧
    (∀ place, place ∈ (placedSentences t (abbr.sentences t)).map PlacedSentence.stop ↔
      (∃ front back, t = front ++ back ∧ abbr.EndsAt front back ∧ front.width = place) ∨
        (t.trim ≠ [] ∧ t.trimEnd.width = place)) ∧
    ∀ s ∈ abbr.sentences t, abbr.sentences s = [s] :=
  ⟨fun _ _ => endsAt_iff_parts, fun _ => mem_stops_iff, fun _ => sentences_of_mem_sentences⟩

example : usual.sentences "See (Fig. 2.) A. B?' C.".toList =
    ["See (Fig. 2.)".toList, "A. B?'".toList, "C.".toList] := by decide +kernel

end Abbreviations

end NumeralLint
