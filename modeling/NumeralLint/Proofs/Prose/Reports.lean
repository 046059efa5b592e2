/-
What the rule on small integers reports.

Whatever cuts the lines into sentences, a sentence that is found stands in
the line (`exists_of_found`), a numeral of the sentence stands in the
sentence (`NumeralScan.mem_numerals`), and so the numeral that is reported
stands in the line at its columns.  The depth of blocks decides which lines
are read as prose and nothing else.
-/
import Mathlib.Data.List.TakeWhile
import NumeralLint.Proofs.Numerals
import NumeralLint.Proofs.Source.Pointing
import NumeralLint.Proofs.Text.Search
import NumeralLint.Prose.SmallIntegers

namespace NumeralLint

/-! ## The integer of a numeral -/

/-- `WritesInteger t v`: the text `t` is made of digits, possibly after a minus sign, and writes the
integer `v`. -/
inductive WritesInteger : Text → Int → Prop
  | plain {digits : Text} : digits ≠ [] → (∀ d ∈ digits, d.isDigit = true) →
      WritesInteger digits (Text.digitsValue digits)
  | minus {digits : Text} : digits ≠ [] → (∀ d ∈ digits, d.isDigit = true) →
      WritesInteger ('-' :: digits) (-(Text.digitsValue digits : Int))

namespace Numeral

theorem isDigit_of_mem_unsignedAt {t : Text} (h : '.' ∉ unsignedAt t) :
    ∀ d ∈ unsignedAt t, d.isDigit = true := by
  revert h
  unfold unsignedAt
  split
  · next rest _ =>
      dsimp only
      split
      · intro _ d hd
        exact List.mem_takeWhile_imp hd
      · intro h
        exact absurd (List.mem_append_right _ List.mem_cons_self) h
  · intro _ d hd
    exact List.mem_takeWhile_imp hd

theorem writesInteger_of_literalAt {s t : Text} (h : literalAt (s ++ t) = s) (hs : s ≠ [])
    (hpoint : '.' ∉ s) : WritesInteger s (signedValue s) := by
  obtain ⟨c, s, rfl⟩ := List.exists_cons_of_ne_nil hs
  by_cases hc : c = '-'
  · subst hc
    have signed : (if (unsignedAt (s ++ t)).isEmpty then [] else '-' :: unsignedAt (s ++ t)) =
        '-' :: s := h
    by_cases he : unsignedAt (s ++ t) = []
    · simp [he] at signed
    · have whole : unsignedAt (s ++ t) = s := by simpa [he] using signed
      have digits := isDigit_of_mem_unsignedAt (t := s ++ t) (by
        rw [whole]
        exact mt (List.mem_cons_of_mem _) hpoint)
      rw [whole] at he digits
      exact .minus he digits
  · have whole : unsignedAt (c :: s ++ t) = c :: s := by
      simpa [literalAt, hc] using h
    have digits := isDigit_of_mem_unsignedAt (t := c :: s ++ t) (by rwa [whole])
    have value : signedValue (c :: s) = Text.digitsValue (c :: s) := by
      simp [signedValue, hc]
    rw [whole] at digits
    rw [value]
    exact .plain hs digits

end Numeral

/-! ## Sentences and their numerals -/

theorem exists_of_found {s : PlacedSentence} {place : Nat} {rest : Text} {ss : List Text}
    (h : .found s ∈ placeAll place rest ss) :
    ∃ before after, rest = before ++ s.text ++ after ∧ s.offset = place + before.width := by
  fun_induction placeAll place rest ss with
  | case1 => simp at h
  | case2 place rest next ss _ ih => exact ih h
  | case3 place rest next ss _ _ ih =>
      rcases List.mem_cons.mp h with h | h
      · exact absurd h (by simp)
      · exact ih h
  | case4 place rest next ss _ before after hcut offset ih =>
      have whole := Text.cut_literal_eq_some hcut
      rcases List.mem_cons.mp h with h | h
      · obtain rfl := Placement.found.inj h
        exact ⟨before, after, whole, rfl⟩
      · obtain ⟨later, last, hafter, hoffset⟩ := ih h
        refine ⟨before ++ next ++ later, last, ?_, ?_⟩
        · rw [whole, hafter]
          simp only [List.append_assoc]
        · rw [hoffset]
          simp only [Text.width_append, offset]
          omega

namespace SmallIntegers

variable (rule : SmallIntegers)

/-- Whether the rule asks to spell the text out: it writes an integer from zero to the limit. -/
def AsksFor (marked : Text) : Prop := ∃ v, WritesInteger marked v ∧ 0 ≤ v ∧ v ≤ rule.limit

theorem asksFor_of_isSmall {n : Numeral} {after : Text} (hsmall : rule.isSmall n = true)
    (hlit : Numeral.literalAt (n.text ++ after) = n.text) (hne : n.text ≠ []) :
    rule.AsksFor n.text := by
  obtain ⟨v, hv, hbounds⟩ := (Option.any_eq_true _ _).mp hsmall
  have hint : n.integer? = some v := (Option.filter_eq_some_iff.mp hv).1
  rw [Numeral.integer?] at hint
  split at hint
  · exact absurd hint (by simp)
  · next hpoint =>
      obtain rfl := Option.some.inj hint
      have noPoint : '.' ∉ n.text := mt List.contains_iff_mem.mpr hpoint
      exact ⟨_, Numeral.writesInteger_of_literalAt hlit hne noPoint, by simpa using hbounds⟩

/-- The numeral at which a sentence is reported stands in it and is to be spelled out. -/
theorem exists_of_offending {sentence : Text} {n : Numeral}
    (h : rule.offending? sentence = some n) :
    ∃ before after, sentence = before ++ n.text ++ after ∧ n.start = before.width ∧
      rule.AsksFor n.text := by
  rw [offending?] at h
  split at h
  · next hall =>
      have hn : n ∈ sentence.numerals := List.mem_of_mem_head? h
      obtain ⟨before, after, whole, hstart, hne, hlit⟩ := NumeralScan.mem_numerals hn
      refine ⟨before, after, whole, ?_, ?_⟩
      · rw [hstart, Nat.zero_add]
      · exact rule.asksFor_of_isSmall (List.all_eq_true.mp hall n hn) hlit hne
  · exact absurd h (by simp)

/-! ## Lines and texts -/

theorem exists_of_report {line : Text} {start stop : Nat}
    (h : .report start stop ∈ rule.proseEvents line) :
    ∃ before marked after, line = before ++ marked ++ after ∧ start = before.width ∧
      stop = (before ++ marked).width ∧ rule.AsksFor marked := by
  obtain ⟨placement, hplacement, hevent⟩ := List.mem_filterMap.mp h
  cases placement with
  | missing text => simp [sentenceEvent?] at hevent
  | found s =>
      obtain ⟨n, hn, hreport⟩ := Option.map_eq_some_iff.mp hevent
      obtain ⟨rfl, rfl⟩ := Event.report.inj hreport
      obtain ⟨front, back, hline, hoffset⟩ := exists_of_found hplacement
      obtain ⟨before, after, hsentence, hstart, hasks⟩ := rule.exists_of_offending hn
      refine ⟨front ++ before, n.text, after ++ back, ?_, ?_, ?_, hasks⟩
      · rw [hline, hsentence]
        simp only [List.append_assoc]
      · rw [hoffset, hstart, Text.width_append, Nat.zero_add]
      · rw [Numeral.stop, hoffset, hstart]
        simp only [Text.width_append]
        omega

theorem report_mem_proseEvents {depth : Nat} {line : Text} {start stop : Nat}
    (h : .report start stop ∈ (rule.readLine depth line).2) :
    .report start stop ∈ rule.proseEvents line := by
  rcases List.mem_append.mp h with h | h
  · split at h
    · exact h
    · exact absurd h List.not_mem_nil
  · split at h
    · exact absurd (List.mem_singleton.mp h) (by simp)
    · exact absurd h List.not_mem_nil

theorem exists_depth_of_readLines {depth : Nat} {lines : List Text} {n : Nat} {events : List Event}
    (h : (rule.readLines depth lines)[n]? = some events) :
    ∃ d line, lines[n]? = some line ∧ events = (rule.readLine d line).2 := by
  induction lines generalizing depth n with
  | nil => simp [readLines] at h
  | cons line rest ih =>
      cases n with
      | zero => exact ⟨depth, line, rfl, (Option.some.inj h).symm⟩
      | succ n => exact ih h

/-- Every finding of the rule marks a text that is to be spelled out. -/
theorem exists_markedIn {place : Nat → Nat → Nat → Range} {lines : List Text} {finding : Finding}
    (h : finding ∈ rule.findings place lines) :
    finding.message = message ∧ ∃ before marked after,
      MarkedIn place (lines.map Text.trimEnd) finding.range before marked after ∧
        rule.AsksFor marked := by
  obtain ⟨found, hfound, hmem⟩ := List.mem_flatten.mp h
  obtain ⟨n, hn, rfl⟩ := List.mem_mapIdx.mp hfound
  obtain ⟨event, hevent, hfinding⟩ := List.mem_filterMap.mp hmem
  obtain ⟨depth, line, hline, hread⟩ :=
    rule.exists_depth_of_readLines (List.getElem?_eq_getElem hn)
  cases event with
  | missing text => exact absurd hfinding (by simp [Event.finding?])
  | strayEnd line => exact absurd hfinding (by simp [Event.finding?])
  | report start stop =>
      obtain rfl := Option.some.inj hfinding
      obtain ⟨before, marked, after, rfl, rfl, rfl, hasks⟩ :=
        rule.exists_of_report (rule.report_mem_proseEvents (hread ▸ hevent))
      exact ⟨rfl, before, marked, after, ⟨n, hline, rfl⟩, hasks⟩

end SmallIntegers

end NumeralLint
