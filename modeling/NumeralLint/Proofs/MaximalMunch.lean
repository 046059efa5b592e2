/-
The numerals of a text are its maximal munch.

`MaximalMunch` says which numerals a text has without saying how they are
looked for: they are written as numerals are, they stand one after the other
in the text and cover its digits, and what stands around each of them could
not belong to it (`Fits`).  These conditions leave no choice.  Before the
first numeral there is no digit, and there a scan finds nothing, since a minus
sign or a point that could start a numeral would have to stand right before
it; at the first numeral the scan takes just that numeral
(`literalAt_of_fits`).  So a scan finds the numerals of the maximal munch and
no others (`maximalMunch_iff`).

What stands before the text matters for its first numeral only, and a scan
goes on after a numeral where a minus sign or point before it cannot be
missed (`Clear`): a numeral ends in a digit.
-/
import Mathlib.Data.List.Basic
import Mathlib.Data.List.TakeWhile
import NumeralLint.Proofs.Numerals
import NumeralLint.Proofs.Text.Slices

namespace NumeralLint

namespace Numeral

/-! ## How numerals are written -/

/-- A numeral without sign: digits, or digits (possibly none), a point and digits. -/
inductive Unsigned : Text → Prop
  | whole {digits : Text} : digits ≠ [] → (∀ d ∈ digits, d.isDigit = true) → Unsigned digits
  | pointed {whole places : Text} : (∀ d ∈ whole, d.isDigit = true) → places ≠ [] →
      (∀ d ∈ places, d.isDigit = true) → Unsigned (whole ++ '.' :: places)

/-- A numeral, `-?[0-9]*\.?[0-9]+`: one without sign, or a minus sign and one. -/
inductive Literal : Text → Prop
  | plain {s : Text} : Unsigned s → Literal s
  | minus {s : Text} : Unsigned s → Literal ('-' :: s)

/-- The text does not start with a digit. -/
def NoDigitHead (t : Text) : Prop := ∀ d ∈ t.head?, d.isDigit = false

/-- The text starts neither with a digit nor with a point and a digit. -/
def NoUnsignedHead (t : Text) : Prop :=
  NoDigitHead t ∧ ∀ u, t = '.' :: u → NoDigitHead u

/-- What fits before a text: a minus sign only where no numeral without sign starts, a point only
where no digit stands. -/
def Clear (before t : Text) : Prop :=
  (before.getLast? = some '-' → NoUnsignedHead t) ∧ (before.getLast? = some '.' → NoDigitHead t)

/-- The numeral `s` stands between texts of which nothing can belong to it: no digit follows, and
if it has no point, no point and digit; no minus sign stands before it unless it has one, and no
point before its first digit. -/
structure Fits (before s after : Text) : Prop where
  noDigit_after : NoDigitHead after
  noPlaces_after : '.' ∉ s → ∀ u, after = '.' :: u → NoDigitHead u
  noMinus_before : s.head? ≠ some '-' → before.getLast? ≠ some '-'
  noPoint_before : (∃ d ∈ s.head?, d.isDigit = true) → before.getLast? ≠ some '.'

theorem not_isDigit_point : Char.isDigit '.' = false := by decide

theorem not_isDigit_minus : Char.isDigit '-' = false := by decide

theorem noDigitHead_cons {c : Char} {t : Text} : NoDigitHead (c :: t) ↔ c.isDigit = false := by
  constructor
  · intro h
    exact h c rfl
  · intro h d hd
    obtain rfl := Option.some.inj hd
    exact h

theorem noUnsignedHead_cons {c : Char} {t : Text} (hd : c.isDigit = false)
    (hp : c = '.' → NoDigitHead t) : NoUnsignedHead (c :: t) := by
  refine ⟨noDigitHead_cons.mpr hd, ?_⟩
  intro u hu
  obtain ⟨rfl, rfl⟩ := List.cons.inj hu
  exact hp rfl

theorem noDigitHead_dropWhile (t : Text) : NoDigitHead (t.dropWhile Char.isDigit) := by
  intro d hd
  have := List.head?_dropWhile_not Char.isDigit t
  rw [Option.mem_def.mp hd] at this
  simpa using this

theorem takeWhile_isDigit {s t : Text} (hs : ∀ d ∈ s, d.isDigit = true) (ht : NoDigitHead t) :
    (s ++ t).takeWhile Char.isDigit = s ∧ (s ++ t).dropWhile Char.isDigit = t := by
  rw [List.takeWhile_append_of_pos hs, List.dropWhile_append_of_pos hs]
  cases t with
  | nil => simp
  | cons c t => simp [noDigitHead_cons.mp ht]

theorem literalAt_of_ne {t : Text} (h : t.head? ≠ some '-') : literalAt t = unsignedAt t := by
  unfold literalAt
  split
  · exact absurd rfl h
  · rfl

theorem literalAt_minus (t : Text) :
    literalAt ('-' :: t) = if unsignedAt t = [] then [] else '-' :: unsignedAt t := by
  simp [literalAt]

/-! ## What a scan takes at one place -/

theorem exists_unsignedAt_append (t : Text) :
    ∃ after, t = unsignedAt t ++ after ∧ NoDigitHead after ∧
      ('.' ∉ unsignedAt t → NoUnsignedHead after) ∧
      (unsignedAt t ≠ [] → Unsigned (unsignedAt t)) := by
  have whole := List.takeWhile_append_dropWhile (p := Char.isDigit) (l := t)
  have digits : ∀ d ∈ t.takeWhile Char.isDigit, d.isDigit = true :=
    fun d hd => List.mem_takeWhile_imp hd
  have stops := noDigitHead_dropWhile t
  unfold unsignedAt
  split
  · next rest hrest =>
      rw [hrest] at whole stops
      dsimp only
      split
      · next hplaces =>
          have noDigit : NoDigitHead rest := by
            have places : rest.takeWhile Char.isDigit = [] := List.isEmpty_iff.mp hplaces
            have := noDigitHead_dropWhile rest
            rw [← List.takeWhile_append_dropWhile (p := Char.isDigit) (l := rest), places]
            exact this
          refine ⟨'.' :: rest, whole.symm, stops, fun _ => ?_, fun h => .whole h digits⟩
          exact noUnsignedHead_cons not_isDigit_point fun _ => noDigit
      · next hplaces =>
          have places : rest.takeWhile Char.isDigit ≠ [] := by simpa using hplaces
          refine ⟨rest.dropWhile Char.isDigit, ?_, noDigitHead_dropWhile rest, ?_, ?_⟩
          · rw [List.append_assoc, List.cons_append, List.takeWhile_append_dropWhile]
            exact whole.symm
          · intro h
            exact absurd (List.mem_append_right _ List.mem_cons_self) h
          · intro _
            exact .pointed digits places fun d hd => List.mem_takeWhile_imp hd
  · next hpoint =>
      refine ⟨t.dropWhile Char.isDigit, whole.symm, stops, fun _ => ⟨stops, ?_⟩, ?_⟩
      · intro u hu
        exact absurd hu (hpoint u)
      · exact fun h => .whole h digits

theorem unsignedAt_eq_nil_iff {t : Text} : unsignedAt t = [] ↔ NoUnsignedHead t := by
  constructor
  · intro h
    obtain ⟨after, whole, -, stops, -⟩ := exists_unsignedAt_append t
    rw [h] at whole stops
    exact whole ▸ stops List.not_mem_nil
  · intro ⟨hdigit, hpoint⟩
    have none := takeWhile_isDigit (s := []) (by simp) hdigit
    rw [List.nil_append] at none
    unfold unsignedAt
    rw [none.1, none.2]
    split
    · next rest =>
        have places := takeWhile_isDigit (s := []) (by simp) (hpoint rest rfl)
        rw [List.nil_append] at places
        simp [places.1]
    · rfl

theorem unsignedAt_of_unsigned {s after : Text} (hs : Unsigned s) (hafter : NoDigitHead after)
    (hplaces : '.' ∉ s → NoUnsignedHead after) : unsignedAt (s ++ after) = s := by
  cases hs with
  | whole hne hdigits =>
      have noPoint : '.' ∉ s := fun h => absurd (hdigits _ h) (by simp [not_isDigit_point])
      obtain ⟨taken, dropped⟩ := takeWhile_isDigit hdigits hafter
      unfold unsignedAt
      rw [taken, dropped]
      split
      · next rest =>
          have places := takeWhile_isDigit (s := []) (by simp) ((hplaces noPoint).2 rest rfl)
          rw [List.nil_append] at places
          simp [places.1]
      · rfl
  | @pointed whole places hwhole hne hdigits =>
      have point : NoDigitHead ('.' :: (places ++ after)) := noDigitHead_cons.mpr not_isDigit_point
      obtain ⟨taken, dropped⟩ := takeWhile_isDigit hwhole point
      rw [List.append_assoc, List.cons_append]
      unfold unsignedAt
      rw [taken, dropped]
      simp [(takeWhile_isDigit hdigits hafter).1, hne]

theorem Unsigned.ne_nil {s : Text} (h : Unsigned s) : s ≠ [] := by
  cases h with
  | whole hne => exact hne
  | pointed => simp

theorem Unsigned.head?_ne_minus {s : Text} (h : Unsigned s) : s.head? ≠ some '-' := by
  have first : ∀ {digits : Text}, (∀ d ∈ digits, d.isDigit = true) → digits.head? ≠ some '-' := by
    intro digits hdigits hhead
    exact absurd (hdigits _ (List.mem_of_head? hhead)) (by simp [not_isDigit_minus])
  cases h with
  | whole _ hdigits => exact first hdigits
  | @pointed whole places hwhole _ _ =>
      cases whole with
      | nil => simp
      | cons d whole =>
          intro hhead
          exact first hwhole hhead

theorem Unsigned.getLast?_isDigit {s : Text} (h : Unsigned s) :
    ∃ d ∈ s.getLast?, d.isDigit = true := by
  have last : ∀ {digits : Text}, digits ≠ [] → (∀ d ∈ digits, d.isDigit = true) →
      ∃ d ∈ digits.getLast?, d.isDigit = true := by
    intro digits hne hdigits
    exact ⟨_, List.getLast?_eq_some_getLast hne, hdigits _ (List.getLast_mem hne)⟩
  cases h with
  | whole hne hdigits => exact last hne hdigits
  | @pointed whole places _ hne hdigits =>
      obtain ⟨d, hd, hdigit⟩ := last hne hdigits
      refine ⟨d, ?_, hdigit⟩
      rw [List.getLast?_append, List.getLast?_cons, Option.mem_def.mp hd]
      rfl

theorem Literal.ne_nil {s : Text} (h : Literal s) : s ≠ [] := by
  cases h with
  | plain h => exact h.ne_nil
  | minus h => exact List.cons_ne_nil _ _

theorem Literal.getLast?_isDigit {s : Text} (h : Literal s) :
    ∃ d ∈ s.getLast?, d.isDigit = true := by
  cases h with
  | plain h => exact h.getLast?_isDigit
  | @minus s h =>
      obtain ⟨d, hd, hdigit⟩ := h.getLast?_isDigit
      refine ⟨d, ?_, hdigit⟩
      rw [List.getLast?_cons, Option.mem_def.mp hd]
      rfl

/-! ## A scan takes the numerals that fit -/

section Fits

variable {before gap s after : Text}

theorem Fits.noUnsignedHead (h : Fits before s after) (hpoint : '.' ∉ s) : NoUnsignedHead after :=
  ⟨h.noDigit_after, h.noPlaces_after hpoint⟩

theorem literalAt_of_fits (hs : Literal s) (h : Fits before s after) :
    literalAt (s ++ after) = s := by
  cases hs with
  | plain hs =>
      have head : (s ++ after).head? ≠ some '-' := by
        rw [List.head?_append_of_ne_nil _ hs.ne_nil]
        exact hs.head?_ne_minus
      rw [literalAt_of_ne head]
      exact unsignedAt_of_unsigned hs h.noDigit_after h.noUnsignedHead
  | @minus s hs =>
      have tail : unsignedAt (s ++ after) = s := by
        refine unsignedAt_of_unsigned hs h.noDigit_after fun hpoint => h.noUnsignedHead ?_
        intro hmem
        rcases List.mem_cons.mp hmem with hminus | hmem
        · exact absurd hminus (by decide)
        · exact hpoint hmem
      rw [List.cons_append, literalAt_minus, tail, if_neg hs.ne_nil]

theorem noUnsignedHead_of_gap (hs : Literal s) (hgap : ∀ c ∈ gap, c.isDigit = false)
    (hne : gap ≠ []) (h : Fits (before ++ gap) s after) :
    NoUnsignedHead (gap ++ (s ++ after)) := by
  obtain ⟨c, gap, rfl⟩ := List.exists_cons_of_ne_nil hne
  obtain ⟨hc, hmore⟩ := List.forall_mem_cons.mp hgap
  refine noUnsignedHead_cons hc ?_
  rintro rfl
  cases gap with
  | cons d gap => exact noDigitHead_cons.mpr (hmore d List.mem_cons_self)
  | nil =>
      obtain ⟨d, s, rfl⟩ := List.exists_cons_of_ne_nil hs.ne_nil
      refine noDigitHead_cons.mpr (eq_false_of_ne_true fun hd => ?_)
      exact h.noPoint_before ⟨d, rfl, hd⟩ List.getLast?_concat

/-- No numeral starts before a numeral that fits, unless there is a digit before it. -/
theorem literalAt_of_gap (hs : Literal s) (hgap : ∀ c ∈ gap, c.isDigit = false) (hne : gap ≠ [])
    (h : Fits (before ++ gap) s after) : literalAt (gap ++ (s ++ after)) = [] := by
  by_cases hminus : (gap ++ (s ++ after)).head? = some '-'
  · rw [List.head?_append_of_ne_nil _ hne] at hminus
    obtain ⟨gap, rfl⟩ := List.head?_eq_some_iff.mp hminus
    have later : NoUnsignedHead (gap ++ (s ++ after)) := by
      by_cases hmore : gap = []
      · subst hmore
        have head : s.head? = some '-' := by
          by_contra hother
          exact h.noMinus_before hother List.getLast?_concat
        obtain ⟨s, rfl⟩ := List.head?_eq_some_iff.mp head
        exact noUnsignedHead_cons not_isDigit_minus fun hpoint => absurd hpoint (by decide)
      · have fits : Fits (before ++ ['-'] ++ gap) s after := by
          rwa [List.append_assoc, List.singleton_append]
        exact noUnsignedHead_of_gap hs (List.forall_mem_cons.mp hgap).2 hmore fits
    rw [List.cons_append, literalAt_minus, if_pos (unsignedAt_eq_nil_iff.mpr later)]
  · rw [literalAt_of_ne hminus]
    exact unsignedAt_eq_nil_iff.mpr (noUnsignedHead_of_gap hs hgap hne h)

/-- A scan that comes to a numeral that fits, over characters that are not digits, takes it. -/
theorem numerals_of_fits (hs : Literal s) (hgap : ∀ c ∈ gap, c.isDigit = false)
    (h : Fits (before ++ gap) s after) (place : Nat) :
    NumeralScan.numerals ⟨place, gap ++ (s ++ after)⟩ =
      ⟨s, place + gap.width⟩ :: NumeralScan.numerals ⟨place + gap.width + s.width, after⟩ := by
  induction gap generalizing before place with
  | nil => exact NumeralScan.numerals_take (literalAt_of_fits hs h) hs.ne_nil place
  | cons c gap ih =>
      have nothing := literalAt_of_gap hs hgap (List.cons_ne_nil c gap) h
      have fits : Fits (before ++ [c] ++ gap) s after := by
        rwa [List.append_assoc, List.singleton_append]
      rw [List.cons_append] at nothing ⊢
      rw [NumeralScan.numerals_skip nothing,
        ih (List.forall_mem_cons.mp hgap).2 fits, Text.width_cons, Nat.add_assoc place]

end Fits

theorem numerals_of_noDigit {t : Text} (h : ∀ c ∈ t, c.isDigit = false) (place : Nat) :
    NumeralScan.numerals ⟨place, t⟩ = [] := by
  have noHead : ∀ u : Text, u <:+ t → NoUnsignedHead u := by
    intro u hu
    have head : ∀ v : Text, v <:+ t → NoDigitHead v :=
      fun v hv d hd => h d (hv.subset (List.mem_of_head? hd))
    refine ⟨head u hu, ?_⟩
    rintro v rfl
    exact head v ((List.suffix_cons '.' v).trans hu)
  induction t generalizing place with
  | nil => exact NumeralScan.numerals_nil place
  | cons c t ih =>
      have nothing : literalAt (c :: t) = [] := by
        by_cases hc : c = '-'
        · subst hc
          rw [literalAt_minus, if_pos (unsignedAt_eq_nil_iff.mpr (noHead t (List.suffix_cons _ t)))]
        · rw [literalAt_of_ne (by simpa using hc)]
          exact unsignedAt_eq_nil_iff.mpr (noHead _ (List.suffix_refl _))
      rw [NumeralScan.numerals_skip nothing]
      refine ih (List.forall_mem_cons.mp h).2 _ fun u hu => ?_
      exact noHead u (hu.trans (List.suffix_cons c t))

end Numeral

/-! ## The maximal munch of a text -/

open Numeral

/-- The numerals `ns` are the maximal munch of the text `t`, which stands after `before`: places are
counted from the start of `before`. -/
structure MaximalMunch (before t : Text) (ns : List Numeral) : Prop where
  ordered : ns.Pairwise fun m n => m.stop ≤ n.start
  /-- Every numeral is the slice of the text at its place, and fits there. -/
  stands : ∀ n ∈ ns, ∃ gap after, t = gap ++ n.text ++ after ∧
    n.start = (before ++ gap).width ∧ Fits (before ++ gap) n.text after
  literal : ∀ n ∈ ns, Literal n.text
  /-- Every digit lies in exactly one numeral. -/
  covers : ∀ gap d after, t = gap ++ d :: after → d.isDigit = true →
    ∃! n, n ∈ ns ∧ n.start ≤ (before ++ gap).width ∧ (before ++ gap).width < n.stop

namespace MaximalMunch

variable {before t : Text} {ns : List Numeral}

theorem le_start (h : MaximalMunch before t ns) {n : Numeral} (hn : n ∈ ns) :
    before.width ≤ n.start := by
  obtain ⟨gap, after, -, hstart, -⟩ := h.stands n hn
  rw [hstart, Text.width_append]
  exact Nat.le_add_right _ _

theorem nil_of_noDigit (h : ∀ c ∈ t, c.isDigit = false) : MaximalMunch before t [] where
  ordered := List.Pairwise.nil
  stands := fun _ hn => absurd hn List.not_mem_nil
  literal := fun _ hn => absurd hn List.not_mem_nil
  covers := by
    rintro gap d after rfl hd
    exact absurd (h d (List.mem_append_right _ List.mem_cons_self)) (by simp [hd])

theorem noDigit_of_nil (h : MaximalMunch before t []) : ∀ c ∈ t, c.isDigit = false := by
  intro c hc
  obtain ⟨gap, after, rfl⟩ := List.append_of_mem hc
  refine eq_false_of_ne_true fun hdigit => ?_
  obtain ⟨n, ⟨hn, -⟩, -⟩ := h.covers gap c after rfl hdigit
  exact List.not_mem_nil hn

theorem skip {c : Char} (hc : c.isDigit = false) (h : MaximalMunch (before ++ [c]) t ns) :
    MaximalMunch before (c :: t) ns where
  ordered := h.ordered
  stands := by
    intro n hn
    obtain ⟨gap, after, rfl, hstart, hfits⟩ := h.stands n hn
    rw [List.append_assoc, List.singleton_append] at hstart hfits
    exact ⟨c :: gap, after, rfl, hstart, hfits⟩
  literal := h.literal
  covers := by
    intro gap d after hwhole hd
    cases gap with
    | nil =>
        obtain ⟨rfl, -⟩ := List.cons.inj hwhole
        exact absurd hc (by simp [hd])
    | cons e gap =>
        obtain ⟨rfl, rfl⟩ := List.cons.inj hwhole
        have := h.covers gap d after rfl hd
        rwa [List.append_assoc, List.singleton_append] at this

theorem take {s : Text} (hs : Literal s) (hfits : Fits before s t)
    (h : MaximalMunch (before ++ s) t ns) :
    MaximalMunch before (s ++ t) (⟨s, before.width⟩ :: ns) where
  ordered := by
    refine List.Pairwise.cons (fun n hn => ?_) h.ordered
    have := h.le_start hn
    rwa [Text.width_append] at this
  stands := by
    intro n hn
    rcases List.mem_cons.mp hn with rfl | hn
    · exact ⟨[], t, rfl, by rw [List.append_nil], by rwa [List.append_nil]⟩
    · obtain ⟨gap, after, rfl, hstart, hfits⟩ := h.stands n hn
      rw [List.append_assoc] at hstart hfits
      refine ⟨s ++ gap, after, ?_, hstart, hfits⟩
      simp only [List.append_assoc]
  literal := by
    intro n hn
    rcases List.mem_cons.mp hn with rfl | hn
    · exact hs
    · exact h.literal n hn
  covers := by
    intro gap d after hwhole hd
    have stop : Numeral.stop ⟨s, before.width⟩ = (before ++ s).width := (Text.width_append _ _).symm
    rcases Text.append_eq_append_cons hwhole with ⟨v, rfl, -⟩ | ⟨v, rfl, hrest⟩
    · -- The digit lies in this numeral, and the others start after it.
      have inside : (before ++ gap).width < Numeral.stop ⟨gap ++ d :: v, before.width⟩ := by
        have := d.utf8Size_pos
        rw [stop]
        simp only [Text.width_append, Text.width_cons]
        omega
      refine ⟨_, ⟨List.mem_cons_self, ?_, inside⟩, ?_⟩
      · rw [Text.width_append]
        exact Nat.le_add_right _ _
      · rintro m ⟨hm, hstart, -⟩
        rcases List.mem_cons.mp hm with rfl | hm
        · rfl
        · have := h.le_start hm
          omega
    · -- The digit lies after this numeral.
      obtain ⟨n, ⟨hn, hcovers⟩, unique⟩ := h.covers v d after hrest hd
      rw [List.append_assoc] at hcovers unique
      refine ⟨n, ⟨List.mem_cons_of_mem _ hn, hcovers⟩, ?_⟩
      rintro m ⟨hm, hmcovers⟩
      rcases List.mem_cons.mp hm with rfl | hm
      · have past := hmcovers.2
        rw [stop, ← List.append_assoc, Text.width_append _ v] at past
        omega
      · exact unique m ⟨hm, hmcovers⟩

/-- The first numeral of a maximal munch stands after characters that are not digits, and the other
numerals are the maximal munch of what follows it. -/
theorem exists_gap {n : Numeral} (h : MaximalMunch before t (n :: ns)) :
    ∃ gap after, t = gap ++ (n.text ++ after) ∧ n.start = (before ++ gap).width ∧
      (∀ c ∈ gap, c.isDigit = false) ∧ Fits (before ++ gap) n.text after ∧
      MaximalMunch (before ++ gap ++ n.text) after ns := by
  obtain ⟨gap, after, rfl, hstart, hfits⟩ := h.stands n List.mem_cons_self
  obtain ⟨hfirst, hordered⟩ := List.pairwise_cons.mp h.ordered
  have stop : n.stop = (before ++ gap ++ n.text).width := by
    rw [Numeral.stop, hstart, Text.width_append _ n.text]
  refine ⟨gap, after, List.append_assoc _ _ _, hstart, ?_, hfits, ?_⟩
  · intro c hc
    obtain ⟨front, back, rfl⟩ := List.append_of_mem hc
    refine eq_false_of_ne_true fun hdigit => ?_
    obtain ⟨m, ⟨hm, hmstart, -⟩, -⟩ :=
      h.covers front c (back ++ n.text ++ after) (by simp) hdigit
    have early : (before ++ front).width < n.start := by
      have := c.utf8Size_pos
      rw [hstart]
      simp only [Text.width_append, Text.width_cons]
      omega
    rcases List.mem_cons.mp hm with rfl | hm
    · omega
    · have := hfirst m hm
      rw [Numeral.stop] at this
      omega
  constructor
  case ordered => exact hordered
  case stands =>
    intro m hm
    obtain ⟨front, back, hwhole, hmstart, hmfits⟩ := h.stands m (List.mem_cons_of_mem _ hm)
    have later : (gap ++ n.text).width ≤ Text.width front := by
      have := hfirst m hm
      rw [stop, hmstart, List.append_assoc] at this
      simp only [Text.width_append] at this ⊢
      omega
    rw [List.append_assoc front] at hwhole
    obtain ⟨w, rfl, rfl⟩ := Text.exists_append_of_width_le hwhole later
    have place : before ++ (gap ++ n.text ++ w) = before ++ gap ++ n.text ++ w := by simp
    rw [place] at hmstart hmfits
    exact ⟨w, back, (List.append_assoc _ _ _).symm, hmstart, hmfits⟩
  case literal =>
    intro m hm
    exact h.literal m (List.mem_cons_of_mem _ hm)
  case covers =>
    rintro front d back rfl hd
    have place : before ++ (gap ++ n.text ++ front) = before ++ gap ++ n.text ++ front := by simp
    obtain ⟨m, ⟨hm, hcovers⟩, unique⟩ := h.covers (gap ++ n.text ++ front) d back (by simp) hd
    rw [place] at hcovers unique
    refine ⟨m, ⟨?_, hcovers⟩, fun k hk => unique k ⟨List.mem_cons_of_mem _ hk.1, hk.2⟩⟩
    rcases List.mem_cons.mp hm with rfl | hm
    · have past := hcovers.2
      rw [stop, Text.width_append _ front] at past
      omega
    · exact hm

/-- The conditions leave no choice: the numerals are those that a scan finds. -/
theorem eq_numerals (h : MaximalMunch before t ns) :
    ns = NumeralScan.numerals ⟨before.width, t⟩ := by
  induction ns generalizing before t with
  | nil => exact (numerals_of_noDigit h.noDigit_of_nil _).symm
  | cons n ns ih =>
      obtain ⟨gap, after, rfl, hstart, hgap, hfits, hrest⟩ := h.exists_gap
      rw [numerals_of_fits (h.literal n List.mem_cons_self) hgap hfits, ← Text.width_append,
        ← Text.width_append, ← ih hrest, ← hstart]

end MaximalMunch

namespace Numeral

/-! ## What a scan finds is a maximal munch -/

variable {before s t : Text}

theorem clear_skip {c : Char} (h : literalAt (c :: t) = []) : Clear (before ++ [c]) t := by
  constructor
  · intro hc
    obtain rfl : c = '-' := by simpa using hc
    rw [literalAt_minus] at h
    refine unsignedAt_eq_nil_iff.mp ?_
    by_contra hne
    rw [if_neg hne] at h
    exact List.cons_ne_nil _ _ h
  · intro hc
    obtain rfl : c = '.' := by simpa using hc
    rw [literalAt_of_ne (by simp)] at h
    exact (unsignedAt_eq_nil_iff.mp h).2 t rfl

theorem not_isDigit_of_literalAt {c : Char} (h : literalAt (c :: t) = []) : c.isDigit = false := by
  by_cases hc : c = '-'
  · rw [hc]
    exact not_isDigit_minus
  · rw [literalAt_of_ne (by simpa using hc)] at h
    exact noDigitHead_cons.mp (unsignedAt_eq_nil_iff.mp h).1

theorem clear_take (hs : Literal s) : Clear (before ++ s) t := by
  obtain ⟨d, hd, hdigit⟩ := hs.getLast?_isDigit
  have last : (before ++ s).getLast? = some d := by
    rw [List.getLast?_append, Option.mem_def.mp hd]
    rfl
  constructor
  · intro hc
    obtain rfl := Option.some.inj (last.symm.trans hc)
    exact absurd hdigit (by decide)
  · intro hc
    obtain rfl := Option.some.inj (last.symm.trans hc)
    exact absurd hdigit (by decide)

/-- What a scan takes is a numeral, and nothing after it can belong to it. -/
theorem literal_of_literalAt (h : literalAt (s ++ t) = s) (hs : s ≠ []) :
    Literal s ∧ NoDigitHead t ∧ ('.' ∉ s → NoUnsignedHead t) := by
  by_cases hminus : s.head? = some '-'
  · obtain ⟨u, rfl⟩ := List.head?_eq_some_iff.mp hminus
    rw [List.cons_append, literalAt_minus] at h
    split at h
    · exact absurd h.symm hs
    · next hne =>
        obtain ⟨-, hu⟩ := List.cons.inj h
        obtain ⟨after, hwhole, hdigit, hplaces, hunsigned⟩ := exists_unsignedAt_append (u ++ t)
        rw [hu] at hwhole hplaces hunsigned hne
        obtain rfl := List.append_cancel_left hwhole
        refine ⟨.minus (hunsigned hne), hdigit, fun hpoint => hplaces ?_⟩
        exact mt (List.mem_cons_of_mem _) hpoint
  · have head : (s ++ t).head? ≠ some '-' := by
      rwa [List.head?_append_of_ne_nil _ hs]
    rw [literalAt_of_ne head] at h
    obtain ⟨after, hwhole, hdigit, hplaces, hunsigned⟩ := exists_unsignedAt_append (s ++ t)
    rw [h] at hwhole hplaces hunsigned
    obtain rfl := List.append_cancel_left hwhole
    exact ⟨.plain (hunsigned hs), hdigit, hplaces⟩

theorem fits_of_literalAt (h : literalAt (s ++ t) = s) (hs : s ≠ [])
    (hclear : Clear before (s ++ t)) : Fits before s t := by
  obtain ⟨-, hdigit, hplaces⟩ := literal_of_literalAt h hs
  constructor
  case noDigit_after => exact hdigit
  case noPlaces_after => exact fun hpoint => (hplaces hpoint).2
  case noMinus_before =>
    intro hhead hminus
    have head : (s ++ t).head? ≠ some '-' := by
      rwa [List.head?_append_of_ne_nil _ hs]
    rw [literalAt_of_ne head, unsignedAt_eq_nil_iff.mpr (hclear.1 hminus)] at h
    exact hs h.symm
  case noPoint_before =>
    rintro ⟨d, hd, hdigit⟩ hpoint
    have := hclear.2 hpoint d (List.mem_head?_append_of_mem_head? hd)
    exact absurd hdigit (by simp [this])

end Numeral

theorem maximalMunch_numerals {before t : Text} (hclear : Clear before t) :
    MaximalMunch before t (NumeralScan.numerals ⟨before.width, t⟩) := by
  generalize hplace : before.width = place
  induction place, t using NumeralScan.numerals_induction generalizing before with
  | nil place => exact .nil_of_noDigit (by simp)
  | skip place c t hlit ih =>
      refine .skip (not_isDigit_of_literalAt hlit) (ih (clear_skip hlit) ?_)
      rw [Text.width_append, hplace]
      rfl
  | take place s t hlit hs ih =>
      obtain ⟨hliteral, -⟩ := literal_of_literalAt hlit hs
      subst hplace
      refine .take hliteral (fits_of_literalAt hlit hs hclear) (ih (clear_take hliteral) ?_)
      rw [Text.width_append]

theorem maximalMunch_iff {before t : Text} {ns : List Numeral} (hclear : Clear before t) :
    MaximalMunch before t ns ↔ ns = NumeralScan.numerals ⟨before.width, t⟩ := by
  constructor
  · exact MaximalMunch.eq_numerals
  · rintro rfl
    exact maximalMunch_numerals hclear

/-! ## One numeral after the other -/

namespace NumeralScan

/-- The scan after it was asked `k` times for the next numeral. -/
def advance : Nat → NumeralScan → NumeralScan
  | 0, scan => scan
  | k + 1, scan =>
      match scan.next? with
      | none => scan
      | some (_, after) => advance k after

/-- The numerals that are left are those that have not been asked for. -/
theorem numerals_advance (k : Nat) (scan : NumeralScan) :
    (scan.advance k).numerals = scan.numerals.drop k := by
  induction k generalizing scan with
  | zero => rfl
  | succ k ih =>
      rw [advance, numerals_eq scan]
      cases hnext : scan.next? with
      | none =>
          rw [numerals_eq, hnext]
          rfl
      | some found => exact ih found.2

theorem nextAt_eq_some {place : Nat} {t : Text} {n : Numeral} {after : NumeralScan}
    (h : nextAt place t = some (n, after)) :
    ∃ gap, t = gap ++ (n.text ++ after.rest) ∧ n.start = place + gap.width ∧
      after.place = n.stop := by
  induction t generalizing place with
  | nil => exact absurd h (by simp [nextAt])
  | cons c t ih =>
      rw [nextAt] at h
      split at h
      · obtain ⟨gap, rfl, hstart, hplace⟩ := ih h
        refine ⟨c :: gap, rfl, ?_, hplace⟩
        rw [hstart, Text.width_cons, Nat.add_assoc]
      · obtain ⟨rfl, rfl⟩ := Prod.mk.inj (Option.some.inj h)
        exact ⟨[], (List.prefix_iff_eq_append.mp (prefix_literalAt (c :: t))).symm, rfl, rfl⟩

/-- After a numeral was asked for, the scan stands at its end, before the rest of the text. -/
theorem exists_rest_of_getElem? {k : Nat} {scan : NumeralScan} {n : Numeral}
    (h : scan.numerals[k]? = some n) :
    ∃ front rest, scan.rest = front ++ rest ∧ n.stop = scan.place + front.width ∧
      scan.advance (k + 1) = ⟨n.stop, rest⟩ := by
  induction k generalizing scan with
  | zero =>
      rw [numerals_eq] at h
      cases hnext : scan.next? with
      | none => simp [hnext] at h
      | some found =>
          obtain rfl : found.1 = n := by simpa [hnext] using h
          obtain ⟨gap, hrest, hstart, hplace⟩ := nextAt_eq_some hnext
          refine ⟨gap ++ found.1.text, found.2.rest, ?_, ?_, ?_⟩
          · rw [hrest, List.append_assoc]
          · rw [Numeral.stop, hstart, Text.width_append, Nat.add_assoc]
          · rw [advance, hnext, ← hplace]
            rfl
  | succ k ih =>
      rw [numerals_eq] at h
      cases hnext : scan.next? with
      | none => simp [hnext] at h
      | some found =>
          rw [hnext] at h
          obtain ⟨front, rest, hfront, hstop, hadvance⟩ := ih h
          obtain ⟨gap, hrest, hstart, hplace⟩ := nextAt_eq_some hnext
          refine ⟨gap ++ found.1.text ++ front, rest, ?_, ?_, ?_⟩
          · rw [hrest, hfront]
            simp only [List.append_assoc]
          · rw [hstop, hplace, Numeral.stop, hstart]
            simp only [Text.width_append]
            omega
          · rw [advance, hnext]
            exact hadvance

end NumeralScan

/-- The numerals that a scan finds in a text are its maximal munch, and no other list of numerals
is; and wherever a scan stops after a numeral, the numerals it has still to find are those of the
rest of the text, moved by the place where the rest starts. -/
theorem Text.numerals_maximalMunch (t : Text) :
    (∀ ns, MaximalMunch [] t ns ↔ ns = t.numerals) ∧
    ∀ k, ((NumeralScan.ofText t).advance k).numerals = t.numerals.drop k ∧
      ∀ n ∈ t.numerals[k]?, ∃ front rest, t = front ++ rest ∧ n.stop = front.width ∧
        ((NumeralScan.ofText t).advance (k + 1)).numerals =
          rest.numerals.map (Numeral.shift n.stop) := by
  refine ⟨fun ns => ?_, fun k => ⟨NumeralScan.numerals_advance k _, ?_⟩⟩
  · have nothingBefore : Clear [] t := ⟨fun h => absurd h (by simp), fun h => absurd h (by simp)⟩
    exact maximalMunch_iff nothingBefore
  · intro n hn
    obtain ⟨front, rest, hwhole, hstop, hadvance⟩ := NumeralScan.exists_rest_of_getElem? hn
    refine ⟨front, rest, hwhole, ?_, ?_⟩
    · rw [hstop]
      exact Nat.zero_add _
    · rw [hadvance, NumeralScan.numerals_eq_map]

/-- Two points in a row of digits, a sign after a digit, and a point without places. -/
theorem Text.numerals_maximalMunch_points :
    let t : Text := "1.2.3-4.".toList
    let ns : List Numeral := [⟨"1.2".toList, 0⟩, ⟨".3".toList, 3⟩, ⟨"-4".toList, 5⟩]
    MaximalMunch [] t ns ∧ t.numerals[1]? = some ⟨".3".toList, 3⟩ ∧
      ∃ front rest, t = front ++ rest ∧ 5 = front.width ∧
        ((NumeralScan.ofText t).advance 2).numerals = rest.numerals.map (Numeral.shift 5) := by
  intro t ns
  have found : t.numerals = ns := by decide +kernel
  have second : t.numerals[1]? = some ⟨".3".toList, 3⟩ := by
    rw [found]
    rfl
  exact ⟨(t.numerals_maximalMunch.1 ns).mpr found.symm, second,
    (t.numerals_maximalMunch.2 1).2 _ second⟩

end NumeralLint
