/-
Scanning for numerals, one step at a time.

`numerals_skip` and `numerals_take` are the two steps of a scan; everything
else about scans is proved from them.  A numeral holds no blank, so a scan
of a text with a blank in it is the scan of what stands before the blank and
then the scan of the rest (`numerals_append_blank`).
-/
import NumeralLint.Numeral
import NumeralLint.Text.Blank

namespace NumeralLint

theorem not_numeral_of_isBlank {c : Char} (h : isBlank c = true) :
    c.isDigit = false ∧ c ≠ '.' ∧ c ≠ '-' := by
  have hb : blanks.any (fun range => range.1 ≤ c.toNat && c.toNat ≤ range.2) = true := h
  simp only [blanks, List.any_cons, List.any_nil, Bool.or_eq_true, Bool.and_eq_true,
    decide_eq_true_eq, Bool.or_false] at hb
  have outside : ¬(0x2d ≤ c.toNat ∧ c.toNat ≤ 0x39) := by omega
  refine ⟨?_, ?_, ?_⟩
  · cases hd : c.isDigit with
    | false => rfl
    | true =>
        have digit : '0'.toNat ≤ c.toNat ∧ c.toNat ≤ '9'.toNat := Char.isDigit_iff_toNat.mp hd
        exact absurd ⟨Nat.le_trans (by decide) digit.1, digit.2⟩ outside
  · rintro rfl
    exact outside (by decide)
  · rintro rfl
    exact outside (by decide)

namespace Numeral

/-- The numeral further to the right by `d` bytes. -/
def shift (d : Nat) (n : Numeral) : Numeral := ⟨n.text, d + n.start⟩

/-! ## The numeral at one place -/

/-- What follows a character that no numeral holds is not looked at. -/
theorem unsignedAt_append {b : Char} (hd : b.isDigit = false) (hp : b ≠ '.') (s u : Text) :
    unsignedAt (s ++ b :: u) = unsignedAt s := by
  have stop : ∀ t : Text, (t ++ b :: u).takeWhile Char.isDigit = t.takeWhile Char.isDigit ∧
      (t ++ b :: u).dropWhile Char.isDigit = t.dropWhile Char.isDigit ++ b :: u := by
    intro t
    induction t with
    | nil => simp [hd]
    | cons c t ih =>
        cases hc : c.isDigit with
        | false => simp [hc]
        | true => simp [hc, ih]
  unfold unsignedAt
  rw [(stop s).1, (stop s).2]
  cases s.dropWhile Char.isDigit with
  | nil => simp [hp]
  | cons c rest =>
      by_cases hc : c = '.'
      · subst hc
        simp only [List.cons_append, (stop rest).1]
      · simp [hc]

theorem literalAt_append_blank {b : Char} (hb : isBlank b = true) (s u : Text) :
    literalAt (s ++ b :: u) = literalAt s := by
  obtain ⟨hd, hp, hm⟩ := not_numeral_of_isBlank hb
  cases s with
  | nil => simp [literalAt, unsignedAt, hd, hp, hm]
  | cons c s =>
      by_cases hc : c = '-'
      · subst hc
        simp only [List.cons_append, literalAt, unsignedAt_append hd hp]
      · have := unsignedAt_append hd hp (c :: s) u
        simpa [literalAt, hc] using this

theorem literalAt_blank {b : Char} (hb : isBlank b = true) (u : Text) : literalAt (b :: u) = [] :=
  literalAt_append_blank hb [] u

theorem prefix_unsignedAt (t : Text) : unsignedAt t <+: t := by
  have whole := List.takeWhile_append_dropWhile (p := Char.isDigit) (l := t)
  unfold unsignedAt
  split
  · next rest hrest =>
      dsimp only
      split
      · exact List.takeWhile_prefix _
      · rw [hrest] at whole
        refine ⟨rest.dropWhile Char.isDigit, ?_⟩
        rw [List.append_assoc, List.cons_append, List.takeWhile_append_dropWhile]
        exact whole
  · exact List.takeWhile_prefix _

theorem prefix_literalAt (t : Text) : literalAt t <+: t := by
  unfold literalAt
  split
  · next t =>
      split
      · exact List.nil_prefix
      · exact (List.prefix_cons_inj '-').mpr (prefix_unsignedAt t)
  · exact prefix_unsignedAt _

end Numeral

/-! ## The steps of a scan -/

namespace NumeralScan

open Numeral

theorem numerals_eq (scan : NumeralScan) :
    scan.numerals = match scan.next? with
      | none => []
      | some (n, after) => n :: after.numerals := by
  rw [numerals]
  split <;> simp_all

theorem numerals_nil (place : Nat) : numerals ⟨place, []⟩ = [] := by
  rw [numerals_eq]
  rfl

theorem numerals_skip {c : Char} {t : Text} (h : literalAt (c :: t) = []) (place : Nat) :
    numerals ⟨place, c :: t⟩ = numerals ⟨place + c.utf8Size, t⟩ := by
  have step : next? ⟨place, c :: t⟩ = next? ⟨place + c.utf8Size, t⟩ := by
    simp [next?, nextAt, h]
  rw [numerals_eq, numerals_eq, step]

theorem numerals_take {s t : Text} (h : literalAt (s ++ t) = s) (hs : s ≠ []) (place : Nat) :
    numerals ⟨place, s ++ t⟩ = ⟨s, place⟩ :: numerals ⟨place + s.width, t⟩ := by
  obtain ⟨c, s, rfl⟩ := List.exists_cons_of_ne_nil hs
  have step : next? ⟨place, c :: s ++ t⟩ =
      some (⟨c :: s, place⟩, ⟨place + Text.width (c :: s), t⟩) := by
    rw [List.cons_append] at h ⊢
    simp [next?, nextAt, h]
  rw [numerals_eq, step]

/-- A property of scans holds if both steps keep it. -/
theorem numerals_induction {motive : Nat → Text → List Numeral → Prop}
    (nil : ∀ place, motive place [] [])
    (skip : ∀ place c t, literalAt (c :: t) = [] →
      motive (place + c.utf8Size) t (numerals ⟨place + c.utf8Size, t⟩) →
      motive place (c :: t) (numerals ⟨place + c.utf8Size, t⟩))
    (take : ∀ place s t, literalAt (s ++ t) = s → s ≠ [] →
      motive (place + s.width) t (numerals ⟨place + s.width, t⟩) →
      motive place (s ++ t) (⟨s, place⟩ :: numerals ⟨place + s.width, t⟩))
    (place : Nat) (t : Text) : motive place t (numerals ⟨place, t⟩) := by
  induction h : t.length using Nat.strongRecOn generalizing place t with
  | _ n ih =>
      subst h
      cases t with
      | nil => exact (numerals_nil place).symm ▸ nil place
      | cons c t =>
          by_cases hc : literalAt (c :: t) = []
          · rw [numerals_skip hc]
            exact skip place c t hc (ih t.length (by simp) _ _ rfl)
          · obtain ⟨u, hu⟩ := prefix_literalAt (c :: t)
            have whole : literalAt (literalAt (c :: t) ++ u) = literalAt (c :: t) := by rw [hu]
            have shorter : u.length < (c :: t).length := by
              have := List.length_pos_iff.mpr hc
              have := congrArg List.length hu
              simp only [List.length_append] at this
              omega
            have taken := take place _ u whole hc (ih u.length shorter _ _ rfl)
            rw [← numerals_take whole hc, hu] at taken
            exact taken

theorem mem_numerals {place : Nat} {t : Text} {n : Numeral} (h : n ∈ numerals ⟨place, t⟩) :
    ∃ before after, t = before ++ n.text ++ after ∧ n.start = place + before.width ∧
      n.text ≠ [] ∧ literalAt (n.text ++ after) = n.text := by
  revert h
  induction place, t using numerals_induction with
  | nil place => simp
  | skip place c t _ ih =>
      intro h
      obtain ⟨before, after, ht, hstart, hn⟩ := ih h
      refine ⟨c :: before, after, ?_, ?_, hn⟩
      · simp [ht]
      · rw [hstart, Text.width_cons, Nat.add_assoc]
  | take place s t hlit hs ih =>
      intro h
      rcases List.mem_cons.mp h with rfl | h
      · exact ⟨[], t, rfl, rfl, hs, hlit⟩
      · obtain ⟨before, after, ht, hstart, hn⟩ := ih h
        refine ⟨s ++ before, after, ?_, ?_, hn⟩
        · simp [ht]
        · rw [hstart, Text.width_append, Nat.add_assoc]

theorem numerals_add (d place : Nat) (t : Text) :
    numerals ⟨d + place, t⟩ = (numerals ⟨place, t⟩).map (Numeral.shift d) := by
  induction place, t using numerals_induction with
  | nil place => simp [numerals_nil]
  | skip place c t hc ih => rw [numerals_skip hc, Nat.add_assoc, ih]
  | take place s t hlit hs ih =>
      rw [numerals_take hlit hs, Nat.add_assoc, ih, List.map_cons]
      rfl

theorem numerals_eq_map (place : Nat) (t : Text) :
    numerals ⟨place, t⟩ = t.numerals.map (Numeral.shift place) :=
  numerals_add place 0 t

/-! ## Blanks part a scan -/

theorem numerals_blanks {gap : Text} (h : ∀ c ∈ gap, isBlank c = true) (place : Nat) (t : Text) :
    numerals ⟨place, gap ++ t⟩ = numerals ⟨place + gap.width, t⟩ := by
  induction gap generalizing place with
  | nil => rfl
  | cons c gap ih =>
      have hc : isBlank c = true := h c List.mem_cons_self
      rw [List.cons_append, numerals_skip (literalAt_blank hc _),
        ih fun d hd => h d (List.mem_cons_of_mem c hd), Text.width_cons, Nat.add_assoc]

/-- A scan of a text with a blank in it is the scan of what stands before the blank and then the
scan of what stands from it on. -/
theorem numerals_append_blank {b : Char} (hb : isBlank b = true) (place : Nat) (s u : Text) :
    numerals ⟨place, s ++ b :: u⟩ =
      numerals ⟨place, s⟩ ++ numerals ⟨place + s.width, b :: u⟩ := by
  induction place, s using numerals_induction with
  | nil place => simp
  | skip place c t hc ih =>
      have hc' : literalAt (c :: (t ++ b :: u)) = [] := by
        rw [← hc]
        exact literalAt_append_blank hb (c :: t) u
      rw [List.cons_append, numerals_skip hc', ih, Text.width_cons, Nat.add_assoc]
  | take place s t hlit hs ih =>
      have hlit' : literalAt (s ++ (t ++ b :: u)) = s := by
        rw [← List.append_assoc, literalAt_append_blank hb, hlit]
      rw [List.append_assoc, numerals_take hlit' hs, ih, List.cons_append, Text.width_append,
        Nat.add_assoc]

/-- The same of a text that is cut before a blank or at its end. -/
theorem numerals_append {u : Text} (hu : u.head?.all isBlank = true) (place : Nat) (s : Text) :
    numerals ⟨place, s ++ u⟩ = numerals ⟨place, s⟩ ++ numerals ⟨place + s.width, u⟩ := by
  cases u with
  | nil => simp [numerals_nil]
  | cons b u => exact numerals_append_blank (by simpa using hu) place s u

end NumeralScan

end NumeralLint
