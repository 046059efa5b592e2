/-
Which cells hold a number.

A cell holds a number if, without the blanks around it, it matches

    [+-]?([0-9]+(\.[0-9]*)?|\.[0-9]+)([eE][+-]?[0-9]+)?

(`Pattern.number`).  Decimal texts of doubles may be more: a number may also
be `inf`, `infinity` or `nan` in large or small letters (`Pattern.double`).
Those words have no digit and all other texts of doubles have one, so asking
for a digit leaves the numbers over (`mem_number_iff`).

The expressions are read through their parts.  What stands before an exponent
is digits with a point or without (`Mantissa`), however the expression cuts it
up, and the reader takes that much and no more because an exponent starts with
neither a digit nor a point.
-/
import NumeralLint.Proofs.MaximalMunch
import NumeralLint.Proofs.Text.Patterns
import NumeralLint.Table.Cell

namespace NumeralLint

namespace Pattern

open RegularExpression

/-! ## The expressions -/

/-- `[+-]?([0-9]+(\.[0-9]*)?|\.[0-9]+)([eE][+-]?[0-9]+)?` -/
def number : RegularExpression Char :=
  sign * ((repeated digit * optional (char '.' * star digit) + char '.' * repeated digit)
    * optional exponent)

/-- A word of small letters, each of which may also be large. -/
def word (w : Text) : RegularExpression Char := (w.map fun c => oneOf [c, c.toUpper]).prod

/-- The texts of doubles: a sign or none, and then `inf`, `infinity`, `nan`, or
`([0-9]+|[0-9]+\.[0-9]*|[0-9]*\.[0-9]+)([eE][+-]?[0-9]+)?`. -/
def double : RegularExpression Char :=
  sign * (word "inf".toList + word "infinity".toList + word "nan".toList
    + (repeated digit + repeated digit * (char '.' * star digit)
        + star digit * (char '.' * repeated digit)) * optional exponent)

variable {t : Text}

/-! ## Digits and a point -/

/-- Digits with a point before, among or after them, or without one. -/
inductive Mantissa : Text → Prop
  | whole {digits : Text} : digits ≠ [] → (∀ d ∈ digits, d.isDigit = true) → Mantissa digits
  | pointed {whole places : Text} : (∀ d ∈ whole, d.isDigit = true) →
      (∀ d ∈ places, d.isDigit = true) → (whole ≠ [] ∨ places ≠ []) →
      Mantissa (whole ++ '.' :: places)

theorem mem_number_mantissa :
    t ∈ (repeated digit * optional (char '.' * star digit) + char '.' * repeated digit).matches' ↔
      Mantissa t := by
  simp only [mem_add, mem_mul, mem_optional, mem_char, mem_star_digit, mem_repeated_digit]
  constructor
  · rintro (⟨whole, ⟨hne, hwhole⟩, rest, hrest, rfl⟩ | ⟨point, rfl, places, ⟨hne, hplaces⟩, rfl⟩)
    · rcases hrest with rfl | ⟨point, rfl, places, hplaces, rfl⟩
      · rw [List.append_nil]
        exact .whole hne hwhole
      · exact .pointed hwhole hplaces (Or.inl hne)
    · exact @Mantissa.pointed [] places (by simp) hplaces (Or.inr hne)
  · intro h
    cases h with
    | whole hne hdigits =>
        exact Or.inl ⟨t, ⟨hne, hdigits⟩, [], Or.inl rfl, List.append_nil t⟩
    | @pointed whole places hwhole hplaces hne =>
        by_cases hempty : whole = []
        · subst hempty
          have hne : places ≠ [] := hne.resolve_left (by simp)
          exact Or.inr ⟨['.'], rfl, places, ⟨hne, hplaces⟩, rfl⟩
        · refine Or.inl ⟨whole, ⟨hempty, hwhole⟩, '.' :: places, Or.inr ?_, rfl⟩
          exact ⟨['.'], rfl, places, hplaces, rfl⟩

/-- The other expression has three cases, of which the last two overlap. -/
theorem mem_double_mantissa :
    t ∈ (repeated digit + repeated digit * (char '.' * star digit)
        + star digit * (char '.' * repeated digit)).matches' ↔ Mantissa t := by
  simp only [mem_add, mem_mul, mem_char, mem_star_digit, mem_repeated_digit]
  constructor
  · rintro ((⟨hne, hdigits⟩ |
        ⟨whole, ⟨hne, hwhole⟩, rest, ⟨point, rfl, places, hplaces, rfl⟩, rfl⟩) |
      ⟨whole, hwhole, rest, ⟨point, rfl, places, ⟨hne, hplaces⟩, rfl⟩, rfl⟩)
    · exact .whole hne hdigits
    · exact .pointed hwhole hplaces (Or.inl hne)
    · exact .pointed hwhole hplaces (Or.inr hne)
  · intro h
    cases h with
    | whole hne hdigits => exact Or.inl (Or.inl ⟨hne, hdigits⟩)
    | @pointed whole places hwhole hplaces hne =>
        rcases hne with hne | hne
        · refine Or.inl (Or.inr ⟨whole, ⟨hne, hwhole⟩, '.' :: places, ?_, rfl⟩)
          exact ⟨['.'], rfl, places, hplaces, rfl⟩
        · refine Or.inr ⟨whole, hwhole, '.' :: places, ?_, rfl⟩
          exact ⟨['.'], rfl, places, ⟨hne, hplaces⟩, rfl⟩

/-! ## Words -/

theorem exists_of_mem_word {w : Text} (h : t ∈ (word w).matches') {c : Char} (hc : c ∈ t) :
    ∃ d ∈ w, c = d ∨ c = d.toUpper := by
  induction w generalizing t with
  | nil =>
      obtain rfl : t = [] := h
      exact absurd hc List.not_mem_nil
  | cons d w ih =>
      rw [word, List.map_cons, List.prod_cons, mem_mul] at h
      obtain ⟨u, hu, v, hv, rfl⟩ := h
      obtain ⟨e, he, rfl⟩ := mem_oneOf.mp hu
      rcases List.mem_cons.mp hc with rfl | hc
      · exact ⟨d, List.mem_cons_self, by simpa using he⟩
      · obtain ⟨d', hd', hcase⟩ := ih hv hc
        exact ⟨d', List.mem_cons_of_mem d hd', hcase⟩

theorem not_isDigit_of_mem_word {w : Text}
    (hw : (w.all fun d => !d.isDigit && !d.toUpper.isDigit) = true)
    (h : t ∈ (word w).matches') : ∀ c ∈ t, c.isDigit = false := by
  intro c hc
  obtain ⟨d, hd, hcase⟩ := exists_of_mem_word h hc
  have both := List.all_eq_true.mp hw d hd
  rw [Bool.and_eq_true, Bool.not_eq_true', Bool.not_eq_true'] at both
  rcases hcase with rfl | rfl
  · exact both.1
  · exact both.2

/-! ## Numbers -/

theorem Mantissa.exists_isDigit (h : Mantissa t) : ∃ c ∈ t, c.isDigit = true := by
  cases h with
  | whole hne hdigits =>
      obtain ⟨c, hc⟩ := List.exists_mem_of_ne_nil t hne
      exact ⟨c, hc, hdigits c hc⟩
  | @pointed whole places hwhole hplaces hne =>
      rcases hne with hne | hne
      · obtain ⟨c, hc⟩ := List.exists_mem_of_ne_nil whole hne
        exact ⟨c, List.mem_append_left _ hc, hwhole c hc⟩
      · obtain ⟨c, hc⟩ := List.exists_mem_of_ne_nil places hne
        exact ⟨c, List.mem_append_right _ (List.mem_cons_of_mem _ hc), hplaces c hc⟩

theorem Mantissa.ne_nil (h : Mantissa t) : t ≠ [] := by
  rintro rfl
  obtain ⟨c, hc, -⟩ := h.exists_isDigit
  exact absurd hc List.not_mem_nil

theorem Mantissa.digit_or_point (h : Mantissa t) : ∀ c ∈ t, c.isDigit = true ∨ c = '.' := by
  intro c hc
  cases h with
  | whole _ hdigits => exact Or.inl (hdigits c hc)
  | pointed hwhole hplaces _ =>
      rcases List.mem_append.mp hc with hc | hc
      · exact Or.inl (hwhole c hc)
      · rcases List.mem_cons.mp hc with rfl | hc
        · exact Or.inr rfl
        · exact Or.inl (hplaces c hc)

theorem Mantissa.head?_ne_sign (h : Mantissa t) : ∀ c ∈ t.head?, c ≠ '+' ∧ c ≠ '-' := by
  intro c hc
  cases h with
  | whole _ hdigits => exact not_sign_of_isDigit (hdigits c (List.mem_of_mem_head? hc))
  | @pointed whole places hwhole _ _ =>
      cases whole with
      | nil =>
          obtain rfl : '.' = c := by simpa using hc
          decide
      | cons d whole =>
          obtain rfl : d = c := by simpa using hc
          exact not_sign_of_isDigit (hwhole d List.mem_cons_self)

/-- A number without its sign: digits and a point, and an exponent or none. -/
def IsUnsigned (t : Text) : Prop :=
  ∃ m e, Mantissa m ∧ (e = [] ∨ e ∈ exponent.matches') ∧ m ++ e = t

theorem mem_number : t ∈ number.matches' ↔ IsUnsigned t.dropSign := by
  rw [number, mem_sign_mul]
  · rw [mem_mul]
    simp only [mem_number_mantissa, mem_optional]
    constructor
    · rintro ⟨m, hm, e, he, heq⟩
      exact ⟨m, e, hm, he, heq⟩
    · rintro ⟨m, e, hm, he, heq⟩
      exact ⟨m, hm, e, he, heq⟩
  · intro u hu c hc
    obtain ⟨m, hm, e, -, rfl⟩ := mem_mul.mp hu
    have mantissa := mem_number_mantissa.mp hm
    rw [List.head?_append_of_ne_nil m mantissa.ne_nil] at hc
    exact mantissa.head?_ne_sign c hc

theorem mem_of_mem_number (h : t ∈ number.matches') :
    ∀ c ∈ t, c.isDigit = true ∨ c ∈ "+-.eE".toList := by
  have signs : ∀ s ∈ sign.matches', ∀ c ∈ s, c ∈ "+-.eE".toList := by
    intro s hs
    rcases mem_sign.mp hs with rfl | rfl | rfl
    · exact fun _ hc => absurd hc List.not_mem_nil
    · exact List.forall_mem_singleton.mpr (by decide)
    · exact List.forall_mem_singleton.mpr (by decide)
  intro c hc
  obtain ⟨s, hs, u, hu, rfl⟩ := mem_mul.mp h
  obtain ⟨m, hm, e, he, rfl⟩ := mem_mul.mp hu
  rcases List.mem_append.mp hc with hc | hc
  · exact Or.inr (signs s hs c hc)
  rcases List.mem_append.mp hc with hc | hc
  · rcases (mem_number_mantissa.mp hm).digit_or_point c hc with hdigit | rfl
    · exact Or.inl hdigit
    · exact Or.inr (by decide)
  rcases mem_optional.mp he with rfl | he
  · exact absurd hc List.not_mem_nil
  obtain ⟨l, hl, v, hv, rfl⟩ := mem_mul.mp he
  obtain ⟨d, hd, rfl⟩ := mem_oneOf.mp hl
  obtain ⟨s', hs', digits, hdigits, rfl⟩ := mem_mul.mp hv
  rcases List.mem_append.mp hc with hc | hc
  · obtain rfl := List.mem_singleton.mp hc
    exact Or.inr (List.mem_append_right ['+', '-', '.'] hd)
  rcases List.mem_append.mp hc with hc | hc
  · exact Or.inr (signs s' hs' c hc)
  · exact Or.inl ((mem_repeated_digit.mp hdigits).2 c hc)

theorem getLast?_of_mem_number (h : t ∈ number.matches') :
    ∀ c ∈ t.getLast?, c.isDigit = true ∨ c = '.' := by
  intro c hc
  obtain ⟨s, hs, u, hu, rfl⟩ := mem_mul.mp h
  obtain ⟨m, hm, e, he, rfl⟩ := mem_mul.mp hu
  have mantissa := mem_number_mantissa.mp hm
  rcases mem_optional.mp he with rfl | he
  · rw [List.append_nil, List.getLast?_append_of_ne_nil s mantissa.ne_nil] at hc
    exact mantissa.digit_or_point c (List.mem_of_mem_getLast? hc)
  · obtain ⟨l, hl, v, hv, rfl⟩ := mem_mul.mp he
    obtain ⟨s', hs', digits, hdigits, rfl⟩ := mem_mul.mp hv
    obtain ⟨hne, hdigits⟩ := mem_repeated_digit.mp hdigits
    simp only [← List.append_assoc] at hc
    rw [List.getLast?_append_of_ne_nil _ hne] at hc
    exact Or.inl (hdigits c (List.mem_of_mem_getLast? hc))

/-- Of the texts of doubles those with a digit are numbers. -/
theorem mem_number_iff :
    t ∈ number.matches' ↔ (∃ c ∈ t, c.isDigit = true) ∧ t ∈ double.matches' := by
  constructor
  · intro h
    obtain ⟨s, hs, u, hu, rfl⟩ := mem_mul.mp h
    obtain ⟨m, hm, e, he, rfl⟩ := mem_mul.mp hu
    have mantissa := mem_number_mantissa.mp hm
    constructor
    · obtain ⟨c, hc, hdigit⟩ := mantissa.exists_isDigit
      exact ⟨c, List.mem_append_right s (List.mem_append_left e hc), hdigit⟩
    · refine mem_mul.mpr ⟨s, hs, m ++ e, mem_add.mpr (Or.inr ?_), rfl⟩
      exact mem_mul.mpr ⟨m, mem_double_mantissa.mpr mantissa, e, he, rfl⟩
  · rintro ⟨⟨c, hc, hdigit⟩, h⟩
    obtain ⟨s, hs, u, hu, rfl⟩ := mem_mul.mp h
    refine mem_mul.mpr ⟨s, hs, u, ?_, rfl⟩
    rcases mem_add.mp hu with hword | hnumber
    · have noDigit_sign : ∀ d ∈ s, d.isDigit = false := by
        rcases mem_sign.mp hs with rfl | rfl | rfl
        · exact fun _ hd => absurd hd List.not_mem_nil
        · exact List.forall_mem_singleton.mpr rfl
        · exact List.forall_mem_singleton.mpr rfl
      have noDigit_word : ∀ d ∈ u, d.isDigit = false := by
        rcases mem_add.mp hword with hword | hnan
        · rcases mem_add.mp hword with hinf | hinfinity
          · exact not_isDigit_of_mem_word rfl hinf
          · exact not_isDigit_of_mem_word rfl hinfinity
        · exact not_isDigit_of_mem_word rfl hnan
      rcases List.mem_append.mp hc with hc | hc
      · exact absurd hdigit (by simp [noDigit_sign c hc])
      · exact absurd hdigit (by simp [noDigit_word c hc])
    · obtain ⟨m, hm, e, he, rfl⟩ := mem_mul.mp hnumber
      have mantissa := mem_double_mantissa.mp hm
      exact mem_mul.mpr ⟨m, mem_number_mantissa.mpr mantissa, e, he, rfl⟩

end Pattern

namespace Text

open Pattern Numeral

/-! ## Reading a number -/

theorem isExponentPart_iff {t : Text} :
    isExponentPart t = true ↔ t = [] ∨ t ∈ exponent.matches' := by
  cases t with
  | nil => simp [isExponentPart]
  | cons c u =>
      rw [mem_exponent]
      constructor
      · intro h
        simp only [isExponentPart, Bool.and_eq_true, Bool.or_eq_true, beq_iff_eq,
          Bool.not_eq_true', List.isEmpty_eq_false_iff, List.all_eq_true] at h
        obtain ⟨⟨hc, hne⟩, hdigits⟩ := h
        exact Or.inr ⟨c, u, rfl, hc, hne, hdigits⟩
      · rintro (h | ⟨d, v, heq, hc, hne, hdigits⟩)
        · exact absurd h (List.cons_ne_nil c u)
        · obtain ⟨rfl, rfl⟩ := List.cons.inj heq
          simp only [isExponentPart, Bool.and_eq_true, Bool.or_eq_true, beq_iff_eq,
            Bool.not_eq_true', List.isEmpty_eq_false_iff, List.all_eq_true]
          exact ⟨⟨hc, hne⟩, hdigits⟩

/-- The digits and the point that are read are a mantissa. -/
theorem exists_mantissa_append {t rest : Text} (h : afterDecimal? t = some rest) :
    ∃ m, Mantissa m ∧ m ++ rest = t := by
  have whole := List.takeWhile_append_dropWhile (p := Char.isDigit) (l := t)
  have digits : ∀ d ∈ t.takeWhile Char.isDigit, d.isDigit = true :=
    fun d hd => List.mem_takeWhile_imp hd
  simp only [afterDecimal?] at h
  split at h
  · next after hafter =>
      rw [hafter] at whole
      have split := List.takeWhile_append_dropWhile (p := Char.isDigit) (l := after)
      have places : ∀ d ∈ after.takeWhile Char.isDigit, d.isDigit = true :=
        fun d hd => List.mem_takeWhile_imp hd
      split at h
      · cases h
      · next hsome =>
          cases h
          refine ⟨t.takeWhile Char.isDigit ++ '.' :: after.takeWhile Char.isDigit, ?_, ?_⟩
          · rw [Bool.and_eq_true, List.isEmpty_iff, List.isEmpty_iff] at hsome
            exact .pointed digits places (not_and_or.mp hsome)
          · rw [List.append_assoc, List.cons_append, split]
            exact whole
  · split at h
    · cases h
    · next hne =>
        cases h
        exact ⟨t.takeWhile Char.isDigit, .whole (by simpa using hne) digits, whole⟩

/-- All of a mantissa is read if neither a digit nor a point follows. -/
theorem afterDecimal?_append {m rest : Text} (hm : Mantissa m) (hdigit : NoDigitHead rest)
    (hpoint : rest.head? ≠ some '.') : afterDecimal? (m ++ rest) = some rest := by
  cases hm with
  | whole hne hdigits =>
      obtain ⟨taken, dropped⟩ := takeWhile_isDigit hdigits hdigit
      simp only [afterDecimal?, taken, dropped]
      split
      · exact absurd rfl hpoint
      · exact if_neg (by simpa using hne)
  | @pointed whole places hwhole hplaces hne =>
      have point : NoDigitHead ('.' :: (places ++ rest)) := noDigitHead_cons.mpr not_isDigit_point
      obtain ⟨taken, dropped⟩ := takeWhile_isDigit hwhole point
      obtain ⟨takenPlaces, droppedPlaces⟩ := takeWhile_isDigit hplaces hdigit
      rw [List.append_assoc, List.cons_append]
      simp only [afterDecimal?, taken, dropped, takenPlaces, droppedPlaces]
      refine if_neg ?_
      rw [Bool.and_eq_true, List.isEmpty_iff, List.isEmpty_iff]
      exact not_and_or.mpr hne

theorem head?_of_exponentPart {e : Text} (he : e = [] ∨ e ∈ exponent.matches') :
    NoDigitHead e ∧ e.head? ≠ some '.' := by
  rcases he with rfl | he
  · exact ⟨fun _ hd => absurd hd (by simp), by simp⟩
  · obtain ⟨c, u, rfl, rfl | rfl, -⟩ := mem_exponent.mp he
    · exact ⟨noDigitHead_cons.mpr (by decide), by simp⟩
    · exact ⟨noDigitHead_cons.mpr (by decide), by simp⟩

theorem isNumber_iff {t : Text} : isNumber t = true ↔ t ∈ number.matches' := by
  rw [isNumber, Option.any_eq_true, mem_number]
  constructor
  · rintro ⟨e, hafter, he⟩
    obtain ⟨m, hm, heq⟩ := exists_mantissa_append hafter
    exact ⟨m, e, hm, isExponentPart_iff.mp he, heq⟩
  · rintro ⟨m, e, hm, he, heq⟩
    obtain ⟨hdigit, hpoint⟩ := head?_of_exponentPart he
    refine ⟨e, ?_, isExponentPart_iff.mpr he⟩
    rw [← heq]
    exact afterDecimal?_append hm hdigit hpoint

/-- A cell is numeric when the text in it matches the expression for numbers.  That is when it is
the text of a double and has a digit, so words like `inf` and a sign or a point alone are not
numeric, and neither is a text with another character than those of numbers, or with nothing after
the letter or the sign of an exponent. -/
theorem isNumericCell_iff_matches (cell : Text) :
    (isNumericCell cell = true ↔ trim cell ∈ number.matches') ∧
    (isNumericCell cell = true ↔
      (∃ c ∈ trim cell, c.isDigit = true) ∧ trim cell ∈ double.matches') ∧
    (isNumericCell cell = true →
      (∀ c ∈ trim cell, c.isDigit = true ∨ c ∈ "+-.eE".toList) ∧
      ∀ c ∈ (trim cell).getLast?, c.isDigit = true ∨ c = '.') := by
  have matched : isNumericCell cell = true ↔ trim cell ∈ number.matches' := isNumber_iff
  refine ⟨matched, matched.trans mem_number_iff, ?_⟩
  intro h
  have hmem := matched.mp h
  exact ⟨mem_of_mem_number hmem, getLast?_of_mem_number hmem⟩

example : isNumericCell "\u00a0+.5E-3 ".toList = true ∧
    isNumericCell "-Infinity".toList = false := by
  decide

end Text

end NumeralLint
