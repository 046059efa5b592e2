/-
Numbers as they may be written.

A JSON number matches `-?(0|[1-9][0-9]*)(\.[0-9]+)?([eE][+-]?[0-9]+)?`
(`Pattern.jsonNumber`); its sign, its digits before and after the point and
its exponent make up a `NumberLiteral`.  What the reader makes of a literal is
settled by these parts (`NumberLiteral.outcome`): it is read to its end, or it is
refused because it is too large for a double, and what follows does not matter
as long as it does not go on with the number (`NumberLiteral.WrittenAs.settles`).
Whole numbers that fit into 64 bits are always read, as their value
(`readUnsigned_whole`).  Where numbers are passed over, there are none that are
too large.
-/
import NumeralLint.Json.Skip
import NumeralLint.Proofs.Json.ReadBack
import NumeralLint.Proofs.MaximalMunch
import NumeralLint.Proofs.Text.Patterns

namespace NumeralLint

namespace Pattern

open RegularExpression

/-! ## The expression -/

/-- `0|[1-9][0-9]*` -/
def whole : RegularExpression Char := char '0' + oneOf "123456789".toList * star digit

/-- `(\.[0-9]+)?([eE][+-]?[0-9]+)?` -/
def fraction : RegularExpression Char :=
  optional (char '.' * repeated digit) * optional exponent

/-- `-?(0|[1-9][0-9]*)(\.[0-9]+)?([eE][+-]?[0-9]+)?` -/
def jsonNumber : RegularExpression Char := optional (char '-') * (whole * fraction)

variable {t : Text}

theorem mem_whole : t ∈ whole.matches' ↔
    t = ['0'] ∨ ∃ c u, t = c :: u ∧ c ≠ '0' ∧ ∀ d ∈ c :: u, d.isDigit = true := by
  have front : ∀ {c : Char}, c ∈ "123456789".toList ↔ c ≠ '0' ∧ c.isDigit = true := by
    intro c
    have digits : c.isDigit = true ↔ c = '0' ∨ c ∈ "123456789".toList :=
      isDigit_iff.trans List.mem_cons
    have notZero : '0' ∉ "123456789".toList := by decide
    rw [digits]
    constructor
    · intro hc
      exact ⟨fun h => notZero (h ▸ hc), Or.inr hc⟩
    · rintro ⟨hne, hc⟩
      exact hc.resolve_left hne
  rw [whole, mem_add, mem_char, mem_mul]
  refine or_congr_right ?_
  constructor
  · rintro ⟨s, hs, u, hu, rfl⟩
    obtain ⟨c, hc, rfl⟩ := mem_oneOf.mp hs
    obtain ⟨hne, hdigit⟩ := front.mp hc
    exact ⟨c, u, rfl, hne, List.forall_mem_cons.mpr ⟨hdigit, mem_star_digit.mp hu⟩⟩
  · rintro ⟨c, u, rfl, hne, hdigits⟩
    obtain ⟨hc, hu⟩ := List.forall_mem_cons.mp hdigits
    exact ⟨[c], mem_oneOf.mpr ⟨c, front.mpr ⟨hne, hc⟩, rfl⟩, u, mem_star_digit.mpr hu, rfl⟩

theorem isDigit_of_mem_whole (h : t ∈ whole.matches') : ∀ d ∈ t, d.isDigit = true := by
  rcases mem_whole.mp h with rfl | ⟨c, u, rfl, -, hdigits⟩
  · exact List.forall_mem_singleton.mpr rfl
  · exact hdigits

theorem ne_nil_of_mem_whole (h : t ∈ whole.matches') : t ≠ [] := by
  rcases mem_whole.mp h with rfl | ⟨c, u, rfl, -⟩ <;> exact List.cons_ne_nil _ _

/-- Only zero is written with a zero in front. -/
theorem head?_ofNat_ne_zero {n : Nat} (h : 0 < n) : (Text.ofNat n).head? ≠ some '0' := by
  induction n using Nat.strongRecOn with
  | ind n ih =>
      rw [Text.ofNat]
      by_cases hn : n < 10
      · rw [Nat.toDigits_of_lt_base hn, List.head?_cons, ne_eq, Option.some.injEq,
          Nat.digitChar_eq_zero]
        omega
      · have front := ih (n / 10) (by omega) (by omega)
        rw [Nat.toDigits_of_base_le (by omega) (by omega)]
        rw [List.head?_append]
        cases hhead : (Nat.toDigits 10 (n / 10)).head? with
        | none => exact absurd (List.head?_eq_none_iff.mp hhead) Nat.toDigits_ne_nil
        | some c => rwa [Text.ofNat, hhead] at front

theorem isDigit_of_mem_ofNat (n : Nat) : ∀ d ∈ Text.ofNat n, d.isDigit = true :=
  fun _ hd => Nat.isDigit_of_mem_toDigits (by omega) (Nat.le_refl 10) hd

/-- Natural numbers are written without zeros in front. -/
theorem ofNat_mem_whole (n : Nat) : Text.ofNat n ∈ whole.matches' := by
  rcases Nat.eq_zero_or_pos n with rfl | hpos
  · exact mem_whole.mpr (Or.inl rfl)
  · have front := head?_ofNat_ne_zero hpos
    have digits := isDigit_of_mem_ofNat n
    cases hwritten : Text.ofNat n with
    | nil => exact absurd hwritten Nat.toDigits_ne_nil
    | cons c t =>
        rw [hwritten] at front digits
        exact mem_whole.mpr (Or.inr ⟨c, t, rfl, by simpa using front, digits⟩)

end Pattern

open Numeral

namespace Decoder

open Json

variable {α : Type}

/-- What the decoder makes of the text does not depend on what follows: it reads the text to its
end, or it refuses it as too large. -/
def Settles (d : Decoder α) (text : Text) (outcome : Option α) : Prop :=
  ∀ rest, EndsNumber rest → d (text ++ rest) =
    match outcome with
    | none => .error .malformed
    | some v => .ok (v, rest)

theorem Settles.congr {d d' : Decoder α} {text text' : Text} {outcome : Option α}
    (h : d'.Settles text' outcome)
    (heq : ∀ rest, EndsNumber rest → d (text ++ rest) = d' (text' ++ rest)) :
    d.Settles text outcome :=
  fun rest hrest => (heq rest hrest).trans (h rest hrest)

end Decoder

namespace Json

open Decoder Pattern

variable {t x rest more : Text} {p : Option Int} (negative : Bool) (digits : Nat) (e : Int)

/-! ## Digits -/

theorem EndsNumber.noDigitHead (h : EndsNumber rest) : NoDigitHead rest :=
  fun c hc => (h c hc).1

theorem not_head?_any_isDigit (h : NoDigitHead more) : ¬ more.head?.any Char.isDigit = true := by
  rw [Option.any_eq_true]
  rintro ⟨c, hc, hdigit⟩
  exact absurd (hdigit.symm.trans (h c hc)) (by simp)

/-- Digits are read as they are read alone, if no digit follows them. -/
theorem readDigits_append (t : Text) (hmore : NoDigitHead more) (value : Nat) :
    readDigits value (t ++ more) =
      { readDigits value t with rest := (readDigits value t).rest ++ more } := by
  induction t generalizing value with
  | nil =>
      cases more with
      | nil => rfl
      | cons c more =>
          have hc := noDigitHead_cons.mp hmore
          simp [readDigits, hc]
  | cons c t ih =>
      rw [List.cons_append, readDigits, readDigits]
      dsimp only
      split
      · rw [ih]
      · rfl

theorem suffix_readDigits (value : Nat) (t : Text) : (readDigits value t).rest <:+ t := by
  induction t generalizing value with
  | nil => exact List.suffix_refl _
  | cons c t ih =>
      rw [readDigits]
      dsimp only
      split
      · exact (ih _).trans (List.suffix_cons c t)
      · exact List.suffix_refl _

/-- Of the digits after a number `start`, as many are kept as fit into 64 bits with it, and the
others are dropped. -/
structure Kept (start : Nat) (digits kept dropped : Text) : Prop where
  parts : digits = kept ++ dropped
  fits : Nat.ofDigitChars 10 kept start < 0x10000000000000000
  full : ∀ d ∈ dropped.head?, 0x10000000000000000 ≤ Nat.ofDigitChars 10 (kept ++ [d]) start

theorem le_ofDigitChars (t : Text) (start : Nat) : start ≤ Nat.ofDigitChars 10 t start := by
  rw [Nat.ofDigitChars_eq_ofDigitChars_zero]
  have := Nat.le_mul_of_pos_left start (Nat.pow_pos (n := t.length) (show 0 < 10 by omega))
  omega

theorem readDigits_of_kept {start : Nat} {digits kept dropped : Text}
    (h : Kept start digits kept dropped) (hdigits : ∀ d ∈ digits, d.isDigit = true) :
    readDigits start digits = ⟨Nat.ofDigitChars 10 kept start, kept.length, dropped⟩ := by
  obtain ⟨rfl, hfits, hfull⟩ := h
  induction kept generalizing start with
  | nil =>
      cases dropped with
      | nil => rfl
      | cons d dropped =>
          have beyond := hfull d rfl
          rw [List.nil_append, Nat.ofDigitChars_cons, Nat.ofDigitChars_nil, Nat.mul_comm] at beyond
          rw [List.nil_append, readDigits, if_neg fun h => Nat.not_lt.mpr beyond h.2]
          rfl
  | cons c kept ih =>
      obtain ⟨hc, hmore⟩ := List.forall_mem_cons.mp hdigits
      have next : Nat.ofDigitChars 10 (c :: kept) start =
          Nat.ofDigitChars 10 kept (start * 10 + (c.toNat - '0'.toNat)) := by
        rw [Nat.ofDigitChars_cons, Nat.mul_comm]
      rw [next] at hfits
      have fits := (le_ofDigitChars kept _).trans_lt hfits
      have full : ∀ d ∈ dropped.head?, 0x10000000000000000 ≤
          Nat.ofDigitChars 10 (kept ++ [d]) (start * 10 + (c.toNat - '0'.toNat)) := by
        intro d hd
        have beyond := hfull d hd
        rwa [List.cons_append, Nat.ofDigitChars_cons, Nat.mul_comm] at beyond
      have others := ih hfits full hmore
      rw [List.cons_append, readDigits, if_pos ⟨hc, fits⟩, others, next]
      rfl

theorem exists_kept (t : Text) {start : Nat} (hstart : start < 0x10000000000000000) :
    ∃ kept dropped, Kept start t kept dropped := by
  induction t generalizing start with
  | nil => exact ⟨[], [], rfl, hstart, nofun⟩
  | cons c t ih =>
      by_cases hnext : 10 * start + (c.toNat - '0'.toNat) < 0x10000000000000000
      · obtain ⟨kept, dropped, rfl, hfits, hfull⟩ := ih hnext
        exact ⟨c :: kept, dropped, rfl, hfits, hfull⟩
      · refine ⟨[], c :: t, rfl, hstart, fun d hd => ?_⟩
        obtain rfl : c = d := by simpa using hd
        exact Nat.not_lt.mp hnext

/-- Digits are read to their end if their value fits into 64 bits. -/
theorem readDigits_of_lt (hdigits : ∀ d ∈ t, d.isDigit = true) (value : Nat)
    (hbound : Nat.ofDigitChars 10 t value < 0x10000000000000000) :
    readDigits value t = ⟨Nat.ofDigitChars 10 t value, t.length, []⟩ :=
  readDigits_of_kept ⟨(List.append_nil t).symm, hbound, nofun⟩ hdigits

theorem skipDigits_append (hdigits : ∀ d ∈ t, d.isDigit = true) (hmore : NoDigitHead more) :
    skipDigits (t ++ more) = more := (takeWhile_isDigit hdigits hmore).2

/-! ## Exponents -/

/-- The text writes an exponent, or there is none. -/
inductive ExponentText : Option Int → Text → Prop
  | none : ExponentText none []
  | unsigned {c : Char} {t : Text} : c = 'e' ∨ c = 'E' → t ∈ (repeated digit).matches' →
      ExponentText (some (Text.digitsValue t)) (c :: t)
  | plus {c : Char} {t : Text} : c = 'e' ∨ c = 'E' → t ∈ (repeated digit).matches' →
      ExponentText (some (Text.digitsValue t)) (c :: '+' :: t)
  | minus {c : Char} {t : Text} : c = 'e' ∨ c = 'E' → t ∈ (repeated digit).matches' →
      ExponentText (some (-Text.digitsValue t)) (c :: '-' :: t)

theorem dropSign_of_digits (h : t ∈ (repeated digit).matches') :
    t.dropSign = t ∧ (t.head? == some '-') = false := by
  obtain ⟨hne, hdigits⟩ := mem_repeated_digit.mp h
  obtain ⟨c, u, rfl⟩ := List.exists_cons_of_ne_nil hne
  obtain ⟨notPlus, notMinus⟩ := not_sign_of_isDigit (hdigits c List.mem_cons_self)
  refine ⟨?_, ?_⟩
  · rw [Text.dropSign, if_neg (not_or.mpr ⟨notPlus, notMinus⟩)]
  · simpa using notMinus

/-- The exponent as the reader takes it apart, after its letter. -/
theorem ExponentText.parts {v : Int} (h : ExponentText (some v) t) :
    ∃ (c : Char) (u : Text), t = c :: u ∧ (c = 'e' ∨ c = 'E') ∧
      u.dropSign ∈ (repeated digit).matches' ∧
      v = if u.head? == some '-' then -(Text.digitsValue u.dropSign : Int)
        else Text.digitsValue u.dropSign := by
  cases h with
  | @unsigned c u hc hu =>
      obtain ⟨same, notMinus⟩ := dropSign_of_digits hu
      exact ⟨c, u, rfl, hc, same.symm ▸ hu, by rw [notMinus, same]; rfl⟩
  | @plus c u hc hu => exact ⟨c, '+' :: u, rfl, hc, hu, rfl⟩
  | @minus c u hc hu => exact ⟨c, '-' :: u, rfl, hc, hu, rfl⟩

theorem mem_optional_exponent : t ∈ (optional exponent).matches' ↔ ∃ p, ExponentText p t := by
  constructor
  · intro h
    rcases mem_optional.mp h with rfl | h
    · exact ⟨none, .none⟩
    · obtain ⟨c, u, rfl, hc, hne, hdigits⟩ := mem_exponent.mp h
      have some := mem_repeated_digit.mpr ⟨hne, hdigits⟩
      cases u with
      | nil => exact absurd rfl hne
      | cons d u =>
          by_cases hplus : d = '+'
          · subst hplus
            exact ⟨_, .plus hc some⟩
          · by_cases hminus : d = '-'
            · subst hminus
              exact ⟨_, .minus hc some⟩
            · rw [Text.dropSign, if_neg (not_or.mpr ⟨hplus, hminus⟩)] at some
              exact ⟨_, .unsigned hc some⟩
  · rintro ⟨p, hp⟩
    cases p with
    | none =>
        cases hp
        exact mem_optional.mpr (Or.inl rfl)
    | some v =>
        obtain ⟨c, u, rfl, hc, hu, -⟩ := hp.parts
        exact mem_optional.mpr (Or.inr (mem_exponent.mpr ⟨c, u, rfl, hc, mem_repeated_digit.mp hu⟩))

theorem settles_finish :
    (finish negative digits e).Settles []
      ((scale? digits e).map fun f => .real (signed negative f)) := by
  intro rest _
  rw [List.nil_append, finish]
  cases scale? digits e <;> rfl

/-- What becomes of digits before a power of ten, when an exponent moves it by `shift`. -/
def tailOutcome (shift : Int) : Option JsonNumber :=
  if shift.natAbs < 0x80000000 then
    (scale? digits (e + shift)).map fun f => .real (signed negative f)
  else if digits ≠ 0 ∧ 0 ≤ shift then none
  else some (.real (signed negative 0))

theorem dropSign_append (ht : t ≠ []) (rest : Text) :
    Text.dropSign (t ++ rest) = t.dropSign ++ rest := by
  cases t with
  | nil => exact absurd rfl ht
  | cons c t =>
      rw [List.cons_append, Text.dropSign, Text.dropSign]
      split <;> rfl

theorem settles_readExponent {v : Int} {c : Char} (h : ExponentText (some v) (c :: t)) :
    (readExponent negative digits e).Settles t (tailOutcome negative digits e v) := by
  obtain ⟨_, _, heq, -, hdigits, hv⟩ := h.parts
  obtain ⟨rfl, rfl⟩ := List.cons.inj heq
  obtain ⟨hne, hdigits⟩ := mem_repeated_digit.mp hdigits
  have filled : t ≠ [] := by
    rintro rfl
    exact hne rfl
  obtain ⟨value, hvalue⟩ : ∃ value, Text.digitsValue t.dropSign = value := ⟨_, rfl⟩
  obtain ⟨down, hdown⟩ : ∃ down, (t.head? == some '-') = down := ⟨_, rfl⟩
  rw [hvalue, hdown] at hv
  intro rest hrest
  obtain ⟨taken, dropped⟩ := takeWhile_isDigit hdigits hrest.noDigitHead
  have written : t.dropSign.isEmpty = false := by simpa using hne
  have size : v.natAbs = value := by
    cases down <;> simp [hv]
  simp only [readExponent, tailOutcome, dropSign_append filled, skipDigits, taken, dropped, written,
    List.head?_append_of_ne_nil t filled, hvalue, hdown, size, Bool.false_eq_true, if_false]
  by_cases hsmall : value < 0x80000000
  · have power : (if down then e - value else e + value) = e + v := by
      cases down <;> simp [hv, Int.sub_eq_add_neg]
    rw [if_pos hsmall, if_pos hsmall, power]
    exact settles_finish negative digits (e + v) rest hrest
  · -- An exponent this long is not zero, so its sign is that of its value.
    have up : ¬ down = true ↔ 0 ≤ v := by
      cases down with
      | false => exact iff_of_true (by decide) (hv ▸ Int.natCast_nonneg value)
      | true =>
          have below : v < 0 := by
            rw [hv, if_pos rfl]
            omega
          exact iff_of_false (by decide) (Int.not_le.mpr below)
    rw [if_neg hsmall, if_neg hsmall]
    simp only [up]
    split <;> rfl

theorem settles_readTail (ht : ExponentText p t) :
    (readTail negative digits e).Settles t (tailOutcome negative digits e (p.getD 0)) := by
  cases p with
  | none =>
      cases ht
      have unmoved : tailOutcome negative digits e 0 =
          (scale? digits e).map fun f => .real (signed negative f) := by
        rw [tailOutcome, Int.add_zero]
        rfl
      refine (unmoved ▸ settles_finish negative digits e).congr ?_
      intro rest hrest
      rw [List.nil_append]
      cases rest with
      | nil => rfl
      | cons c rest =>
          obtain ⟨-, -, notSmall, notLarge⟩ := hrest c rfl
          rw [readTail, if_neg (not_or.mpr ⟨notSmall, notLarge⟩)]
  | some v =>
      obtain ⟨c, u, rfl, hc, -⟩ := ht.parts
      refine (settles_readExponent negative digits e ht).congr ?_
      intro rest _
      rw [List.cons_append, readTail, if_pos hc]

/-! ## Decimal places -/

theorem noDigitHead_of_exponent (ht : t ∈ (optional exponent).matches') (hrest : EndsNumber rest) :
    NoDigitHead (t ++ rest) := by
  rcases mem_optional.mp ht with rfl | ht
  · exact hrest.noDigitHead
  · obtain ⟨c, u, rfl, rfl | rfl, -⟩ := mem_exponent.mp ht
    · exact noDigitHead_cons.mpr (by decide)
    · exact noDigitHead_cons.mpr (by decide)

theorem not_point_of_exponent (ht : t ∈ (optional exponent).matches') (hrest : EndsNumber rest)
    (u : Text) : t ++ rest ≠ '.' :: u := by
  intro hu
  rcases mem_optional.mp ht with rfl | ht
  · rw [List.nil_append] at hu
    subst hu
    exact (hrest '.' rfl).2.1 rfl
  · obtain ⟨c, v, rfl, rfl | rfl, -⟩ := mem_exponent.mp ht
    · exact absurd (List.cons.inj hu).1 (by decide)
    · exact absurd (List.cons.inj hu).1 (by decide)

/-- What becomes of digits of which `dropped` do not count, with more digits after the point and an
exponent. -/
def fractionOutcome (dropped : Nat) (places : Text) (p : Option Int) : Option JsonNumber :=
  let run := readDigits digits places
  tailOutcome negative run.value (dropped - run.count) (p.getD 0)

theorem settles_readPlaces (dropped : Nat) (ht : t ∈ (repeated digit).matches')
    (hx : ExponentText p x) :
    (readPlaces negative digits dropped).Settles (t ++ x)
      (fractionOutcome negative digits dropped t p) := by
  obtain ⟨hne, hdigits⟩ := mem_repeated_digit.mp ht
  have left : ∀ d ∈ (readDigits digits t).rest, d.isDigit = true :=
    fun d hd => hdigits d ((suffix_readDigits digits t).subset hd)
  let run := readDigits digits t
  refine (settles_readTail negative run.value (dropped - run.count) hx).congr ?_
  intro rest hrest
  have stop := noDigitHead_of_exponent (mem_optional_exponent.mpr ⟨p, hx⟩) hrest
  have some : (x ++ rest).length ≠ (t ++ (x ++ rest)).length := by
    have := List.length_pos_iff.mpr hne
    simp only [List.length_append]
    omega
  rw [List.append_assoc]
  simp only [readPlaces, readDigits_append t stop, skipDigits_append left stop, if_neg some]
  rfl

/-- The point with the places after it, if there are any. -/
def pointText : Text → Text
  | [] => []
  | d :: places => '.' :: d :: places

/-- What follows the integer part is an exponent or none, with or without places before it. -/
theorem mem_fraction : t ∈ fraction.matches' ↔
    t ∈ (optional exponent).matches' ∨
      ∃ places x, places ∈ (repeated digit).matches' ∧ x ∈ (optional exponent).matches' ∧
        t = '.' :: (places ++ x) := by
  rw [fraction, mem_mul]
  constructor
  · rintro ⟨p, hp, x, hx, rfl⟩
    rcases mem_optional.mp hp with rfl | hp
    · exact Or.inl hx
    · obtain ⟨point, hpoint, places, hplaces, rfl⟩ := mem_mul.mp hp
      obtain rfl := mem_char.mp hpoint
      exact Or.inr ⟨places, x, hplaces, hx, rfl⟩
  · rintro (hx | ⟨places, x, hplaces, hx, rfl⟩)
    · exact ⟨[], mem_optional.mpr (Or.inl rfl), t, hx, rfl⟩
    · refine ⟨'.' :: places, mem_optional.mpr (Or.inr ?_), x, hx, rfl⟩
      exact mem_mul.mpr ⟨['.'], mem_char.mpr rfl, places, hplaces, rfl⟩

theorem noDigitHead_of_fraction (h : t ∈ fraction.matches') (hrest : EndsNumber rest) :
    NoDigitHead (t ++ rest) := by
  rcases mem_fraction.mp h with hx | ⟨places, x, -, -, rfl⟩
  · exact noDigitHead_of_exponent hx hrest
  · exact noDigitHead_cons.mpr not_isDigit_point

theorem readFraction_of_endsNumber (hrest : EndsNumber rest) :
    readFraction negative digits rest = .ok (wholeNumber negative digits, rest) := by
  cases rest with
  | nil => rfl
  | cons c rest =>
      obtain ⟨-, notPoint, notSmall, notLarge⟩ := hrest c rfl
      rw [readFraction, if_neg notPoint, if_neg (not_or.mpr ⟨notSmall, notLarge⟩)]

theorem fraction_mem {places : Text} (hplaces : ∀ d ∈ places, d.isDigit = true)
    (hx : ExponentText p x) : pointText places ++ x ∈ fraction.matches' := by
  have power := mem_optional_exponent.mpr ⟨p, hx⟩
  cases places with
  | nil => exact mem_fraction.mpr (Or.inl power)
  | cons d u =>
      have some := mem_repeated_digit.mpr ⟨List.cons_ne_nil d u, hplaces⟩
      exact mem_fraction.mpr (Or.inr ⟨d :: u, x, some, power, rfl⟩)

theorem settles_readFraction {places : Text} (hplaces : ∀ d ∈ places, d.isDigit = true)
    (hx : ExponentText p x) :
    (readFraction negative digits).Settles (pointText places ++ x)
      (if places = [] ∧ p = none then some (wholeNumber negative digits)
        else fractionOutcome negative digits 0 places p) := by
  cases places with
  | nil =>
      cases p with
      | none =>
          cases hx
          exact fun rest => readFraction_of_endsNumber negative digits
      | some v =>
          obtain ⟨c, u, rfl, hc, -⟩ := hx.parts
          rw [if_neg (by simp)]
          refine (settles_readExponent negative digits 0 hx).congr ?_
          intro rest _
          have notPoint : c ≠ '.' := by
            rcases hc with rfl | rfl <;> decide
          rw [pointText, List.nil_append, List.cons_append, readFraction, if_neg notPoint,
            if_pos hc]
  | cons d u =>
      have some := mem_repeated_digit.mpr ⟨List.cons_ne_nil d u, hplaces⟩
      rw [if_neg (by simp)]
      refine (settles_readPlaces negative digits 0 some hx).congr ?_
      intro rest _
      rw [pointText, List.cons_append, List.cons_append, readFraction, if_pos rfl]
      rfl

theorem settles_readLongFraction (dropped : Nat) {places : Text}
    (hplaces : ∀ d ∈ places, d.isDigit = true) (hx : ExponentText p x) :
    (readLongFraction negative digits dropped).Settles (pointText places ++ x)
      (fractionOutcome negative digits dropped places p) := by
  cases places with
  | nil =>
      have unmoved : fractionOutcome negative digits dropped [] p =
          tailOutcome negative digits dropped (p.getD 0) := by
        rw [fractionOutcome, readDigits]
        simp
      rw [unmoved]
      refine (settles_readTail negative digits dropped hx).congr ?_
      intro rest hrest
      rw [pointText, List.nil_append, readLongFraction]
      exact not_point_of_exponent (mem_optional_exponent.mpr ⟨p, hx⟩) hrest
  | cons d u =>
      have some := mem_repeated_digit.mpr ⟨List.cons_ne_nil d u, hplaces⟩
      refine (settles_readPlaces negative digits dropped some hx).congr ?_
      intro rest _
      rfl

/-! ## Numbers -/

/-- A number by its parts: its sign, its digits before and after the point, and its exponent. -/
structure NumberLiteral where
  negative : Bool
  whole : Text
  places : Text
  exponent : Option Int

namespace NumberLiteral

/-- The text writes the number. -/
structure WrittenAs (l : NumberLiteral) (t : Text) : Prop where
  whole : l.whole ∈ Pattern.whole.matches'
  places : ∀ d ∈ l.places, d.isDigit = true
  text : ∃ power, ExponentText l.exponent power ∧
    t = (if l.negative then ['-'] else []) ++ (l.whole ++ (pointText l.places ++ power))

/-- What the reader makes of the number. -/
def outcome (l : NumberLiteral) : Option JsonNumber :=
  let front := readDigits 0 l.whole
  if front.rest = [] ∧ l.places = [] ∧ l.exponent = none then
    some (wholeNumber l.negative front.value)
  else fractionOutcome l.negative front.value front.rest.length l.places l.exponent

end NumberLiteral

theorem settles_readUnsigned {l : NumberLiteral} (h : l.WrittenAs t)
    (hx : ExponentText l.exponent x) :
    (readUnsigned l.negative).Settles (l.whole ++ (pointText l.places ++ x)) l.outcome := by
  obtain ⟨hw, hplaces, -⟩ := h
  have hf := fraction_mem hplaces hx
  rcases mem_whole.mp hw with hzero | ⟨c, u, hwhole, front, hdigits⟩
  · have zero : l.outcome = if l.places = [] ∧ l.exponent = none then
        some (wholeNumber l.negative 0) else
          fractionOutcome l.negative 0 0 l.places l.exponent := by
      rw [NumberLiteral.outcome, hzero]
      simp [readDigits]
    rw [hzero, zero]
    refine (settles_readFraction l.negative 0 hplaces hx).congr ?_
    intro rest hrest
    have stop := noDigitHead_of_fraction hf hrest
    show readUnsigned l.negative ('0' :: (pointText l.places ++ x ++ rest)) = _
    rw [readUnsigned, if_pos rfl, if_neg (not_head?_any_isDigit stop)]
  · obtain ⟨run, hrun⟩ : ∃ run, readDigits 0 (c :: u) = run := ⟨_, rfl⟩
    have left : ∀ d ∈ run.rest, d.isDigit = true :=
      fun d hd => hdigits d ((suffix_readDigits 0 (c :: u)).subset (hrun ▸ hd))
    have read : ∀ rest, EndsNumber rest →
        readUnsigned l.negative (c :: u ++ (pointText l.places ++ x) ++ rest) =
          if run.rest.length = 0 then
            readFraction l.negative run.value (pointText l.places ++ x ++ rest)
          else readLongFraction l.negative run.value run.rest.length
            (pointText l.places ++ x ++ rest) := by
      intro rest hrest
      have stop := noDigitHead_of_fraction hf hrest
      have appended := readDigits_append (c :: u) stop 0
      rw [List.cons_append, hrun] at appended
      have hc : c.isDigit = true := hdigits c List.mem_cons_self
      rw [List.append_assoc, List.cons_append, readUnsigned, if_neg front, if_pos hc, appended]
      have dropped : (run.rest ++ (pointText l.places ++ x ++ rest)).length -
          (pointText l.places ++ x ++ rest).length = run.rest.length := by
        rw [List.length_append, Nat.add_sub_cancel]
      simp only [skipDigits_append left stop, dropped]
    rw [NumberLiteral.outcome, hwhole, hrun]
    by_cases hall : run.rest.length = 0
    · simp only [List.length_eq_zero_iff.mp hall, true_and]
      refine (settles_readFraction l.negative run.value hplaces hx).congr ?_
      intro rest hrest
      rw [read rest hrest, if_pos hall]
    · simp only [List.length_eq_zero_iff.not.mp hall, false_and, if_false]
      refine (settles_readLongFraction l.negative run.value run.rest.length hplaces hx).congr ?_
      intro rest hrest
      rw [read rest hrest, if_neg hall]

theorem not_minus_of_mem_whole (h : t ∈ whole.matches') (more u : Text) : t ++ more ≠ '-' :: u := by
  intro heq
  obtain ⟨c, v, rfl⟩ := List.exists_cons_of_ne_nil (ne_nil_of_mem_whole h)
  have hc := isDigit_of_mem_whole h c List.mem_cons_self
  obtain rfl : c = '-' := (List.cons.inj heq).1
  exact absurd hc (by decide)

theorem NumberLiteral.WrittenAs.settles {l : NumberLiteral} (h : l.WrittenAs t) :
    readNumber.Settles t l.outcome := by
  obtain ⟨x, hx, rfl⟩ := h.text
  have unsigned := settles_readUnsigned h hx
  cases hnegative : l.negative with
  | false =>
      rw [hnegative] at unsigned
      refine unsigned.congr ?_
      intro rest _
      rw [if_neg (by decide), List.nil_append, readNumber]
      rw [List.append_assoc]
      exact not_minus_of_mem_whole h.whole _
  | true =>
      rw [hnegative] at unsigned
      exact unsigned.congr fun rest _ => rfl

/-- What matches the expression are the numbers. -/
theorem mem_jsonNumber : t ∈ jsonNumber.matches' ↔ ∃ l : NumberLiteral, l.WrittenAs t := by
  rw [jsonNumber, mem_mul]
  constructor
  · rintro ⟨s, hs, u, hu, rfl⟩
    obtain ⟨w, hw, f, hf, rfl⟩ := mem_mul.mp hu
    obtain ⟨negative, rfl⟩ : ∃ negative : Bool, s = if negative then ['-'] else [] := by
      rcases mem_optional.mp hs with rfl | hs
      · exact ⟨false, rfl⟩
      · exact ⟨true, mem_char.mp hs⟩
    rcases mem_fraction.mp hf with hx | ⟨places, x, hplaces, hx, rfl⟩
    · obtain ⟨p, hx⟩ := mem_optional_exponent.mp hx
      exact ⟨⟨negative, w, [], p⟩, hw, nofun, f, hx, rfl⟩
    · obtain ⟨p, hx⟩ := mem_optional_exponent.mp hx
      obtain ⟨hne, hdigits⟩ := mem_repeated_digit.mp hplaces
      obtain ⟨d, u, rfl⟩ := List.exists_cons_of_ne_nil hne
      exact ⟨⟨negative, w, d :: u, p⟩, hw, hdigits, x, hx, rfl⟩
  · rintro ⟨l, hw, hplaces, x, hx, rfl⟩
    have unsigned := mem_mul.mpr ⟨l.whole, hw, _, fraction_mem hplaces hx, rfl⟩
    refine ⟨_, mem_optional.mpr ?_, _, unsigned, rfl⟩
    cases l.negative with
    | false => exact Or.inl rfl
    | true => exact Or.inr (mem_char.mpr rfl)

/-- The text starts as numbers do, with a sign or a digit. -/
def StartsNumber (t : Text) : Prop := ∃ c u, t = c :: u ∧ (c = '-' ∨ c.isDigit = true)

theorem startsNumber_of_mem_whole (h : t ∈ whole.matches') (more : Text) :
    StartsNumber (t ++ more) := by
  obtain ⟨c, u, rfl⟩ := List.exists_cons_of_ne_nil (ne_nil_of_mem_whole h)
  exact ⟨c, u ++ more, rfl, Or.inr (isDigit_of_mem_whole h c List.mem_cons_self)⟩

theorem startsNumber_of_mem_jsonNumber (h : t ∈ jsonNumber.matches') : StartsNumber t := by
  obtain ⟨s, hs, u, hu, rfl⟩ := mem_mul.mp h
  rcases mem_optional.mp hs with rfl | hs
  · obtain ⟨w, hw, f, -, rfl⟩ := mem_mul.mp hu
    exact startsNumber_of_mem_whole hw f
  · obtain rfl := mem_char.mp hs
    exact ⟨'-', u, rfl, Or.inl rfl⟩

theorem StartsNumber.starts (h : StartsNumber t) :
    ∃ c u, t = c :: u ∧ isSpace c = false ∧ c ≠ ']' := by
  obtain ⟨c, u, rfl, rfl | hdigit⟩ := h
  · exact ⟨'-', u, rfl, rfl, by decide⟩
  · refine ⟨c, u, rfl, Bool.eq_false_iff.mpr fun hspace => ?_, ?_⟩
    · exact absurd (hdigit.symm.trans (notInNumber_of_isSpace hspace).1) (by simp)
    · rintro rfl
      exact absurd hdigit (by decide)

theorem readAnyNumber_append (h : StartsNumber t) {gap : Text} (hgap : IsSpaces gap) (rest : Text) :
    readAnyNumber (gap ++ t ++ rest) = readNumber (t ++ rest) := by
  obtain ⟨c, u, heq, notSpace, -⟩ := h.starts
  obtain ⟨d, v, heq', hc⟩ := h
  obtain ⟨rfl, rfl⟩ := List.cons.inj (heq.symm.trans heq')
  rw [List.append_assoc, heq, List.cons_append, readAnyNumber, skipSpace_append hgap notSpace]
  exact if_pos hc

theorem readsBack_of_readNumber {n : JsonNumber} (h : StartsNumber t)
    (hread : ∀ rest, EndsNumber rest → readNumber (t ++ rest) = .ok (n, rest)) :
    readAnyNumber.ReadsBack t n where
  starts := h.starts
  reads := by
    intro gap rest hgap hrest
    rw [readAnyNumber_append h hgap, hread rest hrest]

/-- A number that is read alone is read wherever it stands. -/
theorem readsBack_of_readAnyNumber {n : JsonNumber} (h : t ∈ jsonNumber.matches')
    (hread : readAnyNumber t = .ok (n, [])) : readAnyNumber.ReadsBack t n := by
  have starts := startsNumber_of_mem_jsonNumber h
  obtain ⟨l, hl⟩ := mem_jsonNumber.mp h
  have houtcome := hl.settles
  generalize l.outcome = outcome at houtcome
  have alone : readNumber (t ++ []) = .ok (n, []) := by
    rw [← readAnyNumber_append starts isSpaces_nil, List.nil_append, List.append_nil, hread]
  rw [houtcome [] endsNumber_nil] at alone
  refine readsBack_of_readNumber starts ?_
  intro rest hrest
  rw [houtcome rest hrest]
  cases outcome with
  | none => cases alone
  | some v => cases alone; rfl

/-! ## Whole numbers -/

/-- A whole number that fits into 64 bits is read as its value. -/
theorem readUnsigned_whole (h : t ∈ whole.matches')
    (hvalue : Text.digitsValue t < 0x10000000000000000) (hrest : EndsNumber rest) :
    readUnsigned negative (t ++ rest) = .ok (wholeNumber negative (Text.digitsValue t), rest) := by
  have stop := hrest.noDigitHead
  rcases mem_whole.mp h with rfl | ⟨c, u, rfl, front, hdigits⟩
  · show readUnsigned negative ('0' :: rest) = _
    rw [readUnsigned, if_pos rfl, if_neg (not_head?_any_isDigit stop)]
    exact readFraction_of_endsNumber negative 0 hrest
  · have run := readDigits_append (c :: u) stop 0
    rw [readDigits_of_lt hdigits 0 hvalue, List.cons_append, List.nil_append] at run
    have hc : c.isDigit = true := hdigits c List.mem_cons_self
    have left : skipDigits rest = rest := skipDigits_append (t := []) (by simp) stop
    rw [List.cons_append, readUnsigned, if_neg front, if_pos hc, run]
    simp only [left, Nat.sub_self, if_true]
    exact readFraction_of_endsNumber negative _ hrest

/-- The whole numbers that JSON writes, which do not include minus zero. -/
inductive IntText : Int → Text → Prop
  | natural {t : Text} : t ∈ whole.matches' → IntText (Text.digitsValue t) t
  | negative {t : Text} : t ∈ whole.matches' → Text.digitsValue t ≠ 0 →
      IntText (-Text.digitsValue t) ('-' :: t)

theorem intText_ofNat (n : Nat) : IntText n (Text.ofNat n) := by
  have text := IntText.natural (ofNat_mem_whole n)
  rwa [Text.digitsValue_ofNat] at text

theorem intText_ofInt (v : Int) : IntText v (Text.ofInt v) := by
  cases v with
  | ofNat n => exact intText_ofNat n
  | negSucc n =>
      have nonzero : Text.digitsValue (Text.ofNat (n + 1)) ≠ 0 := by
        rw [Text.digitsValue_ofNat]
        exact Nat.succ_ne_zero n
      have text := IntText.negative (ofNat_mem_whole (n + 1)) nonzero
      rwa [Text.digitsValue_ofNat] at text

/-- A whole number is read as its value if that fits into 64 bits, with its sign if it has one. -/
theorem IntText.readAnyNumber {v : Int} (h : IntText v t) (hlow : -0x8000000000000000 ≤ v)
    (hhigh : v < 0x10000000000000000) : readAnyNumber.ReadsBack t (.whole v) := by
  cases h with
  | natural hw =>
      have starts := startsNumber_of_mem_whole hw []
      rw [List.append_nil] at starts
      refine readsBack_of_readNumber starts ?_
      intro rest hrest
      rw [readNumber]
      · exact readUnsigned_whole false hw (by omega) hrest
      · exact not_minus_of_mem_whole hw rest
  | @negative t hw hne =>
      refine readsBack_of_readNumber ⟨'-', t, rfl, Or.inl rfl⟩ ?_
      intro rest hrest
      have inRange : ¬ (Text.digitsValue t = 0 ∨ Text.digitsValue t > 0x8000000000000000) := by
        omega
      show readUnsigned true (t ++ rest) = _
      rw [readUnsigned_whole true hw (by omega) hrest, wholeNumber, if_neg (by simp),
        if_neg inRange]

theorem readNat_ofNat {n : Nat} (hn : n < 0x10000000000000000) :
    readNat.ReadsBack (Text.ofNat n) n := by
  refine ((intText_ofNat n).readAnyNumber (by omega) (by omega)).accept ?_
  show (if (0 : Int) ≤ n then some (n : Int).toNat else none) = some n
  rw [if_pos (Int.natCast_nonneg n), Int.toNat_natCast]

theorem IntText.readInt {v : Int} (h : IntText v t) (hlow : -0x8000000000000000 ≤ v)
    (hhigh : v < 0x8000000000000000) : readInt.ReadsBack t v := by
  refine (h.readAnyNumber hlow (by omega)).accept ?_
  exact if_pos hhigh

/-- A double that is read alone is read wherever it stands. -/
theorem readsBack_of_readFloat {f : Float} (h : t ∈ jsonNumber.matches')
    (hread : readFloat t = .ok (f, [])) : readFloat.ReadsBack t f := by
  rw [readFloat, Decoder.map] at hread
  split at hread
  · cases hread
  · next n rest halone =>
      obtain ⟨hvalue, rfl⟩ := Prod.mk.inj (Except.ok.inj hread)
      exact hvalue ▸ (readsBack_of_readAnyNumber h halone).map _

/-! ## Numbers that are passed over -/

theorem skipSomeDigits_append (ht : t ≠ []) (hdigits : ∀ d ∈ t, d.isDigit = true)
    (hmore : NoDigitHead more) : skipSomeDigits (t ++ more) = .ok ((), more) := by
  obtain ⟨c, u, rfl⟩ := List.exists_cons_of_ne_nil ht
  have hc : ((c :: u) ++ more).head?.any Char.isDigit = true := hdigits c List.mem_cons_self
  rw [skipSomeDigits, if_pos hc, skipDigits_append hdigits hmore]

theorem skipExponent_append (ht : t ∈ (optional exponent).matches') (hrest : EndsNumber rest) :
    skipExponent (t ++ rest) = .ok ((), rest) := by
  rcases mem_optional.mp ht with rfl | ht
  · cases rest with
    | nil => rfl
    | cons c rest =>
        obtain ⟨-, -, notSmall, notLarge⟩ := hrest c rfl
        rw [List.nil_append, skipExponent, if_neg (not_or.mpr ⟨notSmall, notLarge⟩)]
  · obtain ⟨c, u, rfl, hc, hne, hdigits⟩ := mem_exponent.mp ht
    have filled : u ≠ [] := by
      rintro rfl
      exact hne rfl
    rw [List.cons_append, skipExponent, if_pos hc, dropSign_append filled]
    exact skipSomeDigits_append hne hdigits hrest.noDigitHead

theorem skipFraction_append (ht : t ∈ fraction.matches') (hrest : EndsNumber rest) :
    skipFraction (t ++ rest) = .ok ((), rest) := by
  rcases mem_fraction.mp ht with hx | ⟨places, x, hplaces, hx, rfl⟩
  · rw [skipFraction]
    · exact skipExponent_append hx hrest
    · exact not_point_of_exponent hx hrest
  · obtain ⟨hne, hdigits⟩ := mem_repeated_digit.mp hplaces
    have stop := noDigitHead_of_exponent hx hrest
    rw [List.cons_append, List.append_assoc, skipFraction, skipSomeDigits_append hne hdigits stop]
    exact skipExponent_append hx hrest

theorem skipUnsigned_append (ht : t ∈ (whole * fraction).matches') (hrest : EndsNumber rest) :
    skipUnsigned (t ++ rest) = .ok ((), rest) := by
  obtain ⟨w, hw, f, hf, rfl⟩ := mem_mul.mp ht
  have stop := noDigitHead_of_fraction hf hrest
  rcases mem_whole.mp hw with rfl | ⟨c, u, rfl, front, hdigits⟩
  · show skipUnsigned ('0' :: (f ++ rest)) = _
    rw [skipUnsigned, if_pos rfl, if_neg (not_head?_any_isDigit stop)]
    exact skipFraction_append hf hrest
  · obtain ⟨hc, hu⟩ := List.forall_mem_cons.mp hdigits
    rw [List.append_assoc, List.cons_append, skipUnsigned, if_neg front, if_pos hc,
      skipDigits_append hu stop]
    exact skipFraction_append hf hrest

theorem skipScalar_digit {c : Char} (hc : c.isDigit = true) (t : Text) :
    skipScalar (c :: t) = skipUnsigned (c :: t) := by
  have others : c ≠ 'n' ∧ c ≠ 't' ∧ c ≠ 'f' ∧ c ≠ '"' ∧ c ≠ '-' := by
    refine ⟨?_, ?_, ?_, ?_, ?_⟩ <;> rintro rfl <;> exact absurd hc (by decide)
  obtain ⟨notNull, notTrue, notFalse, notQuote, notMinus⟩ := others
  rw [skipScalar, if_neg notNull, if_neg notTrue, if_neg notFalse, if_neg notQuote, if_neg notMinus,
    if_pos hc]

theorem skipScalar_number (ht : t ∈ jsonNumber.matches') (hrest : EndsNumber rest) :
    skipScalar (t ++ rest) = .ok ((), rest) := by
  obtain ⟨s, hs, u, hu, rfl⟩ := mem_mul.mp ht
  rcases mem_optional.mp hs with rfl | hs
  · have skipped := skipUnsigned_append hu hrest
    obtain ⟨w, hw, f, -, rfl⟩ := mem_mul.mp hu
    obtain ⟨c, v, rfl⟩ := List.exists_cons_of_ne_nil (ne_nil_of_mem_whole hw)
    have hc := isDigit_of_mem_whole hw c List.mem_cons_self
    exact (skipScalar_digit hc (v ++ f ++ rest)).trans skipped
  · obtain rfl := mem_char.mp hs
    exact skipUnsigned_append hu hrest

end Json

end NumeralLint
