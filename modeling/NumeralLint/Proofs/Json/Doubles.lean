/-
Doubles as they may be written.

A literal without point and exponent is a whole number, and if that fits into
64 bits, the double is the one for it.  Any other literal is a number of digits
before a power of ten (`NumberLiteral.Counts`): the digits of both sides of the point
count as long as their value fits into 64 bits, and the power is the exponent,
less the places that count and more the digits before the point that do not.
The double is that of the digits, multiplied or divided by the one for the
power of ten (`Scales`).  This is arithmetic with doubles, so it need not come
to the double next to the number that is written; and where a product is beyond
the doubles, nothing is denoted.

So it is said here from the parts of the literal what it denotes
(`NumberLiteral.Denotes`), and the reader is shown to find that
(`NumberLiteral.denotes_iff`).
-/
import NumeralLint.Proofs.Json.Numbers

namespace NumeralLint

namespace Json

open Decoder Pattern

variable {t : Text} {f x : Float} {n : Nat} {e : Int}

/-! ## Powers of ten -/

/-- A double multiplied by a power of ten that is a double, if the product is one.  Zero can be
multiplied by any power. -/
inductive Multiplies (f : Float) : Nat → Float → Prop
  | product {n : Nat} : n ≤ 308 → (f * Float.ofScientific 1 false n).isInf = false →
      Multiplies f n (f * Float.ofScientific 1 false n)
  | zero {n : Nat} : 308 < n → (f == 0) = true → Multiplies f n f

/-- A double divided by a power of ten, in several steps if the power is not a double. -/
inductive Divides : Float → Nat → Float → Prop
  | quotient {f : Float} {n : Nat} : n ≤ 308 → Divides f n (f / Float.ofScientific 1 false n)
  | zero {f : Float} {n : Nat} : 308 < n → (f == 0) = true → Divides f n f
  | step {f x : Float} {n : Nat} : 308 < n → (f == 0) = false →
      Divides (f / Float.ofScientific 1 false 308) (n - 308) x → Divides f n x

/-- A double times ten to the power `e`. -/
def Scales (f : Float) (e : Int) (x : Float) : Prop :=
  if 0 ≤ e then Multiplies f e.toNat x else Divides f (-e).toNat x

theorem multiplyByPower?_eq_some_iff : multiplyByPower? f n = some x ↔ Multiplies f n x := by
  rw [multiplyByPower?]
  by_cases hn : n ≤ 308
  · rw [if_pos hn]
    dsimp only [powerOfTen]
    constructor
    · intro h
      split at h
      · cases h
      · next hfinite =>
          obtain rfl := Option.some.inj h
          exact .product hn (Bool.eq_false_iff.mpr hfinite)
    · intro h
      cases h with
      | product _ hfinite => rw [hfinite, if_neg Bool.false_ne_true]
      | zero hlarge => exact absurd hn (Nat.not_le.mpr hlarge)
  · rw [if_neg hn]
    constructor
    · intro h
      split at h
      · next hzero =>
          obtain rfl := Option.some.inj h
          exact .zero (Nat.not_le.mp hn) hzero
      · cases h
    · intro h
      cases h with
      | product hsmall => exact absurd hsmall hn
      | zero _ hzero => rw [if_pos hzero]

theorem divides_divideByPower (f : Float) (n : Nat) : Divides f n (divideByPower f n) := by
  fun_induction divideByPower f n with
  | case1 f n hn => exact .quotient hn
  | case2 f n hn hzero => exact .zero (Nat.not_le.mp hn) hzero
  | case3 f n hn hzero ih => exact .step (Nat.not_le.mp hn) (Bool.eq_false_iff.mpr hzero) ih

theorem Divides.divideByPower_eq (h : Divides f n x) : divideByPower f n = x := by
  induction h with
  | quotient hn => rw [divideByPower, if_pos hn, powerOfTen]
  | zero hn hzero => rw [divideByPower, if_neg (Nat.not_le.mpr hn), if_pos hzero]
  | step hn hzero _ ih =>
      rw [divideByPower, if_neg (Nat.not_le.mpr hn), hzero, if_neg Bool.false_ne_true]
      exact ih

theorem scale?_eq_some_iff : scale? n e = some x ↔ Scales n.toFloat e x := by
  cases e with
  | ofNat k => exact multiplyByPower?_eq_some_iff
  | negSucc k =>
      have below : ¬ 0 ≤ Int.negSucc k := by omega
      rw [scale?, Scales, if_neg below, Option.some.injEq]
      constructor
      · rintro rfl
        exact divides_divideByPower _ _
      · exact Divides.divideByPower_eq

/-! ## Literals -/

namespace NumberLiteral

variable {l : NumberLiteral}

/-- How far the exponent moves the point. -/
def shift (l : NumberLiteral) : Int := l.exponent.getD 0

/-- The double with the sign of the literal. -/
def withSign (l : NumberLiteral) (x : Float) : Float := if l.negative then -x else x

/-- The literal is a whole number that fits into 64 bits. -/
def IsWhole (l : NumberLiteral) : Prop :=
  l.places = [] ∧ l.exponent = none ∧ Text.digitsValue l.whole < 0x10000000000000000

/-- The digits of the literal count as `n` before ten to the power `e`, apart from its exponent. -/
def Counts (l : NumberLiteral) (n : Nat) (e : Int) : Prop :=
  ∃ whole dropped places rest, Kept 0 l.whole whole dropped ∧
    Kept (Text.digitsValue whole) l.places places rest ∧
    n = Text.digitsValue (whole ++ places) ∧ e = dropped.length - places.length

/-- The double that the literal denotes.  An exponent beyond 31 bits leaves nothing but zero. -/
inductive Denotes (l : NumberLiteral) : Float → Prop
  | whole : l.IsWhole → l.Denotes (l.withSign (Text.digitsValue l.whole).toFloat)
  | scaled {n : Nat} {e : Int} {x : Float} : ¬ l.IsWhole → l.Counts n e →
      l.shift.natAbs < 0x80000000 → Scales n.toFloat (e + l.shift) x → l.Denotes (l.withSign x)
  | vanishing {n : Nat} {e : Int} : l.Counts n e → 0x80000000 ≤ l.shift.natAbs →
      n = 0 ∨ l.shift < 0 → l.Denotes (l.withSign 0)

theorem digitsValue_append (s t : Text) :
    Text.digitsValue (s ++ t) = Nat.ofDigitChars 10 t (Text.digitsValue s) :=
  Nat.ofDigitChars_append 0

/-- If all digits fit into 64 bits, they count as they stand, without the point. -/
theorem counts_of_lt (h : Text.digitsValue (l.whole ++ l.places) < 0x10000000000000000) :
    l.Counts (Text.digitsValue (l.whole ++ l.places)) (-l.places.length) := by
  have joined := digitsValue_append l.whole l.places
  have front := (le_ofDigitChars l.places (Text.digitsValue l.whole)).trans_lt (joined ▸ h)
  exact ⟨l.whole, [], l.places, [], ⟨(List.append_nil _).symm, front, nofun⟩,
    ⟨(List.append_nil _).symm, joined ▸ h, nofun⟩, rfl, by simp⟩

/-- No digit is dropped from a whole number that fits into 64 bits, and some are from others. -/
theorem dropped_eq_nil_iff {kept dropped : Text} (h : Kept 0 t kept dropped) :
    dropped = [] ↔ Text.digitsValue t < 0x10000000000000000 := by
  obtain ⟨rfl, hfits, hfull⟩ := h
  cases dropped with
  | nil => exact iff_of_true rfl (by rwa [List.append_nil])
  | cons d rest =>
      have beyond : Text.digitsValue (kept ++ d :: rest) =
          Nat.ofDigitChars 10 rest (Nat.ofDigitChars 10 (kept ++ [d]) 0) := by
        rw [← Nat.ofDigitChars_append, List.append_assoc]
        rfl
      refine iff_of_false (List.cons_ne_nil d rest) (Nat.not_lt.mpr ?_)
      rw [beyond]
      exact (hfull d rfl).trans (le_ofDigitChars rest _)

theorem isWhole_iff {kept dropped : Text} (h : Kept 0 l.whole kept dropped) :
    (dropped = [] ∧ l.places = [] ∧ l.exponent = none) ↔ l.IsWhole := by
  rw [dropped_eq_nil_iff h, IsWhole]
  tauto

theorem outcome_of_isWhole (h : l.WrittenAs t) (hwhole : l.IsWhole) :
    l.outcome = some (wholeNumber l.negative (Text.digitsValue l.whole)) := by
  obtain ⟨hplaces, hexponent, hvalue⟩ := hwhole
  have front := readDigits_of_lt (isDigit_of_mem_whole h.whole) 0 hvalue
  rw [outcome, front]
  exact if_pos ⟨rfl, hplaces, hexponent⟩

theorem outcome_of_counts (h : l.WrittenAs t) (hwhole : ¬ l.IsWhole) (hcounts : l.Counts n e) :
    l.outcome = tailOutcome l.negative n e l.shift := by
  obtain ⟨whole, dropped, places, rest, hfront, hback, rfl, rfl⟩ := hcounts
  have front := readDigits_of_kept hfront (isDigit_of_mem_whole h.whole)
  have back := readDigits_of_kept hback h.places
  rw [outcome, front, digitsValue_append]
  refine (if_neg (mt (isWhole_iff hfront).mp hwhole)).trans ?_
  show fractionOutcome l.negative (Text.digitsValue whole) dropped.length l.places l.exponent = _
  rw [fractionOutcome, back, shift]

theorem exists_counts (l : NumberLiteral) : ∃ n e, l.Counts n e := by
  obtain ⟨whole, dropped, hfront⟩ :=
    exists_kept l.whole (show 0 < 0x10000000000000000 by decide)
  obtain ⟨places, rest, hback⟩ := exists_kept l.places hfront.fits
  exact ⟨_, _, whole, dropped, places, rest, hfront, hback, rfl, rfl⟩

end NumberLiteral

end Json

/-- The double next to a number that was read. -/
def JsonNumber.double : JsonNumber → Float
  | .whole v => if v < 0 then -v.natAbs.toFloat else v.natAbs.toFloat
  | .real f => f

namespace Json

open Decoder Pattern

variable {t : Text} {x : Float} {l : NumberLiteral}

theorem double_wholeNumber (negative : Bool) (n : Nat) :
    (wholeNumber negative n).double = if negative then -n.toFloat else n.toFloat := by
  cases negative with
  | false =>
      have natural : ¬ (n : Int) < 0 := by omega
      show (if (n : Int) < 0 then -(n : Int).natAbs.toFloat else (n : Int).natAbs.toFloat) = _
      rw [if_neg natural, Int.natAbs_natCast, if_neg Bool.false_ne_true]
  | true =>
      rw [wholeNumber, if_neg (by decide), if_pos rfl]
      split
      · rfl
      · next hne =>
          have negative : -(n : Int) < 0 := by omega
          show (if -(n : Int) < 0 then -(-(n : Int)).natAbs.toFloat
            else (-(n : Int)).natAbs.toFloat) = _
          rw [if_pos negative, Int.natAbs_neg, Int.natAbs_natCast]

theorem NumberLiteral.Denotes.outcome (hdenotes : l.Denotes x) (h : l.WrittenAs t) :
    l.outcome.map JsonNumber.double = some x := by
  cases hdenotes with
  | whole hwhole =>
      rw [outcome_of_isWhole h hwhole, Option.map_some, double_wholeNumber]
      rfl
  | scaled hwhole hcounts hshift hscales =>
      rw [outcome_of_counts h hwhole hcounts, tailOutcome, if_pos hshift,
        scale?_eq_some_iff.mpr hscales]
      rfl
  | @vanishing n e hcounts hshift hsmall =>
      have moved : ¬ l.IsWhole := by
        rintro ⟨-, hexponent, -⟩
        rw [shift, hexponent] at hshift
        exact absurd hshift (by decide)
      have notLarge : ¬ (n ≠ 0 ∧ 0 ≤ l.shift) := by omega
      rw [outcome_of_counts h moved hcounts, tailOutcome, if_neg (Nat.not_lt.mpr hshift),
        if_neg notLarge]
      rfl

theorem NumberLiteral.denotes_of_outcome (h : l.WrittenAs t) {n : JsonNumber}
    (hread : l.outcome = some n) : l.Denotes n.double := by
  by_cases hwhole : l.IsWhole
  · rw [outcome_of_isWhole h hwhole] at hread
    obtain rfl := Option.some.inj hread
    rw [double_wholeNumber]
    exact .whole hwhole
  · obtain ⟨digits, e, hcounts⟩ := l.exists_counts
    rw [outcome_of_counts h hwhole hcounts, tailOutcome] at hread
    split at hread
    · next hshift =>
        obtain ⟨f, hscale, rfl⟩ := Option.map_eq_some_iff.mp hread
        exact .scaled hwhole hcounts hshift (scale?_eq_some_iff.mp hscale)
    · next hshift =>
        split at hread
        · cases hread
        · next hsmall =>
            obtain rfl := Option.some.inj hread
            exact .vanishing hcounts (Nat.not_lt.mp hshift) (by omega)

/-- The reader makes of a literal what it denotes, and nothing if it denotes nothing. -/
theorem NumberLiteral.denotes_iff (h : l.WrittenAs t) :
    l.Denotes x ↔ l.outcome.map JsonNumber.double = some x := by
  constructor
  · exact fun hdenotes => hdenotes.outcome h
  · intro hread
    obtain ⟨n, houtcome, rfl⟩ := Option.map_eq_some_iff.mp hread
    exact denotes_of_outcome h houtcome

/-- The text writes a number that denotes the double. -/
def FloatText (x : Float) (t : Text) : Prop := ∃ l : NumberLiteral, l.WrittenAs t ∧ l.Denotes x

theorem readFloat_eq_map : readFloat = readAnyNumber.map JsonNumber.double := by
  rw [readFloat]
  congr 1

theorem FloatText.readFloat (h : FloatText x t) : readFloat.ReadsBack t x := by
  obtain ⟨l, hl, hdenotes⟩ := h
  obtain ⟨n, houtcome, rfl⟩ := Option.map_eq_some_iff.mp (hdenotes.outcome hl)
  have starts := startsNumber_of_mem_jsonNumber (mem_jsonNumber.mpr ⟨l, hl⟩)
  have settled := hl.settles
  rw [houtcome] at settled
  rw [readFloat_eq_map]
  exact (readsBack_of_readNumber starts settled).map _

/-- Every number denotes a double, unless it is too large for one: then it is refused wherever it
stands. -/
theorem floatText_or_refused (h : t ∈ jsonNumber.matches') :
    (∃ x, FloatText x t) ∨ ∀ gap rest, IsSpaces gap → EndsNumber rest →
      Json.readFloat (gap ++ t ++ rest) = .error .malformed := by
  have starts := startsNumber_of_mem_jsonNumber h
  obtain ⟨l, hl⟩ := mem_jsonNumber.mp h
  have settled := hl.settles
  cases houtcome : l.outcome with
  | some n => exact Or.inl ⟨n.double, l, hl, NumberLiteral.denotes_of_outcome hl houtcome⟩
  | none =>
      refine Or.inr ?_
      intro gap rest hgap hrest
      rw [Json.readFloat, Decoder.map, readAnyNumber_append starts hgap, settled rest hrest,
        houtcome]

end Json

end NumeralLint
