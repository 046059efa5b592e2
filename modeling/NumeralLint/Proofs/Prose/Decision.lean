/-
The decision on a sentence is exact.

The rule compares the integers that numerals write with its limit, but reads
them as integers of 64 bits, digit by digit, and a numeral whose integer does
not fit has no value.  Reading multiplies and adds away from zero, so a step
that does not fit is never made good by a later one, and the reading fails
just where the whole integer does not fit (`readDigits?_eq`).  An integer that
does not fit is out of range of every limit that does, so it makes no
difference to the decision (`isSmallBy_value?`), however many digits there are.

The decision itself is taken in one pass that remembers the first numeral and
gives up at the first one that is not small (`inspect`); it is the decision
that looks at all numerals and then at the first (`offending?_eq_inspect`).
-/
import NumeralLint.Proofs.Prose.Reports

namespace NumeralLint

namespace Text

/-! ## Integers of 64 bits, digit by digit -/

/-- The integer, if it fits into 64 bits with its sign. -/
def fit64? (v : Int) : Option Int :=
  if -0x8000000000000000 ≤ v ∧ v < 0x8000000000000000 then some v else none

/-- Writes one more digit after a number, away from zero; every step has to fit. -/
def appendDigit? (sign v : Int) (c : Char) : Option Int :=
  if c.isDigit then
    (fit64? (v * 10)).bind fun tens => fit64? (tens + sign * (c.toNat - '0'.toNat : Nat))
  else none

/-- Reads digits of a number with the given sign. -/
def readDigits? (sign : Int) (digits : Text) : Option Int :=
  if digits.isEmpty then none else digits.foldlM (appendDigit? sign) 0

/-- Reads an integer of 64 bits: a sign or none, and digits. -/
def readInt64? : Text → Option Int
  | '-' :: digits => readDigits? (-1) digits
  | '+' :: digits => readDigits? 1 digits
  | digits => readDigits? 1 digits

theorem le_ofDigitChars (digits : Text) (n : Nat) : n ≤ Nat.ofDigitChars 10 digits n := by
  induction digits generalizing n with
  | nil => exact Nat.le_refl n
  | cons c digits ih =>
      rw [Nat.ofDigitChars_cons]
      have := ih (10 * n + (c.toNat - '0'.toNat))
      omega

variable {sign : Int}

/-- What does not fit is not made to fit away from zero. -/
theorem fit64?_eq_none_of_le (hsign : sign = 1 ∨ sign = -1) {m n : Nat} (hle : m ≤ n)
    (h : fit64? (sign * m) = none) : fit64? (sign * n) = none := by
  simp only [fit64?, ite_eq_right_iff, reduceCtorEq, imp_false] at h ⊢
  rcases hsign with rfl | rfl <;> omega

theorem fit64?_eq_some {v w : Int} (h : fit64? v = some w) : w = v := by
  rw [fit64?] at h
  split at h
  · exact (Option.some.inj h).symm
  · exact absurd h (by simp)

theorem appendDigit?_eq (hsign : sign = 1 ∨ sign = -1) {c : Char} (hc : c.isDigit = true)
    (n : Nat) :
    appendDigit? sign (sign * n) c = fit64? (sign * (10 * n + (c.toNat - '0'.toNat) : Nat)) := by
  have tens : sign * n * 10 = sign * (10 * n : Nat) := by
    rw [Int.mul_assoc, Int.mul_comm (n : Int), Int.natCast_mul]
    rfl
  have sum : sign * (10 * n : Nat) + sign * (c.toNat - '0'.toNat : Nat) =
      sign * (10 * n + (c.toNat - '0'.toNat) : Nat) := by
    rw [← Int.mul_add, ← Int.natCast_add]
  rw [appendDigit?, if_pos hc, tens]
  cases hfit : fit64? (sign * (10 * n : Nat)) with
  | none => exact (fit64?_eq_none_of_le hsign (Nat.le_add_right _ _) hfit).symm
  | some v =>
      obtain rfl := fit64?_eq_some hfit
      rw [Option.bind_some, sum]

/-- Reading more digits fails just where the whole number does not fit. -/
theorem foldlM_appendDigit? (hsign : sign = 1 ∨ sign = -1) {digits : Text}
    (hdigits : ∀ d ∈ digits, d.isDigit = true) (n : Nat) (hfit : fit64? (sign * n) ≠ none) :
    digits.foldlM (appendDigit? sign) (sign * n) =
      fit64? (sign * (Nat.ofDigitChars 10 digits n : Nat)) := by
  induction digits generalizing n with
  | nil =>
      obtain ⟨v, hv⟩ := Option.ne_none_iff_exists'.mp hfit
      obtain rfl := fit64?_eq_some hv
      exact hv.symm
  | cons c digits ih =>
      obtain ⟨hc, hmore⟩ := List.forall_mem_cons.mp hdigits
      rw [List.foldlM_cons, appendDigit?_eq hsign hc, Nat.ofDigitChars_cons]
      cases hnext : fit64? (sign * (10 * n + (c.toNat - '0'.toNat) : Nat)) with
      | none => exact (fit64?_eq_none_of_le hsign (le_ofDigitChars digits _) hnext).symm
      | some v =>
          obtain rfl := fit64?_eq_some hnext
          refine ih hmore _ ?_
          rw [hnext]
          exact Option.some_ne_none _

theorem readDigits?_eq (hsign : sign = 1 ∨ sign = -1) {digits : Text} (hne : digits ≠ [])
    (hdigits : ∀ d ∈ digits, d.isDigit = true) :
    readDigits? sign digits = fit64? (sign * (digitsValue digits : Nat)) := by
  have zero : fit64? (sign * (0 : Nat)) ≠ none := by
    rw [Int.natCast_zero, Int.mul_zero]
    decide
  have read := foldlM_appendDigit? hsign hdigits 0 zero
  rw [Int.natCast_zero, Int.mul_zero] at read
  rw [readDigits?, if_neg (by simpa using hne), read]
  rfl

end Text

theorem WritesInteger.readInt64?_eq {t : Text} {v : Int} (h : WritesInteger t v) :
    Text.readInt64? t = Text.fit64? v := by
  cases h with
  | plain hne hdigits =>
      have positive : (1 : Int) = 1 ∨ (1 : Int) = -1 := Or.inl rfl
      have read := Text.readDigits?_eq positive hne hdigits
      rw [Int.one_mul] at read
      rw [← read, Text.readInt64?]
      · rintro digits rfl
        exact absurd (hdigits _ List.mem_cons_self) (by decide)
      · rintro digits rfl
        exact absurd (hdigits _ List.mem_cons_self) (by decide)
  | minus hne hdigits =>
      have negative : (-1 : Int) = 1 ∨ (-1 : Int) = -1 := Or.inr rfl
      have read := Text.readDigits?_eq negative hne hdigits
      rw [Int.neg_one_mul] at read
      rw [← read, Text.readInt64?]

namespace WritesInteger

variable {t : Text} {v : Int}

theorem point_not_mem (h : WritesInteger t v) : '.' ∉ t := by
  have absent : ∀ {digits : Text}, (∀ d ∈ digits, d.isDigit = true) → '.' ∉ digits :=
    fun hdigits hmem => absurd (hdigits _ hmem) (by decide)
  cases h with
  | plain _ hdigits => exact absent hdigits
  | minus _ hdigits =>
      intro hmem
      rcases List.mem_cons.mp hmem with hminus | hmem
      · exact absurd hminus (by decide)
      · exact absent hdigits hmem

theorem signedValue_eq (h : WritesInteger t v) : Numeral.signedValue t = v := by
  cases h with
  | minus => rfl
  | plain hne hdigits =>
      rw [Numeral.signedValue]
      rintro digits rfl
      exact absurd (hdigits _ List.mem_cons_self) (by decide)

theorem integer?_eq {n : Numeral} (h : WritesInteger n.text v) : n.integer? = some v := by
  have noPoint : n.isDecimal = false := by
    rw [Numeral.isDecimal]
    simpa using h.point_not_mem
  rw [Numeral.integer?, noPoint, h.signedValue_eq]
  rfl

end WritesInteger

namespace Numeral

/-- The integer of a numeral, read digit by digit as one of 64 bits. -/
def readValue? (n : Numeral) : Option Int :=
  if n.isDecimal then none else Text.readInt64? n.text

theorem writesInteger_of_mem {t : Text} {n : Numeral} {v : Int} (hn : n ∈ t.numerals)
    (h : n.integer? = some v) : WritesInteger n.text v := by
  obtain ⟨before, after, -, -, hne, hlit⟩ := NumeralScan.mem_numerals hn
  rw [integer?] at h
  split at h
  · exact absurd h (by simp)
  · next hpoint =>
      have noPoint : '.' ∉ n.text := mt List.contains_iff_mem.mpr hpoint
      exact Option.some.inj h ▸ writesInteger_of_literalAt hlit hne noPoint

theorem readValue?_eq {t : Text} {n : Numeral} (hn : n ∈ t.numerals) :
    n.readValue? = n.value? := by
  cases hint : n.integer? with
  | none =>
      have decimal : n.isDecimal = true := by simpa [integer?] using hint
      rw [readValue?, if_pos decimal, value?, hint]
      rfl
  | some v =>
      have writes := writesInteger_of_mem hn hint
      have noPoint : n.isDecimal = false := by
        rw [isDecimal]
        simpa using writes.point_not_mem
      rw [readValue?, noPoint, value?, hint, if_neg Bool.false_ne_true, writes.readInt64?_eq,
        Text.fit64?, Option.filter_some]
      simp only [decide_eq_true_eq]

end Numeral

/-! ## One pass over the numerals of a sentence -/

namespace SmallIntegers

/-- Whether the value of a numeral, however it is read, is an integer from zero to the limit. -/
def isSmallBy (value : Numeral → Option Int) (limit : Int) (n : Numeral) : Bool :=
  (value n).any fun v => decide (0 ≤ v ∧ v ≤ limit)

/-- Goes through numerals with the first one remembered, and gives up at the first one whose value
is not an integer from zero to the limit. -/
def inspect (value : Numeral → Option Int) (limit : Int) (first : Option Numeral) :
    List Numeral → Option Numeral
  | [] => first
  | n :: ns =>
      match value n with
      | none => none
      | some v =>
          if 0 ≤ v ∧ v ≤ limit then inspect value limit (first.or (some n)) ns else none

variable {value value' : Numeral → Option Int} {limit : Int}

theorem isSmallBy_of_eq_some {n : Numeral} {v : Int} (h : value n = some v) :
    isSmallBy value limit n = decide (0 ≤ v ∧ v ≤ limit) := by
  rw [isSmallBy, h]
  rfl

theorem inspect_eq (first : Option Numeral) (ns : List Numeral) :
    inspect value limit first ns =
      if ns.all (isSmallBy value limit) then first.or ns.head? else none := by
  induction ns generalizing first with
  | nil => simp [inspect]
  | cons n ns ih =>
      rw [inspect, List.all_cons, List.head?_cons]
      cases hv : value n with
      | none => simp [isSmallBy, hv]
      | some v =>
          by_cases hsmall : 0 ≤ v ∧ v ≤ limit
          · have remembered : (first.or (some n)).or ns.head? = first.or (some n) := by
              cases first <;> rfl
            rw [isSmallBy_of_eq_some hv, decide_eq_true hsmall, Bool.true_and]
            exact (if_pos hsmall).trans (by rw [ih, remembered])
          · rw [isSmallBy_of_eq_some hv, decide_eq_false hsmall]
            exact if_neg hsmall

/-- Where two ways of reading values agree on which numerals are small, the pass takes the same
decision. -/
theorem inspect_congr {ns : List Numeral}
    (h : ∀ n ∈ ns, isSmallBy value limit n = isSmallBy value' limit n) (first : Option Numeral) :
    inspect value limit first ns = inspect value' limit first ns := by
  have same : ns.all (isSmallBy value limit) = ns.all (isSmallBy value' limit) := by
    rw [Bool.eq_iff_iff, List.all_eq_true, List.all_eq_true]
    exact forall₂_congr fun n hn => by rw [h n hn]
  rw [inspect_eq, inspect_eq, same]

theorem isSmallBy_value? (hlimit : limit < 0x8000000000000000) (n : Numeral) :
    isSmallBy Numeral.value? limit n = isSmallBy Numeral.integer? limit n := by
  cases hint : n.integer? with
  | none => simp [isSmallBy, Numeral.value?, hint]
  | some v =>
      rw [isSmallBy_of_eq_some hint, isSmallBy, Numeral.value?, hint, Option.filter_some]
      split
      · rfl
      · next hfit =>
          refine (decide_eq_false ?_).symm
          intro hsmall
          exact hfit (decide_eq_true (by omega))

variable (rule : SmallIntegers)

theorem offending?_eq_inspect (sentence : Text) :
    rule.offending? sentence =
      inspect Numeral.readValue? rule.limit none sentence.numerals := by
  have read : inspect Numeral.readValue? rule.limit none sentence.numerals =
      inspect Numeral.value? rule.limit none sentence.numerals := by
    refine inspect_congr (fun n hn => ?_) none
    rw [isSmallBy, Numeral.readValue?_eq hn]
    rfl
  rw [read, inspect_eq]
  rfl

theorem isSmall_iff_asksFor (hlimit : rule.limit < 0x8000000000000000) {sentence : Text}
    {n : Numeral} (hn : n ∈ sentence.numerals) :
    rule.isSmall n = true ↔ rule.AsksFor n.text := by
  constructor
  · intro h
    obtain ⟨before, after, -, -, hne, hlit⟩ := NumeralScan.mem_numerals hn
    exact rule.asksFor_of_isSmall h hlit hne
  · rintro ⟨v, hv, hsmall⟩
    have same : rule.isSmall n = isSmallBy Numeral.integer? rule.limit n :=
      isSmallBy_value? hlimit n
    rw [same, isSmallBy_of_eq_some hv.integer?_eq]
    exact decide_eq_true hsmall

/-- The decision on a sentence, for every limit of 64 bits: one pass over the numerals that reads
them as integers of 64 bits takes it, and takes it as if it read them without bound; and a sentence
is reported, at its first numeral, exactly if it has numerals and every one of them writes an
integer, without a point, from zero to the limit. -/
theorem offending?_exact (limit : Int64) (sentences : Text → List Text) (sentence : Text) :
    let rule : SmallIntegers := ⟨limit.toInt, sentences⟩
    rule.offending? sentence =
        inspect Numeral.readValue? limit.toInt none sentence.numerals ∧
      rule.offending? sentence = inspect Numeral.integer? limit.toInt none sentence.numerals ∧
      ∀ n, rule.offending? sentence = some n ↔ sentence.numerals.head? = some n ∧
        ∀ m ∈ sentence.numerals, rule.AsksFor m.text := by
  intro rule
  have hlimit : rule.limit < 0x8000000000000000 := limit.toInt_lt
  have taken := rule.offending?_eq_inspect sentence
  refine ⟨taken, ?_, ?_⟩
  · rw [taken]
    refine inspect_congr (fun n hn => ?_) none
    rw [isSmallBy, Numeral.readValue?_eq hn]
    exact isSmallBy_value? hlimit n
  · intro n
    have small : sentence.numerals.all rule.isSmall = true ↔
        ∀ m ∈ sentence.numerals, rule.AsksFor m.text := by
      rw [List.all_eq_true]
      exact forall₂_congr fun m hm => rule.isSmall_iff_asksFor hlimit hm
    rw [offending?]
    split
    · next hall => exact ⟨fun h => ⟨h, small.mp hall⟩, fun h => h.1⟩
    · next hall => exact ⟨fun h => absurd h (by simp), fun h => absurd (small.mpr h.2) hall⟩

end SmallIntegers

end NumeralLint
