/-
Doubles as JSON numbers.

A double is written as a JSON number unless it is infinite or no number at all
(`DecimalStyle.float_mem_jsonNumber`).  Wherever the point stands, there are
digits on either side of it, and with an exponent there is one digit before
it.  What JSON forbids is a zero in front of other digits.  A positive double
has digits of which the first is not zero, because zero is not read as that
double, whatever the power of ten (`Binary.covers_zero`).
-/
import NumeralLint.Decimal.Notation
import NumeralLint.Proofs.Json.Numbers

namespace NumeralLint

namespace Binary

variable {b : Binary} {tie : Tie} {u : Int} {n : Nat}

theorem covers_zero (hb : 0 < b.mantissa) : b.covers u 0 = false := by
  have unit : 0 < b.binaryUnit u := Nat.mul_pos (Nat.pow_pos (by decide)) (Nat.pow_pos (by decide))
  have low : 0 < (4 * b.mantissa - if b.narrowBelow then 1 else 2) * b.binaryUnit u := by
    refine Nat.mul_pos ?_ unit
    split <;> omega
  have high : 0 < (4 * b.mantissa + 2) * b.binaryUnit u := Nat.mul_pos (by omega) unit
  simp [covers, low.ne, high.ne]

/-- Whichever multiple is taken, it is read as the double. -/
theorem covers_of_multiple? (h : b.multiple? tie u = some n) : b.covers u n = true := by
  have either : ∀ nearer farther : Nat,
      (if b.covers u nearer then some nearer else if b.covers u farther then some farther
        else none) = some n → b.covers u n = true := by
    intro nearer farther htaken
    by_cases hnearer : b.covers u nearer = true
    · rw [if_pos hnearer] at htaken
      exact Option.some.inj htaken ▸ hnearer
    · rw [if_neg hnearer, Option.ite_none_right_eq_some] at htaken
      exact Option.some.inj htaken.2 ▸ htaken.1
  exact either _ _ h

theorem pos_of_multiple? (hb : 0 < b.mantissa) (h : b.multiple? tie u = some n) : 0 < n := by
  refine Nat.pos_of_ne_zero ?_
  rintro rfl
  have covered := covers_of_multiple? h
  rw [covers_zero hb] at covered
  cases covered

/-- The digits that are found for a positive double are not those of zero. -/
theorem shortest_cases (tie : Tie) (hb : 0 < b.mantissa) :
    0 < (b.shortest tie).digits ∨ b.shortest tie = ⟨0, 0⟩ := by
  rw [shortest]
  cases hfound : (List.range 634).findSome? fun (i : Nat) =>
      (b.multiple? tie (309 - i)).map fun n => Decimal.mk n (309 - i) with
  | none => exact Or.inr rfl
  | some d =>
      obtain ⟨i, -, hi⟩ := List.exists_of_findSome?_eq_some hfound
      obtain ⟨n, hn, rfl⟩ := Option.map_eq_some_iff.mp hi
      exact Or.inl (pos_of_multiple? hb hn)

theorem ofBits_mantissa_pos {bits : Nat} (h : bits ≠ 0) (hbits : bits < 0x8000000000000000) :
    0 < (ofBits bits).mantissa := by
  simp only [ofBits]
  split
  · next hpower =>
      show 0 < bits % 0x10000000000000
      omega
  · show 0 < 0x10000000000000 + bits % 0x10000000000000
    omega

end Binary

namespace Pattern

variable {w v : Text}

theorem append_mem_whole (hw : w ∈ whole.matches') (hne : w ≠ ['0'])
    (hv : ∀ d ∈ v, d.isDigit = true) : w ++ v ∈ whole.matches' := by
  obtain ⟨c, u, rfl, front, hdigits⟩ := (mem_whole.mp hw).resolve_left hne
  refine mem_whole.mpr (Or.inr ⟨c, u ++ v, rfl, front, ?_⟩)
  exact List.forall_mem_append.mpr ⟨hdigits, hv⟩

theorem take_mem_whole (hw : w ∈ whole.matches') {n : Nat} (hn : 0 < n) :
    w.take n ∈ whole.matches' := by
  obtain ⟨n, rfl⟩ := Nat.exists_eq_succ_of_ne_zero hn.ne'
  rcases mem_whole.mp hw with rfl | ⟨c, u, rfl, front, hdigits⟩
  · rw [List.take_succ_cons, List.take_nil]
    exact mem_whole.mpr (Or.inl rfl)
  · refine mem_whole.mpr (Or.inr ⟨c, u.take n, rfl, front, ?_⟩)
    exact fun d hd => hdigits d (@List.mem_of_mem_take _ (n + 1) d (c :: u) hd)

end Pattern

namespace DecimalStyle

open Json Pattern

variable {d : Decimal} {w p t : Text}

theorem point_mem_fraction (hne : p ≠ []) (hp : ∀ c ∈ p, c.isDigit = true) :
    '.' :: p ∈ fraction.matches' := by
  have places := mem_repeated_digit.mpr ⟨hne, hp⟩
  refine mem_fraction.mpr (Or.inr ⟨p, [], places, mem_optional.mpr (Or.inl rfl), ?_⟩)
  rw [List.append_nil]

theorem pointZero_mem_fraction : ['.', '0'] ∈ fraction.matches' :=
  point_mem_fraction (List.cons_ne_nil '0' []) (List.forall_mem_singleton.mpr rfl)

theorem isDigit_of_mem_zeros {n : Nat} : ∀ c ∈ List.replicate n '0', c.isDigit = true := by
  intro c hc
  rw [List.eq_of_mem_replicate hc]
  rfl

/-- Whole numbers may be followed by zeros unless they are zero themselves. -/
theorem positional_mem (hd : 0 < d.digits ∨ d.exponent ≤ 0) :
    json.positional d ∈ (whole * fraction).matches' := by
  have digits := isDigit_of_mem_ofNat d.digits
  have whole := ofNat_mem_whole d.digits
  rw [positional]
  split
  · next hexponent =>
      refine mem_mul.mpr ⟨_, ?_, ['.', '0'], pointZero_mem_fraction, rfl⟩
      rcases hd with hd | hd
      · refine append_mem_whole whole ?_ isDigit_of_mem_zeros
        intro hzero
        exact head?_ofNat_ne_zero hd (by rw [hzero]; rfl)
      · obtain hnone : d.exponent = 0 := by omega
        rw [hnone]
        simpa using whole
  split
  · next hexponent hpoint =>
      refine mem_mul.mpr ⟨_, take_mem_whole whole (by omega), _, point_mem_fraction ?_ ?_, rfl⟩
      · rw [ne_eq, List.drop_eq_nil_iff]
        omega
      · exact fun c hc => digits c (List.mem_of_mem_drop hc)
  · refine mem_mul.mpr ⟨['0'], mem_whole.mpr (Or.inl rfl), _, point_mem_fraction ?_ ?_, rfl⟩
    · exact List.append_ne_nil_of_right_ne_nil _ (ne_nil_of_mem_whole whole)
    · exact List.forall_mem_append.mpr ⟨isDigit_of_mem_zeros, digits⟩

theorem dropSign_ofInt (n : Int) : (Text.ofInt n).dropSign = Text.ofNat n.natAbs := by
  cases n with
  | negSucc n => rfl
  | ofNat n =>
      show (Text.ofNat n).dropSign = Text.ofNat n
      have digits := isDigit_of_mem_ofNat n
      cases hwritten : Text.ofNat n with
      | nil => rfl
      | cons c t =>
          rw [hwritten] at digits
          exact if_neg (not_or.mpr (not_sign_of_isDigit (digits c List.mem_cons_self)))

theorem ofInt_mem_exponent (n : Int) : 'e' :: Text.ofInt n ∈ exponent.matches' := by
  refine mem_exponent.mpr ⟨'e', _, rfl, Or.inl rfl, ?_⟩
  rw [dropSign_ofInt]
  exact ⟨ne_nil_of_mem_whole (ofNat_mem_whole _), isDigit_of_mem_ofNat _⟩

theorem scientific_mem (d : Decimal) : scientific d ∈ (whole * fraction).matches' := by
  have digits := isDigit_of_mem_ofNat d.digits
  have first := take_mem_whole (ofNat_mem_whole d.digits) Nat.one_pos
  have power := mem_optional.mpr
    (Or.inr (ofInt_mem_exponent ((Text.ofNat d.digits).length + d.exponent - 1)))
  rw [scientific]
  rw [List.append_assoc]
  refine mem_mul.mpr ⟨_, first, _, ?_, rfl⟩
  split
  · exact mem_fraction.mpr (Or.inl power)
  · next hplaces =>
      have some : (Text.ofNat d.digits).drop 1 ≠ [] := mt List.isEmpty_iff.mpr hplaces
      have places := mem_repeated_digit.mpr ⟨some, fun c hc => digits c (List.mem_of_mem_drop hc)⟩
      exact mem_fraction.mpr (Or.inr ⟨_, _, places, power, rfl⟩)

theorem magnitude_mem {bits : Nat} (hbits : bits < 0x8000000000000000) :
    json.magnitude bits ∈ (whole * fraction).matches' := by
  rw [magnitude]
  split
  · exact mem_mul.mpr ⟨['0'], mem_whole.mpr (Or.inl rfl), ['.', '0'], pointZero_mem_fraction, rfl⟩
  · next hne =>
      rw [decimal]
      split
      · exact scientific_mem _
      · refine positional_mem ?_
        refine (Binary.shortest_cases _ (Binary.ofBits_mantissa_pos hne hbits)).imp_right ?_
        intro hzero
        rw [hzero]

theorem float_mem_jsonNumber {x : Float} (hnan : x.isNaN = false) (hinf : x.isInf = false) :
    json.float x ∈ jsonNumber.matches' := by
  have body : json.magnitude (x.toBits.toNat % 0x8000000000000000) ∈ (whole * fraction).matches' :=
    magnitude_mem (Nat.mod_lt _ (by decide))
  rw [float, hnan, hinf]
  refine mem_mul.mpr ⟨_, mem_optional.mpr ?_, _, body, rfl⟩
  split
  · exact Or.inl rfl
  · exact Or.inr (mem_char.mpr rfl)

/-- What is written of a double reads back as that double in any surroundings if it does alone. -/
theorem readFloat_float {x : Float} (h : readFloat (json.float x) = .ok (x, [])) :
    readFloat.ReadsBack (json.float x) x := by
  have isNumber : x.isNaN = false := by
    refine Bool.eq_false_iff.mpr fun hnan => ?_
    rw [float, hnan] at h
    cases h
  have isFinite : x.isInf = false := by
    refine Bool.eq_false_iff.mpr fun hinf => ?_
    rw [float, isNumber, hinf] at h
    by_cases hsign : x.toBits.toNat < 0x8000000000000000
    · rw [if_pos hsign] at h
      cases h
    · rw [if_neg hsign] at h
      cases h
  exact readsBack_of_readFloat (float_mem_jsonNumber isNumber isFinite) h

end DecimalStyle

end NumeralLint
