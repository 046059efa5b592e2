/-
Regular expressions for numbers.

The expressions are those of Mathlib.  They are written down as they are
usually written, and each part comes with a lemma that says which texts match
it.
-/
import Mathlib.Computability.RegularExpressions
import Mathlib.Tactic.IntervalCases
import NumeralLint.Text.Digits

namespace NumeralLint

namespace Pattern

open RegularExpression

/-! ## Expressions -/

/-- `[cs]` -/
def oneOf (cs : Text) : RegularExpression Char := (cs.map char).sum

/-- `p?` -/
def optional (p : RegularExpression Char) : RegularExpression Char := 1 + p

/-- `p+` -/
def repeated (p : RegularExpression Char) : RegularExpression Char := p * star p

/-- `[0-9]` -/
def digit : RegularExpression Char := oneOf "0123456789".toList

/-- `[+-]?` -/
def sign : RegularExpression Char := optional (oneOf ['+', '-'])

/-- `[eE][+-]?[0-9]+` -/
def exponent : RegularExpression Char := oneOf ['e', 'E'] * (sign * repeated digit)

/-! ## What they match -/

variable {p q : RegularExpression Char} {cs t : Text}

theorem mem_add : t ∈ (p + q).matches' ↔ t ∈ p.matches' ∨ t ∈ q.matches' := by
  rw [matches'_add]
  exact Language.mem_add _ _ _

theorem mem_mul : t ∈ (p * q).matches' ↔ ∃ u ∈ p.matches', ∃ v ∈ q.matches', u ++ v = t := by
  rw [matches'_mul]
  exact Language.mem_mul

theorem mem_char {c : Char} : t ∈ (char c).matches' ↔ t = [c] := by
  rw [matches'_char]
  exact Set.mem_singleton_iff

theorem mem_oneOf : t ∈ (oneOf cs).matches' ↔ ∃ c ∈ cs, t = [c] := by
  induction cs with
  | nil => simp [oneOf]
  | cons c cs ih =>
      rw [oneOf] at ih
      rw [oneOf, List.map_cons, List.sum_cons, mem_add, mem_char, ih]
      exact (List.exists_mem_cons_iff (fun d => t = [d]) c cs).symm

theorem mem_optional : t ∈ (optional p).matches' ↔ t = [] ∨ t ∈ p.matches' := by
  rw [optional, mem_add, matches'_epsilon, Language.mem_one]

theorem mem_sign : t ∈ sign.matches' ↔ t = [] ∨ t = ['+'] ∨ t = ['-'] := by
  rw [sign, mem_optional, mem_oneOf]
  simp

theorem isDigit_iff {c : Char} : c.isDigit = true ↔ c ∈ "0123456789".toList := by
  constructor
  · intro h
    rw [Char.isDigit_iff_toNat] at h
    rw [← Char.ofNat_toNat c]
    obtain ⟨low, high⟩ := h
    generalize c.toNat = n at low high
    change 48 ≤ n at low
    change n ≤ 57 at high
    interval_cases n <;> decide
  · intro h
    have all : ∀ d ∈ "0123456789".toList, d.isDigit = true := List.all_eq_true.mp rfl
    exact all c h

theorem mem_star_digit : t ∈ (star digit).matches' ↔ ∀ c ∈ t, c.isDigit = true := by
  rw [matches'_star, Language.mem_kstar]
  constructor
  · rintro ⟨parts, rfl, hparts⟩ c hc
    obtain ⟨part, hpart, hc⟩ := List.mem_flatten.mp hc
    obtain ⟨d, hd, rfl⟩ := mem_oneOf.mp (hparts part hpart)
    obtain rfl := List.mem_singleton.mp hc
    exact isDigit_iff.mpr hd
  · intro h
    refine ⟨t.map ([·]), ?_, ?_⟩
    · rw [← List.flatMap_def, List.flatMap_singleton']
    · intro part hpart
      obtain ⟨c, hc, rfl⟩ := List.mem_map.mp hpart
      exact mem_oneOf.mpr ⟨c, isDigit_iff.mp (h c hc), rfl⟩

theorem mem_repeated_digit :
    t ∈ (repeated digit).matches' ↔ t ≠ [] ∧ ∀ c ∈ t, c.isDigit = true := by
  rw [repeated, mem_mul]
  constructor
  · rintro ⟨u, hu, v, hv, rfl⟩
    obtain ⟨c, hc, rfl⟩ := mem_oneOf.mp hu
    refine ⟨List.cons_ne_nil c v, List.forall_mem_cons.mpr ⟨isDigit_iff.mpr hc, ?_⟩⟩
    exact mem_star_digit.mp hv
  · rintro ⟨hne, hdigits⟩
    obtain ⟨c, u, rfl⟩ := List.exists_cons_of_ne_nil hne
    obtain ⟨hc, hu⟩ := List.forall_mem_cons.mp hdigits
    exact ⟨[c], mem_oneOf.mpr ⟨c, isDigit_iff.mp hc, rfl⟩, u, mem_star_digit.mpr hu, rfl⟩

/-! ## Signs and exponents -/

/-- A sign is read off what does not start with one itself. -/
theorem mem_sign_mul (hp : ∀ u ∈ p.matches', ∀ c ∈ u.head?, c ≠ '+' ∧ c ≠ '-') :
    t ∈ (sign * p).matches' ↔ t.dropSign ∈ p.matches' := by
  rw [mem_mul]
  constructor
  · rintro ⟨s, hs, u, hu, rfl⟩
    rcases mem_sign.mp hs with rfl | rfl | rfl
    · cases u with
      | nil => exact hu
      | cons c u =>
          have unsigned := hp _ hu c rfl
          have same : Text.dropSign (c :: u) = c :: u := if_neg (not_or.mpr unsigned)
          rw [List.nil_append, same]
          exact hu
    · exact hu
    · exact hu
  · intro h
    cases t with
    | nil => exact ⟨[], mem_sign.mpr (Or.inl rfl), [], h, rfl⟩
    | cons c u =>
        rw [Text.dropSign] at h
        split at h
        · next hsign =>
            refine ⟨[c], mem_sign.mpr (Or.inr ?_), u, h, rfl⟩
            rcases hsign with rfl | rfl
            · exact Or.inl rfl
            · exact Or.inr rfl
        · exact ⟨[], mem_sign.mpr (Or.inl rfl), c :: u, h, rfl⟩

theorem not_sign_of_isDigit {c : Char} (h : c.isDigit = true) : c ≠ '+' ∧ c ≠ '-' := by
  constructor <;> rintro rfl <;> exact absurd h (by decide)

theorem mem_exponent : t ∈ exponent.matches' ↔
    ∃ (c : Char) (u : Text), t = c :: u ∧ (c = 'e' ∨ c = 'E') ∧ u.dropSign ≠ [] ∧
      ∀ d ∈ u.dropSign, d.isDigit = true := by
  have digits : ∀ u ∈ (repeated digit).matches', ∀ c ∈ u.head?, c ≠ '+' ∧ c ≠ '-' := by
    intro u hu c hc
    exact not_sign_of_isDigit ((mem_repeated_digit.mp hu).2 c (List.mem_of_mem_head? hc))
  rw [exponent, mem_mul]
  constructor
  · rintro ⟨s, hs, u, hu, rfl⟩
    obtain ⟨c, hc, rfl⟩ := mem_oneOf.mp hs
    refine ⟨c, u, rfl, by simpa using hc, ?_⟩
    exact mem_repeated_digit.mp ((mem_sign_mul digits).mp hu)
  · rintro ⟨c, u, rfl, hc, hu⟩
    refine ⟨[c], mem_oneOf.mpr ⟨c, by simpa using hc, rfl⟩, u, ?_, rfl⟩
    exact (mem_sign_mul digits).mpr (mem_repeated_digit.mpr hu)

end Pattern

end NumeralLint
