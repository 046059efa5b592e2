/-
Passing over JSON values that are not wanted.

A value is passed over to its end however deeply it is nested: the brackets
that are open are kept in a list.  Passing over is more lenient than reading.
The code units of a string may stand in any order, and a number may be of any
size.
-/
import NumeralLint.Json.Number

namespace NumeralLint

namespace Json

/-! ## Strings and numbers -/

/-- Passes over an escape, after the backslash. -/
def skipEscape : Decoder Unit
  | [] => .error .cutOff
  | c :: t =>
      if c = 'u' then Decoder.map (fun _ => ()) readUnit t
      else if (escapedChar? c).isSome then .ok ((), t)
      else .error .malformed

theorem shrinks_skipEscape : Decoder.Shrinks skipEscape := by
  intro t v rest h
  cases t with
  | nil => cases h
  | cons c t =>
      simp only [skipEscape] at h
      split at h
      · exact Nat.le_succ_of_le (Decoder.shrinks_map shrinks_readUnit h)
      · split at h
        · cases h
          simp
        · cases h

/-- Passes over a string, after its opening quote. -/
def skipString : Decoder Unit
  | [] => .error .cutOff
  | c :: t =>
      if c = '"' then .ok ((), t)
      else if c = '\\' then
        match _h : skipEscape t with
        | .error fault => .error fault
        | .ok (_, rest) => skipString rest
      else if c.toNat < 0x20 then .error .malformed
      else skipString t
termination_by t => t.length
decreasing_by
  · have := shrinks_skipEscape _h
    simp only [List.length_cons]
    omega
  · simp

theorem shrinks_skipString : Decoder.Shrinks skipString := by
  intro t v rest h
  fun_induction skipString t with
  | case1 => cases h
  | case2 => cases h; simp
  | case3 => cases h
  | case4 t u r he _ ih =>
      have := shrinks_skipEscape he
      have := ih h
      simp only [List.length_cons]
      omega
  | case5 => cases h
  | case6 c t _ _ _ ih =>
      have := ih h
      simp only [List.length_cons]
      omega

def skipSomeDigits : Decoder Unit := fun t =>
  if t.head?.any Char.isDigit then .ok ((), skipDigits t) else .error .malformed

def skipExponent : Decoder Unit
  | [] => .ok ((), [])
  | c :: t => if c = 'e' ∨ c = 'E' then skipSomeDigits (Text.dropSign t) else .ok ((), c :: t)

/-- Passes over the decimal places and the exponent of a number, as far as there are any. -/
def skipFraction : Decoder Unit
  | '.' :: t =>
      match skipSomeDigits t with
      | .error fault => .error fault
      | .ok (_, rest) => skipExponent rest
  | t => skipExponent t

/-- Passes over a number, after its sign. -/
def skipUnsigned : Decoder Unit
  | [] => .error .malformed
  | c :: t =>
      if c = '0' then
        if t.head?.any Char.isDigit then .error .malformed else skipFraction t
      else if c.isDigit then skipFraction (skipDigits t)
      else .error .malformed

theorem shrinks_skipSomeDigits : Decoder.Shrinks skipSomeDigits := by
  intro t v rest h
  simp only [skipSomeDigits] at h
  split at h
  · cases h
    exact length_skipDigits_le t
  · cases h

theorem shrinks_skipExponent : Decoder.Shrinks skipExponent := by
  intro t v rest h
  cases t with
  | nil => cases h; exact Nat.le_refl _
  | cons c t =>
      simp only [skipExponent] at h
      split at h
      · exact Nat.le_succ_of_le
          (Nat.le_trans (shrinks_skipSomeDigits h) (Text.length_dropSign_le t))
      · cases h
        exact Nat.le_refl _

theorem shrinks_skipFraction : Decoder.Shrinks skipFraction := by
  intro t v rest h
  unfold skipFraction at h
  split at h
  · split at h
    · cases h
    · rename_i hd
      exact Nat.le_succ_of_le (Nat.le_trans (shrinks_skipExponent h) (shrinks_skipSomeDigits hd))
  · exact shrinks_skipExponent h

theorem shrinks_skipUnsigned : Decoder.Shrinks skipUnsigned := by
  intro t v rest h
  cases t with
  | nil => cases h
  | cons c t =>
      simp only [skipUnsigned] at h
      split at h
      · split at h
        · cases h
        · exact Nat.le_succ_of_le (shrinks_skipFraction h)
      · split at h
        · exact Nat.le_succ_of_le
            (Nat.le_trans (shrinks_skipFraction h) (length_skipDigits_le t))
        · cases h

/-- Passes over a value that is neither an array nor an object. -/
def skipScalar : Decoder Unit
  | [] => .error .cutOff
  | c :: t =>
      if c = 'n' then readWord "ull".toList t
      else if c = 't' then readWord "rue".toList t
      else if c = 'f' then readWord "alse".toList t
      else if c = '"' then skipString t
      else if c = '-' then skipUnsigned t
      else if c.isDigit then skipUnsigned (c :: t)
      else .error .malformed

theorem shrinks_skipScalar : Decoder.Shrinks skipScalar := by
  intro t v rest h
  cases t with
  | nil => cases h
  | cons c t =>
      simp only [skipScalar] at h
      split at h
      · exact Nat.le_succ_of_le (shrinks_readWord _ h)
      split at h
      · exact Nat.le_succ_of_le (shrinks_readWord _ h)
      split at h
      · exact Nat.le_succ_of_le (shrinks_readWord _ h)
      split at h
      · exact Nat.le_succ_of_le (shrinks_skipString h)
      split at h
      · exact Nat.le_succ_of_le (shrinks_skipUnsigned h)
      split at h
      · exact shrinks_skipUnsigned h
      · cases h

/-! ## Nested values -/

inductive Nest where
  | array
  | object
deriving DecidableEq

namespace Nest

def closing : Nest → Char
  | array => ']'
  | object => '}'

end Nest

/-- Passes over the key of a field and its colon. -/
def skipKey : Decoder Unit := fun t =>
  match skipSpace t with
  | [] => .error .cutOff
  | c :: t =>
      if c = '"' then
        match skipString t with
        | .error fault => .error fault
        | .ok (_, rest) =>
            match skipSpace rest with
            | [] => .error .cutOff
            | d :: rest => if d = ':' then .ok ((), rest) else .error .malformed
      else .error .malformed

theorem shrinks_skipKey : Decoder.Shrinks skipKey := by
  intro t v rest h
  have hle := length_skipSpace_le t
  simp only [skipKey] at h
  split at h
  · cases h
  · rename_i c u hu
    rw [hu, List.length_cons] at hle
    split at h
    · split at h
      · cases h
      · rename_i r hs
        have h₁ := shrinks_skipString hs
        have h₂ := length_skipSpace_le r
        split at h
        · cases h
        · rename_i d r' hr
          rw [hr, List.length_cons] at h₂
          split at h
          · cases h
            omega
          · cases h
    · cases h

/-- What is expected next while a value is passed over. -/
inductive Expectation where
  /-- The first item of a value that was just opened, or its end. -/
  | firstItem (nest : Nest)
  /-- The key of a field. -/
  | key
  | value
  /-- What follows a value: a comma or the end of the innermost open value. -/
  | separator

namespace Expectation

/-- The place of the expectation among those that are met without reading on. -/
def rank : Expectation → Nat
  | firstItem _ => 3
  | key => 2
  | value => 1
  | separator => 0

/-- An item of a value. -/
def item : Nest → Expectation
  | .array => value
  | .object => key

theorem rank_item_lt (nest nest' : Nest) : (item nest).rank < (firstItem nest').rank := by
  cases nest <;> simp [item, rank]

end Expectation

/-- Passes over the rest of a value, of which the arrays and objects `outer` are open,
innermost first. -/
def skipRest : Expectation → List Nest → Decoder Unit
  | .firstItem nest, outer, t =>
      match _h : skipSpace t with
      | [] => .error .cutOff
      | c :: u =>
          if c = nest.closing then skipRest .separator outer u
          else skipRest (.item nest) (nest :: outer) (c :: u)
  | .key, outer, t =>
      match _h : skipKey t with
      | .error fault => .error fault
      | .ok (_, rest) => skipRest .value outer rest
  | .value, outer, t =>
      match _h : skipSpace t with
      | [] => .error .cutOff
      | c :: u =>
          if c = '[' then skipRest (.firstItem .array) outer u
          else if c = '{' then skipRest (.firstItem .object) outer u
          else
            match _h' : skipScalar (c :: u) with
            | .error fault => .error fault
            | .ok (_, rest) => skipRest .separator outer rest
  | .separator, [], t => .ok ((), t)
  | .separator, nest :: outer, t =>
      match _h : skipSpace t with
      | [] => .error .cutOff
      | c :: u =>
          if c = ',' then skipRest (.item nest) (nest :: outer) u
          else if c = nest.closing then skipRest .separator outer u
          else .error .malformed
termination_by expected _ t => (t.length, expected.rank)
decreasing_by
  · exact .left _ _ (length_lt_of_skipSpace _h)
  · exact .right' _ (length_lt_of_skipSpace _h) (Expectation.rank_item_lt _ _)
  · exact .right' _ (shrinks_skipKey _h) (by decide)
  · exact .left _ _ (length_lt_of_skipSpace _h)
  · exact .left _ _ (length_lt_of_skipSpace _h)
  · exact .right' _ (Nat.le_trans (shrinks_skipScalar _h') (length_lt_of_skipSpace _h))
      (by decide)
  · exact .left _ _ (length_lt_of_skipSpace _h)
  · exact .left _ _ (length_lt_of_skipSpace _h)

def skipValue : Decoder Unit := skipRest .value []

theorem shrinks_skipRest (expected : Expectation) (outer : List Nest) :
    Decoder.Shrinks (skipRest expected outer) := by
  intro t v rest h
  fun_induction skipRest expected outer t with
  | case1 | case4 | case6 | case9 | case12 | case15 => cases h
  | case2 _ _ _ _ hs ih => exact Nat.le_of_lt (Nat.lt_of_le_of_lt (ih h) (length_lt_of_skipSpace hs))
  | case3 _ _ _ _ _ hs _ ih => exact Nat.le_trans (ih h) (length_lt_of_skipSpace hs)
  | case5 _ _ _ _ hk ih => exact Nat.le_trans (ih h) (shrinks_skipKey hk)
  | case7 _ _ _ hs ih => exact Nat.le_of_lt (Nat.lt_of_le_of_lt (ih h) (length_lt_of_skipSpace hs))
  | case8 _ _ _ hs _ ih =>
      exact Nat.le_of_lt (Nat.lt_of_le_of_lt (ih h) (length_lt_of_skipSpace hs))
  | case10 _ _ _ _ hs _ _ _ _ hv ih =>
      exact Nat.le_trans (ih h)
        (Nat.le_trans (shrinks_skipScalar hv) (length_lt_of_skipSpace hs))
  | case11 => cases h; exact Nat.le_refl _
  | case13 _ _ _ _ hs ih =>
      exact Nat.le_of_lt (Nat.lt_of_le_of_lt (ih h) (length_lt_of_skipSpace hs))
  | case14 _ _ _ _ hs _ ih =>
      exact Nat.le_of_lt (Nat.lt_of_le_of_lt (ih h) (length_lt_of_skipSpace hs))

theorem shrinks_skipValue : Decoder.Shrinks skipValue := shrinks_skipRest _ _

end Json

end NumeralLint
