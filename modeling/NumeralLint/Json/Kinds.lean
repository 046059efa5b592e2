/-
Reading values of a wanted kind: truth values, numbers, texts, characters and
lists.

A value of another kind is a fault of its own, unless it is already wrong as
JSON: of two faults the one further left counts.
-/
import NumeralLint.Json.Number

namespace NumeralLint

namespace Json

open Decoder

/-- The fault at a value that is read but not wanted. -/
def unwanted {α : Type} : Except JsonFault α → JsonFault
  | .error fault => fault
  | .ok _ => .unfit

/-- The fault at a text that starts with no value of the wanted kind.  What is inside an array or
an object does not matter. -/
def misfit : Text → JsonFault
  | [] => .cutOff
  | c :: t =>
      if c = 'n' then unwanted (readWord "ull".toList t)
      else if c = 't' then unwanted (readWord "rue".toList t)
      else if c = 'f' then unwanted (readWord "alse".toList t)
      else if c = '"' then unwanted (readString t)
      else if c = '-' ∨ c.isDigit then unwanted (readNumber (c :: t))
      else if c = '[' ∨ c = '{' then .unfit
      else .malformed

/-! ## Single values -/

def readBool : Decoder Bool := fun t =>
  match skipSpace t with
  | 't' :: u => Decoder.map (fun _ => true) (readWord "rue".toList) u
  | 'f' :: u => Decoder.map (fun _ => false) (readWord "alse".toList) u
  | u => .error (misfit u)

/-- Reads a number of either sort. -/
def readAnyNumber : Decoder JsonNumber := fun t =>
  match skipSpace t with
  | [] => .error .cutOff
  | c :: u => if c = '-' ∨ c.isDigit then readNumber (c :: u) else .error (misfit (c :: u))

def readText : Decoder Text := fun t =>
  match skipSpace t with
  | '"' :: u => readString u
  | u => .error (misfit u)

/-- Reads an integer that fits into 64 bits with its sign. -/
def readInt : Decoder Int :=
  readAnyNumber.accept fun
    | .whole v => if v < 0x8000000000000000 then some v else none
    | .real _ => none

/-- Reads an integer from zero on that fits into 64 bits. -/
def readNat : Decoder Nat :=
  readAnyNumber.accept fun
    | .whole v => if 0 ≤ v then some v.toNat else none
    | .real _ => none

def readFloat : Decoder Float :=
  readAnyNumber.map fun
    | .whole v => if v < 0 then -v.natAbs.toFloat else v.natAbs.toFloat
    | .real f => f

def readChar : Decoder Char :=
  readText.accept fun
    | [c] => some c
    | _ => none

/-! ## Lists -/

/-- Reads the rest of a list, after the items `done`, last first. -/
def readMoreItems {α : Type} (item : Decoder α) (h : Shrinks item) (done : List α) :
    Decoder (List α) := fun t =>
  match _hs : skipSpace t with
  | [] => .error .cutOff
  | c :: u =>
      if c = ']' then .ok (done.reverse, u)
      else if c = ',' then
        match _hi : item u with
        | .error fault => .error fault
        | .ok (v, rest) => readMoreItems item h (v :: done) rest
      else .error .malformed
termination_by t => t.length
decreasing_by exact Nat.lt_of_le_of_lt (h _hi) (length_lt_of_skipSpace _hs)

/-- Reads a list, after its opening bracket. -/
def readItems {α : Type} (item : Decoder α) (h : Shrinks item) : Decoder (List α) := fun t =>
  match skipSpace t with
  | [] => .error .cutOff
  | c :: u =>
      if c = ']' then .ok ([], u)
      else
        match item (c :: u) with
        | .error fault => .error fault
        | .ok (v, rest) => readMoreItems item h [v] rest

def readList {α : Type} (item : Decoder α) (h : Shrinks item) : Decoder (List α) := fun t =>
  match skipSpace t with
  | '[' :: u => readItems item h u
  | u => .error (misfit u)

/-! ## What is left is never longer -/

theorem shrinks_readBool : Shrinks readBool := by
  intro t v rest h
  simp only [readBool] at h
  split at h
  · rename_i u hu
    exact Nat.le_trans (shrinks_map (shrinks_readWord _) h) (Nat.le_of_lt (length_lt_of_skipSpace hu))
  · rename_i u hu
    exact Nat.le_trans (shrinks_map (shrinks_readWord _) h) (Nat.le_of_lt (length_lt_of_skipSpace hu))
  · cases h

theorem shrinks_readAnyNumber : Shrinks readAnyNumber := by
  intro t v rest h
  simp only [readAnyNumber] at h
  split at h
  · cases h
  · rename_i c u hu
    split at h
    · exact Nat.le_trans (shrinks_readNumber h) (length_lt_of_skipSpace hu)
    · cases h

theorem shrinks_readText : Shrinks readText := by
  intro t v rest h
  simp only [readText] at h
  split at h
  · rename_i u hu
    exact Nat.le_trans (shrinks_readString h) (Nat.le_of_lt (length_lt_of_skipSpace hu))
  · cases h

theorem shrinks_readInt : Shrinks readInt := shrinks_accept shrinks_readAnyNumber

theorem shrinks_readNat : Shrinks readNat := shrinks_accept shrinks_readAnyNumber

theorem shrinks_readFloat : Shrinks readFloat := shrinks_map shrinks_readAnyNumber

theorem shrinks_readChar : Shrinks readChar := shrinks_accept shrinks_readText

theorem shrinks_readMoreItems {α : Type} {item : Decoder α} (hitem : Shrinks item)
    (done : List α) : Shrinks (readMoreItems item hitem done) := by
  intro t v rest h
  fun_induction readMoreItems item hitem done t with
  | case1 | case3 | case5 => cases h
  | case2 _ _ _ hs => cases h; exact Nat.le_of_lt (length_lt_of_skipSpace hs)
  | case4 _ _ _ _ _ hi hs _ ih =>
      exact Nat.le_trans (ih h)
        (Nat.le_trans (hitem hi) (Nat.le_of_lt (length_lt_of_skipSpace hs)))

theorem shrinks_readList {α : Type} {item : Decoder α} (hitem : Shrinks item) :
    Shrinks (readList item hitem) := by
  intro t v rest h
  simp only [readList] at h
  split at h
  · rename_i u hu
    refine Nat.le_trans ?_ (Nat.le_of_lt (length_lt_of_skipSpace hu))
    simp only [readItems] at h
    split at h
    · cases h
    · rename_i c w hw
      have := length_lt_of_skipSpace hw
      split at h
      · cases h
        omega
      · split at h
        · cases h
        · rename_i hi
          exact Nat.le_trans (shrinks_readMoreItems hitem _ h) (Nat.le_trans (hitem hi) this)
  · cases h

end Json

end NumeralLint
