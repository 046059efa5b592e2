/-
Reading records: values with fields that have names.

A record is written as an object, with its fields in any order and with other
fields that are passed over, or as an array of its fields in their order.
Fields may be left out of a record that is not required to be complete; in an
array only the last ones can be.
-/
import NumeralLint.Json.Kinds
import NumeralLint.Json.Skip

namespace NumeralLint

/-- A field of the records `σ`: its name, and how it is read into a record. -/
structure Field (σ : Type) where
  name : Text
  read : σ → Decoder σ
  shrinks : ∀ s, Decoder.Shrinks (read s)

namespace Field

/-- The field that a decoder reads and `set` puts into a record. -/
def ofDecoder {σ α : Type} (name : Text) (d : Decoder α) (h : d.Shrinks) (set : σ → α → σ) :
    Field σ where
  name := name
  read := fun s => d.map (set s)
  shrinks := fun _ => Decoder.shrinks_map h

end Field

/-- The form of the records `σ`. -/
structure RecordForm (σ : Type) where
  /-- The fields, in their order. -/
  fields : List (Field σ)
  /-- Whether every field must be there. -/
  complete : Bool
  /-- The record into which the fields are read. -/
  initial : σ

namespace RecordForm

open Json Decoder

variable {σ : Type} (form : RecordForm σ)

/-! ## Arrays -/

/-- Reads the fields that are still to come in an array into the record `s`; `first` says that no
field came before them. -/
def readPositions (first : Bool) (s : σ) : List (Field σ) → Decoder σ
  | [], t =>
      match skipSpace t with
      | [] => .error .cutOff
      | c :: u => if c = ']' then .ok (s, u) else .error .malformed
  | field :: fields, t =>
      match skipSpace t with
      | [] => .error .cutOff
      | c :: u =>
          if c = ']' then if form.complete then .error .unfit else .ok (s, u)
          else
            let item := if first then some (c :: u) else if c = ',' then some u else none
            match item with
            | none => .error .malformed
            | some item =>
                match field.read s item with
                | .error fault => .error fault
                | .ok (s', rest) => readPositions false s' fields rest

/-! ## Objects -/

def readColon : Decoder Unit := fun t =>
  match skipSpace t with
  | [] => .error .cutOff
  | c :: u => if c = ':' then .ok ((), u) else .error .malformed

/-- Reads the colon and the value of the field `name` into the record `s`, of which the fields
`seen` have been read. -/
def readMemberValue (seen : List Text) (s : σ) (name : Text) : Decoder (List Text × σ) := fun t =>
  match form.fields.find? fun field => field.name == name with
  | none =>
      match readColon t with
      | .error fault => .error fault
      | .ok (_, rest) => Decoder.map (fun _ => (seen, s)) skipValue rest
  | some field =>
      if seen.contains name then .error .unfit
      else
        match readColon t with
        | .error fault => .error fault
        | .ok (_, rest) => Decoder.map (fun s' => (name :: seen, s')) (field.read s) rest

/-- Reads a field of an object into the record `s`, of which the fields `seen` have been read. -/
def readMember (seen : List Text) (s : σ) : Decoder (List Text × σ) := fun t =>
  match skipSpace t with
  | [] => .error .cutOff
  | c :: u =>
      if c = '"' then
        match readString u with
        | .error fault => .error fault
        | .ok (name, rest) => form.readMemberValue seen s name rest
      else .error .malformed

/-- The record when its object ends. -/
def finish (seen : List Text) (s : σ) : Decoder σ := fun t =>
  if form.complete && form.fields.any (fun field => !seen.contains field.name) then .error .unfit
  else .ok (s, t)

theorem shrinks_readColon : Shrinks readColon := by
  intro t v rest h
  simp only [readColon] at h
  split at h
  · cases h
  · rename_i hs
    split at h
    · cases h
      exact Nat.le_of_lt (length_lt_of_skipSpace hs)
    · cases h

theorem shrinks_readMemberValue (seen : List Text) (s : σ) (name : Text) :
    Shrinks (form.readMemberValue seen s name) := by
  intro t v rest h
  simp only [readMemberValue] at h
  split at h
  · split at h
    · cases h
    · rename_i hc
      exact Nat.le_trans (shrinks_map shrinks_skipValue h) (shrinks_readColon hc)
  · rename_i field _
    split at h
    · cases h
    · split at h
      · cases h
      · rename_i hc
        exact Nat.le_trans (shrinks_map (field.shrinks s) h) (shrinks_readColon hc)

theorem shrinks_readMember (seen : List Text) (s : σ) : Shrinks (form.readMember seen s) := by
  intro t v rest h
  simp only [readMember] at h
  split at h
  · cases h
  · rename_i hs
    split at h
    · split at h
      · cases h
      · rename_i hr
        exact Nat.le_trans (form.shrinks_readMemberValue _ _ _ h)
          (Nat.le_trans (shrinks_readString hr) (Nat.le_of_lt (length_lt_of_skipSpace hs)))
    · cases h

/-- Reads the rest of an object into the record `s`, of which the fields `seen` have been read. -/
def readMoreMembers (seen : List Text) (s : σ) : Decoder σ := fun t =>
  match _hs : skipSpace t with
  | [] => .error .cutOff
  | c :: u =>
      if c = '}' then form.finish seen s u
      else if c = ',' then
        match _hm : form.readMember seen s u with
        | .error fault => .error fault
        | .ok ((seen', s'), rest) => readMoreMembers seen' s' rest
      else .error .malformed
termination_by t => t.length
decreasing_by exact Nat.lt_of_le_of_lt (form.shrinks_readMember _ _ _hm) (length_lt_of_skipSpace _hs)

/-- Reads an object, after its opening brace. -/
def readMembers : Decoder σ := fun t =>
  match skipSpace t with
  | [] => .error .cutOff
  | c :: u =>
      if c = '}' then form.finish [] form.initial u
      else
        match form.readMember [] form.initial (c :: u) with
        | .error fault => .error fault
        | .ok ((seen, s), rest) => form.readMoreMembers seen s rest

/-! ## Records -/

def read : Decoder σ := fun t =>
  match skipSpace t with
  | '[' :: u => form.readPositions true form.initial form.fields u
  | '{' :: u => form.readMembers u
  | u => .error (misfit u)

theorem shrinks_readPositions (first : Bool) (s : σ) (fields : List (Field σ)) :
    Shrinks (form.readPositions first s fields) := by
  intro t v rest h
  induction fields generalizing first s t with
  | nil =>
      simp only [readPositions] at h
      split at h
      · cases h
      · rename_i hs
        split at h
        · cases h
          exact Nat.le_of_lt (length_lt_of_skipSpace hs)
        · cases h
  | cons field fields ih =>
      simp only [readPositions] at h
      split at h
      · cases h
      · rename_i c u hs
        have hlt := length_lt_of_skipSpace hs
        split at h
        · split at h
          · cases h
          · cases h
            exact Nat.le_of_lt hlt
        · split at h
          · cases h
          · rename_i item hitem
            have hle : item.length ≤ t.length := by
              split at hitem
              · cases hitem
                exact hlt
              · split at hitem
                · cases hitem
                  exact Nat.le_of_lt hlt
                · cases hitem
            split at h
            · cases h
            · rename_i hr
              exact Nat.le_trans (ih _ _ h) (Nat.le_trans (field.shrinks s hr) hle)

theorem shrinks_finish (seen : List Text) (s : σ) : Shrinks (form.finish seen s) := by
  intro t v rest h
  simp only [finish] at h
  split at h
  · cases h
  · cases h
    exact Nat.le_refl _

theorem shrinks_readMoreMembers (seen : List Text) (s : σ) :
    Shrinks (form.readMoreMembers seen s) := by
  intro t v rest h
  fun_induction readMoreMembers form seen s t with
  | case1 | case3 | case5 => cases h
  | case2 _ _ _ _ hs =>
      exact Nat.le_trans (form.shrinks_finish _ _ h) (Nat.le_of_lt (length_lt_of_skipSpace hs))
  | case4 _ _ _ _ _ _ _ hm hs _ ih =>
      exact Nat.le_trans (ih h)
        (Nat.le_trans (form.shrinks_readMember _ _ hm) (Nat.le_of_lt (length_lt_of_skipSpace hs)))

theorem shrinks_read : Shrinks form.read := by
  intro t v rest h
  simp only [read] at h
  split at h
  · rename_i u hs
    exact Nat.le_trans (form.shrinks_readPositions _ _ _ h)
      (Nat.le_of_lt (length_lt_of_skipSpace hs))
  · rename_i u hs
    refine Nat.le_trans ?_ (Nat.le_of_lt (length_lt_of_skipSpace hs))
    simp only [readMembers] at h
    split at h
    · cases h
    · rename_i hm
      have hlt := length_lt_of_skipSpace hm
      split at h
      · exact Nat.le_trans (form.shrinks_finish _ _ h) (Nat.le_of_lt hlt)
      · split at h
        · cases h
        · rename_i hr
          exact Nat.le_trans (form.shrinks_readMoreMembers _ _ h)
            (Nat.le_trans (form.shrinks_readMember _ _ hr) hlt)
  · cases h

end RecordForm

namespace Decoder

/-- Reads a text that holds one value and nothing else but blanks. -/
def readAll {α : Type} (d : Decoder α) (t : Text) : Except JsonFault α :=
  match d t with
  | .error fault => .error fault
  | .ok (v, rest) => if (Json.skipSpace rest).isEmpty then .ok v else .error .malformed

end Decoder

end NumeralLint
