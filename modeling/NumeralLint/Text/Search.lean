/-
Recognisers, and the search for the leftmost place where one succeeds.

A recogniser reads a piece of text at the start of what it is given and
answers with the text after that piece.  Recognisers are composed by
`Option.bind`; `cut` finds the first place of a text at which one succeeds.
-/
import NumeralLint.Text.Basic

namespace NumeralLint

/-- Reads a piece at the start of a text and answers with what follows it. -/
abbrev Recogniser := Text → Option Text

namespace Recogniser

def literal : Text → Recogniser
  | [], t => some t
  | _ :: _, [] => none
  | c :: s, d :: t => if c = d then literal s t else none

/-- Reads characters of a class, as many as there are. -/
def many (p : Char → Bool) : Recogniser := fun t => some (t.dropWhile p)

/-- Reads the piece of `r` if there is one, and nothing otherwise. -/
def optional (r : Recogniser) : Recogniser := fun t => some ((r t).getD t)

/-- Reads the pieces of two recognisers one after the other. -/
def andThen (r s : Recogniser) : Recogniser := fun t => (r t).bind s

/-- Reads the piece of `r` if there is one, and otherwise the piece of `s`. -/
def orElse (r s : Recogniser) : Recogniser := fun t => (r t).or (s t)

/-! ## What a recogniser leaves is an end of the text -/

theorem literal_eq_some {s t rest : Text} : literal s t = some rest ↔ t = s ++ rest := by
  induction s generalizing t with
  | nil => simp [literal]
  | cons c s ih =>
      cases t with
      | nil => simp [literal]
      | cons d t =>
          by_cases h : c = d
          · simp [literal, h, ih]
          · simp [literal, h, Ne.symm h]

/-- What the recogniser leaves is always an end of the text it was given. -/
def Reads (r : Recogniser) : Prop := ∀ ⦃t rest⦄, r t = some rest → rest <:+ t

/-- What the recogniser leaves is always shorter than the text it was given. -/
def Advances (r : Recogniser) : Prop := ∀ ⦃t rest⦄, r t = some rest → rest.length < t.length

theorem reads_literal (s : Text) : Reads (literal s) := fun _ rest h =>
  literal_eq_some.mp h ▸ List.suffix_append s rest

theorem reads_many (p : Char → Bool) : Reads (many p) := fun _ _ h =>
  Option.some.inj h ▸ List.dropWhile_suffix p

theorem reads_optional {r : Recogniser} (hr : Reads r) : Reads (optional r) := by
  intro t rest h
  cases hrt : r t with
  | none =>
      simp only [optional, hrt, Option.getD_none, Option.some.injEq] at h
      exact h ▸ List.suffix_refl t
  | some u =>
      simp only [optional, hrt, Option.getD_some, Option.some.injEq] at h
      exact h ▸ hr hrt

theorem reads_andThen {r s : Recogniser} (hr : Reads r) (hs : Reads s) : Reads (r.andThen s) := by
  intro t rest h
  obtain ⟨u, hu, hrest⟩ := Option.bind_eq_some_iff.mp h
  exact (hs hrest).trans (hr hu)

theorem reads_orElse {r s : Recogniser} (hr : Reads r) (hs : Reads s) : Reads (r.orElse s) := by
  intro t rest h
  rcases Option.or_eq_some_iff.mp h with h | ⟨_, h⟩
  · exact hr h
  · exact hs h

theorem advances_literal {s : Text} (hs : s ≠ []) : Advances (literal s) := fun t rest h => by
  rw [literal_eq_some.mp h, List.length_append]
  have := List.length_pos_iff.mpr hs
  omega

theorem advances_orElse {r s : Recogniser} (hr : Advances r) (hs : Advances s) :
    Advances (r.orElse s) := by
  intro t rest h
  rcases Option.or_eq_some_iff.mp h with h | ⟨_, h⟩
  · exact hr h
  · exact hs h

theorem advances_andThen {r s : Recogniser} (hr : Advances r) (hs : Reads s) :
    Advances (r.andThen s) := by
  intro t rest h
  obtain ⟨u, hu, hrest⟩ := Option.bind_eq_some_iff.mp h
  exact Nat.lt_of_le_of_lt (hs hrest).length_le (hr hu)

theorem advances_andThen_right {r s : Recogniser} (hr : Reads r) (hs : Advances s) :
    Advances (r.andThen s) := by
  intro t rest h
  obtain ⟨u, hu, hrest⟩ := Option.bind_eq_some_iff.mp h
  exact Nat.lt_of_lt_of_le (hs hrest) (hr hu).length_le

end Recogniser

namespace Text

/-- The text before and the text after the leftmost piece that `r` reads. -/
def cut (r : Recogniser) : Text → Option (Text × Text)
  | [] => (r []).map fun after => ([], after)
  | c :: t =>
      match r (c :: t) with
      | some after => some ([], after)
      | none => (cut r t).map fun found => (c :: found.1, found.2)

/-- The number of bytes of the line before the end `rest` of it. -/
def columnOf (line rest : Text) : Nat := width line - width rest

theorem columnOf_append (s t : Text) : columnOf (s ++ t) t = width s := by
  simp [columnOf]

/-- Whether `r` reads a piece anywhere in the text. -/
def occurs (r : Recogniser) (t : Text) : Bool := (cut r t).isSome

end Text

end NumeralLint
