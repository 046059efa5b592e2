/-
Slices of a text between two places.

A place is a boundary of a text where a character starts or the text ends.
A slice exists exactly between two boundaries in order (`isSome_part?_iff`),
so a function that takes all its slices with `part?` and never fails has
taken them all safely.  Places that are widths of beginnings of the text are
boundaries by what they are, and `part?_append` is how they are shown to be.
-/
import NumeralLint.Text.Basic

namespace NumeralLint

namespace Text

/-! ## Dropping and taking bytes -/

theorem dropBytes?_cons (c : Char) (n : Nat) (t : Text) :
    dropBytes? (c.utf8Size + n) (c :: t) = dropBytes? n t := by
  obtain ⟨m, hm⟩ : ∃ m, c.utf8Size = m + 1 := Nat.exists_eq_add_one.mpr c.utf8Size_pos
  have place : c.utf8Size + n = m + n + 1 := by omega
  have left : m + n + 1 - c.utf8Size = n := by omega
  rw [place, dropBytes?, if_pos (by omega), left]

theorem takeBytes?_cons (c : Char) (n : Nat) (t : Text) :
    takeBytes? (c.utf8Size + n) (c :: t) = (takeBytes? n t).map (c :: ·) := by
  obtain ⟨m, hm⟩ : ∃ m, c.utf8Size = m + 1 := Nat.exists_eq_add_one.mpr c.utf8Size_pos
  have place : c.utf8Size + n = m + n + 1 := by omega
  have left : m + n + 1 - c.utf8Size = n := by omega
  rw [place, takeBytes?, if_pos (by omega), left]

theorem dropBytes?_append (s t : Text) : dropBytes? s.width (s ++ t) = some t := by
  induction s with
  | nil => simp [dropBytes?]
  | cons c s ih => rw [List.cons_append, width_cons, dropBytes?_cons, ih]

theorem takeBytes?_append (s t : Text) : takeBytes? s.width (s ++ t) = some s := by
  induction s with
  | nil => simp [takeBytes?]
  | cons c s ih =>
      rw [List.cons_append, width_cons, takeBytes?_cons, ih]
      rfl

theorem slice?_append (s t u : Text) :
    slice? s.width (s.width + t.width) (s ++ t ++ u) = some t := by
  rw [slice?, List.append_assoc, dropBytes?_append, Nat.add_sub_cancel_left]
  exact takeBytes?_append t u

theorem dropBytes?_eq_some_iff {n : Nat} {t u : Text} :
    dropBytes? n t = some u ↔ ∃ s, t = s ++ u ∧ width s = n := by
  constructor
  · intro h
    fun_induction dropBytes? n t with
    | case1 t => exact ⟨[], Option.some.inj h, rfl⟩
    | case2 => exact absurd h (by simp)
    | case3 n c t hle ih =>
        obtain ⟨s, rfl, hs⟩ := ih h
        refine ⟨c :: s, rfl, ?_⟩
        rw [width_cons]
        omega
    | case4 => exact absurd h (by simp)
  · rintro ⟨s, rfl, rfl⟩
    exact dropBytes?_append s u

theorem takeBytes?_eq_some_iff {n : Nat} {t s : Text} :
    takeBytes? n t = some s ↔ ∃ u, t = s ++ u ∧ width s = n := by
  constructor
  · intro h
    fun_induction takeBytes? n t generalizing s with
    | case1 t => exact ⟨t, by rw [← Option.some.inj h]; rfl, by rw [← Option.some.inj h]; rfl⟩
    | case2 => exact absurd h (by simp)
    | case3 n c t hle ih =>
        obtain ⟨s, hs, rfl⟩ := Option.map_eq_some_iff.mp h
        obtain ⟨u, rfl, hwidth⟩ := ih hs
        refine ⟨u, rfl, ?_⟩
        rw [width_cons]
        omega
    | case4 => exact absurd h (by simp)
  · rintro ⟨u, rfl, rfl⟩
    exact takeBytes?_append s u

/-- Of two beginnings of one text, the one with fewer bytes is a beginning of the other. -/
theorem exists_append_of_width_le {s t u v : Text} (h : s ++ t = u ++ v)
    (hw : s.width ≤ u.width) : ∃ w, u = s ++ w ∧ t = w ++ v := by
  rcases List.append_eq_append_iff.mp h with ⟨w, rfl, rfl⟩ | ⟨w, rfl, rfl⟩
  · exact ⟨w, rfl, rfl⟩
  · rw [width_append] at hw
    obtain rfl : w = [] := width_eq_zero.mp (by omega)
    exact ⟨[], by simp, rfl⟩

/-- A character of a text in two parts stands in the first of them or in the second. -/
theorem append_eq_append_cons {s t front back : Text} {c : Char}
    (h : s ++ t = front ++ c :: back) :
    (∃ v, s = front ++ c :: v ∧ back = v ++ t) ∨ ∃ v, front = s ++ v ∧ t = v ++ c :: back := by
  rcases List.append_eq_append_iff.mp h with ⟨v, rfl, hrest⟩ | ⟨v, rfl, hrest⟩
  · exact Or.inr ⟨v, rfl, hrest⟩
  · cases v with
    | nil => exact Or.inr ⟨[], by simp, hrest.symm⟩
    | cons d v =>
        obtain ⟨rfl, rfl⟩ := List.cons.inj hrest
        exact Or.inl ⟨v, rfl, rfl⟩

/-! ## Boundaries and parts -/

/-- A character of the text starts at the place, or the text ends there. -/
def IsBoundary (t : Text) (place : Nat) : Prop := ∃ s u, t = s ++ u ∧ width s = place

theorem IsBoundary.le_width {t : Text} {place : Nat} (h : t.IsBoundary place) :
    place ≤ t.width := by
  obtain ⟨s, u, rfl, rfl⟩ := h
  rw [width_append]
  exact Nat.le_add_right _ _

/-- The part of the text from `start` to `stop`, if these are two boundaries in order. -/
def part? (start stop : Nat) (t : Text) : Option Text :=
  if start ≤ stop then slice? start stop t else none

theorem part?_eq_some_iff {start stop : Nat} {t m : Text} :
    part? start stop t = some m ↔
      ∃ s u, t = s ++ m ++ u ∧ width s = start ∧ width (s ++ m) = stop := by
  constructor
  · intro h
    rw [part?] at h
    split at h
    · next hle =>
        obtain ⟨rest, hdrop, htake⟩ := Option.bind_eq_some_iff.mp h
        obtain ⟨s, rfl, hs⟩ := dropBytes?_eq_some_iff.mp hdrop
        obtain ⟨u, rfl, hm⟩ := takeBytes?_eq_some_iff.mp htake
        refine ⟨s, u, (List.append_assoc s m u).symm, hs, ?_⟩
        rw [width_append]
        omega
    · exact absurd h (by simp)
  · rintro ⟨s, u, rfl, rfl, rfl⟩
    rw [part?, width_append, if_pos (Nat.le_add_right _ _), slice?_append]

theorem part?_append (s m u : Text) : part? s.width (s ++ m).width (s ++ m ++ u) = some m :=
  part?_eq_some_iff.mpr ⟨s, u, rfl, rfl, rfl⟩

theorem isSome_part?_iff {start stop : Nat} {t : Text} :
    (part? start stop t).isSome = true ↔
      start ≤ stop ∧ t.IsBoundary start ∧ t.IsBoundary stop := by
  constructor
  · intro h
    obtain ⟨m, hm⟩ := Option.isSome_iff_exists.mp h
    obtain ⟨s, u, rfl, rfl, rfl⟩ := part?_eq_some_iff.mp hm
    refine ⟨?_, ⟨s, m ++ u, List.append_assoc s m u, rfl⟩, ⟨s ++ m, u, rfl, rfl⟩⟩
    rw [width_append]
    exact Nat.le_add_right _ _
  · rintro ⟨hle, ⟨s, v, rfl, rfl⟩, ⟨w, u, hparts, rfl⟩⟩
    rcases List.append_eq_append_iff.mp hparts with ⟨m, rfl, rfl⟩ | ⟨m, rfl, rfl⟩
    · rw [← List.append_assoc, part?_append]
      rfl
    · rw [width_append] at hle
      obtain rfl : m = [] := width_eq_zero.mp (by omega)
      have nothing := part?_append w [] v
      simp only [List.append_nil] at nothing ⊢
      rw [nothing]
      rfl

end Text

end NumeralLint
