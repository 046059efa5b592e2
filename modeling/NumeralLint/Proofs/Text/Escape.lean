/-
Places of atoms, and texts that end between two atoms.

`atoms_split` cuts a text at the first atom of a kind; the functions that
look for that atom are read off from the cut.  What stands before an atom
has the atoms it had in the whole text (`atoms_spell`), so a part of a text
that was cut between atoms escapes the same characters as the whole.
-/
import Mathlib.Data.List.TakeWhile
import NumeralLint.Text.Escape

namespace NumeralLint

namespace Text

@[simp] theorem spell_nil : spell [] = [] := rfl

@[simp] theorem spell_cons (a : Atom) (as : List Atom) : spell (a :: as) = a.text ++ spell as := by
  simp [spell]

@[simp] theorem spell_append (as bs : List Atom) : spell (as ++ bs) = spell as ++ spell bs := by
  simp [spell]

theorem Atom.text_ne_nil (a : Atom) : a.text ≠ [] := by
  cases a <;> simp [Atom.text]

theorem spell_eq_nil {as : List Atom} : spell as = [] ↔ as = [] := by
  cases as with
  | nil => simp
  | cons a as => simp [Atom.text_ne_nil]

/-! ## Parts that end between atoms -/

/-- Where another atom follows, what the first atoms spell keeps its atoms whatever text comes
next: none of them is a backslash that has nothing to escape. -/
theorem atoms_spell_append {as : List Atom} {b : Atom} {t : Text} (h : as ++ [b] <+: atoms t)
    (u : Text) : atoms (spell as ++ u) = as ++ atoms u := by
  fun_induction atoms t generalizing as with
  | case1 => simp at h
  | case2 c =>
      cases as with
      | nil => rfl
      | cons e as => simp at h
  | case3 d t ih =>
      cases as with
      | nil => rfl
      | cons e as =>
          obtain ⟨rfl, has⟩ := List.cons_prefix_cons.mp h
          simp [Atom.text, atoms, ih has]
  | case4 c d t hc ih =>
      cases as with
      | nil => rfl
      | cons e as =>
          obtain ⟨rfl, has⟩ := List.cons_prefix_cons.mp h
          have later := ih has
          cases hrest : spell as ++ u with
          | nil =>
              obtain ⟨hspell, rfl⟩ := List.append_eq_nil_iff.mp hrest
              obtain rfl := spell_eq_nil.mp hspell
              rfl
          | cons f rest =>
              rw [hrest] at later
              simp [Atom.text, hrest, atoms, hc, later]

/-- What the first atoms of a text spell has just these atoms. -/
theorem atoms_spell {as : List Atom} {t : Text} (h : as <+: atoms t) : atoms (spell as) = as := by
  rcases List.eq_nil_or_concat as with rfl | ⟨init, b, rfl⟩
  · rfl
  · have last : atoms b.text = [b] := by cases b <;> rfl
    rw [List.concat_eq_append] at h ⊢
    rw [spell_append, atoms_spell_append h]
    simp [last]

/-! ## The first atom of a kind -/

theorem bne_of_not_mem {a : Atom} {as : List Atom} (h : a ∉ as) : ∀ b ∈ as, (b != a) = true :=
  fun _ hb => bne_iff_ne.mpr fun hba => h (hba ▸ hb)

theorem beforeAtom_of_not_mem {a : Atom} {t : Text} (h : a ∉ atoms t) : beforeAtom a t = t := by
  have whole : (atoms t).takeWhile (· != a) = atoms t :=
    List.takeWhile_eq_self_iff.mpr (bne_of_not_mem h)
  rw [beforeAtom_eq_spell, whole, spell_atoms]

theorem fromAtom_of_not_mem {a : Atom} {t : Text} (h : a ∉ atoms t) : fromAtom a t = [] := by
  have whole := beforeAtom_append_fromAtom a t
  rw [beforeAtom_of_not_mem h] at whole
  exact List.append_right_eq_self.mp whole

theorem beforeAtom_of_atoms {a : Atom} {t : Text} {as bs : List Atom}
    (h : atoms t = as ++ a :: bs) (ha : a ∉ as) : beforeAtom a t = spell as := by
  rw [beforeAtom_eq_spell, h, List.takeWhile_append_of_pos (bne_of_not_mem ha)]
  simp

theorem fromAtom_of_atoms {a : Atom} {t : Text} {as bs : List Atom}
    (h : atoms t = as ++ a :: bs) (ha : a ∉ as) : fromAtom a t = a.text ++ spell bs := by
  rw [fromAtom_eq_spell, h, List.dropWhile_append_of_pos (bne_of_not_mem ha)]
  simp

/-- A text has no atom `a`, or it is cut at the first one. -/
theorem atoms_split (a : Atom) (t : Text) :
    a ∉ atoms t ∨ ∃ as bs, atoms t = as ++ a :: bs ∧ a ∉ as ∧
      t = spell as ++ a.text ++ spell bs := by
  by_cases h : a ∈ atoms t
  · obtain ⟨as, bs, hsplit, hfirst⟩ := List.eq_append_cons_of_mem h
    refine Or.inr ⟨as, bs, hsplit, hfirst, ?_⟩
    conv => lhs; rw [← spell_atoms t, hsplit]
    simp
  · exact Or.inl h

/-- A text up to its first atom `a` may go on otherwise after the atom and is cut at the same
place. -/
theorem cut_at_atom {a : Atom} {t : Text} {as bs : List Atom} (h : atoms t = as ++ a :: bs)
    (ha : a ∉ as) (hu : ∀ u, atoms (a.text ++ u) = a :: atoms u) (u : Text) :
    beforeAtom a (spell as ++ a.text ++ u) = spell as ∧
      fromAtom a (spell as ++ a.text ++ u) = a.text ++ u := by
  have split : atoms (spell as ++ a.text ++ u) = as ++ a :: atoms u := by
    rw [List.append_assoc, atoms_spell_append (b := a) (t := t) ⟨bs, by simp [h]⟩, hu]
  refine ⟨beforeAtom_of_atoms split ha, ?_⟩
  rw [fromAtom_of_atoms split ha, spell_atoms]

/-! ## Places -/

theorem atomPlaces_of_not_mem {a : Atom} {as : List Atom} (h : a ∉ as) (place : Nat) :
    atomPlaces a place as = [] := by
  induction as generalizing place with
  | nil => rfl
  | cons b bs ih =>
      obtain ⟨hb, hbs⟩ := not_or.mp (mt List.mem_cons.mpr h)
      simp [atomPlaces, Ne.symm hb, ih hbs]

theorem atomPlaces_append {a : Atom} {as : List Atom} (h : a ∉ as) (place : Nat)
    (bs : List Atom) :
    atomPlaces a place (as ++ a :: bs) =
      (place + width (spell as)) ::
        atomPlaces a (place + width (spell as) + width a.text) bs := by
  induction as generalizing place with
  | nil => simp [atomPlaces]
  | cons b as ih =>
      obtain ⟨hb, has⟩ := not_or.mp (mt List.mem_cons.mpr h)
      simp [atomPlaces, Ne.symm hb, ih has, Nat.add_assoc]

theorem length_atomPlaces (a : Atom) (place : Nat) (as : List Atom) :
    (atomPlaces a place as).length = as.count a := by
  induction as generalizing place with
  | nil => rfl
  | cons b bs ih =>
      by_cases h : b = a
      · simp [atomPlaces, h, ih]
      · simp [atomPlaces, h, ih]

end Text

end NumeralLint
