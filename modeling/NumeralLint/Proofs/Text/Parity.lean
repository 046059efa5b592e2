/-
Backslashes counted: which characters are escaped.

The atoms of a text are read from its start, so whether a character is escaped
seems to depend on everything before it.  It depends on the backslashes right
before it alone: a text can be cut between two atoms exactly where the number
of backslashes before the cut is even (`even_finalBackslashes_iff`).  Hence an
atom stands exactly where its text stands after an even number of backslashes
(`exists_atoms_iff`), and every scan for atoms is described by parity.
-/
import Mathlib.Algebra.Ring.Parity
import NumeralLint.Proofs.Source.LineAtoms
import NumeralLint.Proofs.Text.Bytes

namespace NumeralLint

namespace Text

/-- The number of backslashes at the end of a text. -/
def finalBackslashes (t : Text) : Nat := (t.reverse.takeWhile (· == '\\')).length

@[simp] theorem finalBackslashes_nil : finalBackslashes [] = 0 := rfl

theorem finalBackslashes_append (s t : Text) :
    finalBackslashes (s ++ t) =
      if finalBackslashes t = t.length then finalBackslashes s + t.length
      else finalBackslashes t := by
  rw [finalBackslashes, List.reverse_append, List.takeWhile_append]
  simp only [List.length_reverse]
  split
  · next h =>
      have whole : finalBackslashes t = t.length := h
      rw [if_pos whole, List.length_append, List.length_reverse, Nat.add_comm]
      rfl
  · next h =>
      have part : ¬ finalBackslashes t = t.length := h
      rw [if_neg part]
      rfl

theorem finalBackslashes_concat (s : Text) (c : Char) :
    finalBackslashes (s ++ [c]) = if c = '\\' then finalBackslashes s + 1 else 0 := by
  by_cases h : c = '\\' <;> simp [finalBackslashes, h]

/-- Another character than a backslash counts for nothing, and ends the count. -/
theorem finalBackslashes_append_cons {c : Char} (h : c ≠ '\\') (s t : Text) :
    finalBackslashes (s ++ c :: t) = finalBackslashes t := by
  have parts : s ++ c :: t = s ++ [c] ++ t := by simp
  have ended : finalBackslashes (s ++ [c]) = 0 := by rw [finalBackslashes_concat, if_neg h]
  rw [parts, finalBackslashes_append, ended, Nat.zero_add]
  split
  · next hall => exact hall.symm
  · rfl

theorem finalBackslashes_replicate (n : Nat) :
    finalBackslashes (List.replicate n '\\') = n := by
  simp [finalBackslashes]

theorem finalBackslashes_eq_zero_iff {t : Text} :
    finalBackslashes t = 0 ↔ t.getLast? ≠ some '\\' := by
  rcases List.eq_nil_or_concat t with rfl | ⟨s, c, rfl⟩
  · simp
  · rw [List.concat_eq_append, finalBackslashes_concat, List.getLast?_concat]
    by_cases h : c = '\\' <;> simp [h]

theorem exists_append_replicate (t : Text) :
    ∃ s, t = s ++ List.replicate (finalBackslashes t) '\\' ∧ s.getLast? ≠ some '\\' := by
  induction t using List.reverseRecOn with
  | nil => exact ⟨[], rfl, by simp⟩
  | append_singleton t c ih =>
      rw [finalBackslashes_concat]
      split
      · next h =>
          obtain ⟨s, hs, hlast⟩ := ih
          refine ⟨s, ?_, hlast⟩
          rw [List.replicate_succ', ← List.append_assoc, ← hs, h]
      · next h => exact ⟨t ++ [c], by simp, by simpa using h⟩

/-! ## Cuts between atoms -/

theorem even_finalBackslashes_escaped (d : Char) (s : Text) :
    Even (finalBackslashes ('\\' :: d :: s)) ↔ Even (finalBackslashes s) := by
  have pair : finalBackslashes ['\\', d] = if d = '\\' then 2 else 0 := by
    by_cases h : d = '\\' <;> simp [finalBackslashes, h]
  have parts : '\\' :: d :: s = ['\\', d] ++ s := rfl
  rw [parts, finalBackslashes_append, pair]
  split
  · next hall =>
      rw [hall]
      split <;> simp [Nat.even_add, even_two]
  · exact Iff.rfl

/-- After an even number of backslashes a text can be cut: what follows has the atoms it has by
itself. -/
theorem atoms_append_of_even {s : Text} (h : Even (finalBackslashes s)) (u : Text) :
    atoms (s ++ u) = atoms s ++ atoms u := by
  fun_induction atoms s with
  | case1 => rfl
  | case2 c =>
      have hc : c ≠ '\\' := by
        rintro rfl
        exact absurd h (by decide)
      exact atoms_cons hc u
  | case3 d s ih =>
      have later := ih ((even_finalBackslashes_escaped d s).mp h)
      simp [atoms, later]
  | case4 c d s hc ih =>
      have rest : finalBackslashes (c :: d :: s) = finalBackslashes (d :: s) :=
        finalBackslashes_append_cons hc [] (d :: s)
      have later := ih (rest ▸ h)
      rw [List.cons_append, atoms_cons hc, later]
      rfl

/-- A text can be cut between two atoms exactly if the number of backslashes before the cut is
even: an odd one escapes what follows. -/
theorem even_finalBackslashes_iff {s : Text} :
    Even (finalBackslashes s) ↔ ∀ u, atoms (s ++ u) = atoms s ++ atoms u := by
  constructor
  · intro h u
    exact atoms_append_of_even h u
  · intro h
    by_contra hodd
    rcases List.eq_nil_or_concat s with rfl | ⟨t, c, rfl⟩
    · exact hodd (by simp)
    · rw [List.concat_eq_append] at h hodd
      rw [finalBackslashes_concat] at hodd
      split at hodd
      · next hc =>
          have heven : Even (finalBackslashes t) := by
            by_contra hne
            exact hodd (Nat.even_add_one.mpr hne)
          -- An `n` after the text is escaped, though by itself it is not.
          have whole := h ['n']
          rw [hc, List.append_assoc, atoms_append_of_even heven, atoms_append_of_even heven,
            List.append_assoc] at whole
          have same := List.append_cancel_left whole
          exact absurd same (by decide)
      · exact hodd (by simp)

/-- The atom `a` stands after `before` exactly if its text does, and after an even number of
backslashes.  A lone backslash at the end of the text is left out. -/
theorem exists_atoms_iff {a : Atom} (ha : a ≠ .plain '\\') {t before : Text} :
    (∃ as bs, atoms t = as ++ a :: bs ∧ spell as = before) ↔
      Even (finalBackslashes before) ∧ ∃ after, t = before ++ a.text ++ after := by
  constructor
  · rintro ⟨as, bs, hatoms, rfl⟩
    have begins : as ++ [a] <+: atoms t := ⟨bs, by simp [hatoms]⟩
    have alone : atoms (spell as) = as := atoms_spell ((List.prefix_append as [a]).trans begins)
    refine ⟨even_finalBackslashes_iff.mpr fun u => ?_, spell bs, ?_⟩
    · rw [alone]
      exact atoms_spell_append begins u
    · have whole := congrArg spell hatoms
      rw [spell_atoms, spell_append, spell_cons, ← List.append_assoc] at whole
      exact whole
  · rintro ⟨heven, after, rfl⟩
    have here : atoms (a.text ++ after) = a :: atoms after := by
      cases a with
      | plain c => exact atoms_cons (fun hc => ha (by rw [hc])) after
      | escaped c => simp [Atom.text, atoms]
    refine ⟨atoms before, atoms after, ?_, spell_atoms before⟩
    rw [List.append_assoc, atoms_append_of_even heven, here]

/-! ## Places of atoms -/

/-- The places of an atom in a text. -/
def placesOf (a : Atom) (t : Text) : List Nat := atomPlaces a 0 (atoms t)

theorem mem_atomPlaces_iff {a : Atom} {as : List Atom} {place p : Nat} :
    p ∈ atomPlaces a place as ↔
      ∃ before after, as = before ++ a :: after ∧ p = place + width (spell before) := by
  constructor
  · exact exists_of_mem_atomPlaces
  · rintro ⟨before, after, rfl, rfl⟩
    induction before generalizing place with
    | nil => simp [atomPlaces]
    | cons b before ih =>
        have later : place + width (spell (b :: before)) ∈
            atomPlaces a (place + width b.text) (before ++ a :: after) := by
          rw [spell_cons, width_append, ← Nat.add_assoc]
          exact ih
        rw [List.cons_append, atomPlaces]
        split
        · exact List.mem_cons_of_mem _ later
        · exact later

theorem mem_placesOf_iff {a : Atom} (ha : a ≠ .plain '\\') {t : Text} {p : Nat} :
    p ∈ placesOf a t ↔ ∃ before after, t = before ++ a.text ++ after ∧
      Even (finalBackslashes before) ∧ before.width = p := by
  rw [placesOf, mem_atomPlaces_iff]
  constructor
  · rintro ⟨as, bs, hatoms, rfl⟩
    obtain ⟨heven, after, whole⟩ := (exists_atoms_iff ha).mp ⟨as, bs, hatoms, rfl⟩
    exact ⟨spell as, after, whole, heven, (Nat.zero_add _).symm⟩
  · rintro ⟨before, after, whole, heven, rfl⟩
    obtain ⟨as, bs, hatoms, rfl⟩ := (exists_atoms_iff ha).mpr ⟨heven, after, whole⟩
    exact ⟨as, bs, hatoms, (Nat.zero_add _).symm⟩

theorem sortedLT_atomPlaces (a : Atom) (place : Nat) (as : List Atom) :
    (atomPlaces a place as).Pairwise (· < ·) := by
  induction as generalizing place with
  | nil => exact List.Pairwise.nil
  | cons b as ih =>
      have later := ih (place + width b.text)
      rw [atomPlaces]
      split
      · refine List.pairwise_cons.mpr ⟨?_, later⟩
        intro p hp
        obtain ⟨before, after, -, rfl⟩ := exists_of_mem_atomPlaces hp
        have size : width b.text ≠ 0 := fun h => Atom.text_ne_nil b (width_eq_zero.mp h)
        omega
      · exact later

end Text

end NumeralLint
