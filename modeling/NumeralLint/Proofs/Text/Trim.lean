/-
What trimming takes off a text.

Every lemma cuts the text into what stays and what goes, so places in the
trimmed text can be compared with places in the whole one.
-/
import Mathlib.Data.List.DropRight
import Mathlib.Data.List.TakeWhile
import NumeralLint.Text.Blank

namespace NumeralLint

namespace Text

/-! ## The start of a text -/

theorem trimStart_cons_of_isBlank {c : Char} (h : isBlank c = true) (t : Text) :
    trimStart (c :: t) = trimStart t := by simp [trimStart, h]

theorem trimStart_cons {c : Char} (h : isBlank c = false) (t : Text) :
    trimStart (c :: t) = c :: t := by simp [trimStart, h]

theorem trimStart_append {gap : Text} (h : ∀ c ∈ gap, isBlank c = true) (t : Text) :
    trimStart (gap ++ t) = trimStart t := List.dropWhile_append_of_pos h

theorem trimStart_trimStart (t : Text) : trimStart (trimStart t) = trimStart t :=
  List.dropWhile_idempotent isBlank t

/-! ## The end of a text -/

/-- What is dropped from the end of a text is made of the characters that are dropped there. -/
theorem exists_dropTrailing_append (p : Char → Bool) (t : Text) :
    ∃ tail, t = dropTrailing p t ++ tail ∧ ∀ c ∈ tail, p c = true := by
  refine ⟨(t.reverse.takeWhile p).reverse, ?_, ?_⟩
  · rw [dropTrailing, ← List.reverse_append, List.takeWhile_append_dropWhile, List.reverse_reverse]
  · intro c hc
    exact List.mem_takeWhile_imp (List.mem_reverse.mp hc)

theorem prefix_dropTrailing (p : Char → Bool) (t : Text) : dropTrailing p t <+: t := by
  obtain ⟨tail, ht, -⟩ := exists_dropTrailing_append p t
  exact ⟨tail, ht.symm⟩

theorem dropTrailing_congr {p q : Char → Bool} {t : Text} (h : ∀ c ∈ t, p c = q c) :
    dropTrailing p t = dropTrailing q t := by
  have same : ∀ s : Text, (∀ c ∈ s, p c = q c) → s.dropWhile p = s.dropWhile q := by
    intro s hs
    induction s with
    | nil => rfl
    | cons c s ih =>
        obtain ⟨hc, hmore⟩ := List.forall_mem_cons.mp hs
        rw [List.dropWhile_cons, List.dropWhile_cons, hc, ih hmore]
  rw [dropTrailing, dropTrailing, same _ fun c hc => h c (List.mem_reverse.mp hc)]

theorem dropTrailing_append {p : Char → Bool} {tail : Text} (h : ∀ c ∈ tail, p c = true)
    (t : Text) : dropTrailing p (t ++ tail) = dropTrailing p t := by
  have all : tail.reverse.dropWhile p = [] :=
    List.dropWhile_eq_nil_iff.mpr fun c hc => h c (List.mem_reverse.mp hc)
  rw [dropTrailing, dropTrailing, List.reverse_append, List.dropWhile_append, all]
  rfl

theorem dropTrailing_eq_concat {p : Char → Bool} {t s : Text} {c : Char}
    (h : dropTrailing p t = s ++ [c]) : p c = false := by
  have hrev : t.reverse.dropWhile p = c :: s.reverse := by
    rw [← List.reverse_inj]
    simpa [dropTrailing] using h
  have := List.head?_dropWhile_not p t.reverse
  simpa [hrev] using this

theorem dropTrailing_concat_append {p : Char → Bool} {c : Char} (hc : p c = false) (s u : Text) :
    dropTrailing p (s ++ [c] ++ u) = s ++ [c] ++ dropTrailing p u := by
  rw [dropTrailing, List.reverse_append, List.dropWhile_append]
  split
  · next h =>
    have none : dropTrailing p u = [] := by
      rw [dropTrailing, List.isEmpty_iff.mp h]
      rfl
    simp [none, hc]
  · simp [dropTrailing]

theorem dropTrailing_concat {p : Char → Bool} {c : Char} (hc : p c = false) (s : Text) :
    dropTrailing p (s ++ [c]) = s ++ [c] := by
  simp [dropTrailing, hc]

theorem dropTrailing_append_of_ne_nil {p : Char → Bool} {u : Text} (h : dropTrailing p u ≠ [])
    (s : Text) : dropTrailing p (s ++ u) = s ++ dropTrailing p u := by
  have kept : (u.reverse.dropWhile p).isEmpty = false := by
    simpa [dropTrailing] using h
  rw [dropTrailing, List.reverse_append, List.dropWhile_append, kept]
  simp [dropTrailing]

/-! ## Both ends of a text -/

/-- A text is what trimming leaves of it, between the blanks at its start and blanks at its end. -/
theorem exists_trim_append (t : Text) :
    ∃ tail, t = t.takeWhile isBlank ++ trim t ++ tail ∧ ∀ c ∈ tail, isBlank c = true := by
  obtain ⟨tail, ht, htail⟩ := exists_dropTrailing_append isBlank (trimStart t)
  refine ⟨tail, ?_, htail⟩
  have whole : t = t.takeWhile isBlank ++ trimStart t :=
    List.takeWhile_append_dropWhile.symm
  rw [List.append_assoc]
  conv => lhs; rw [whole]
  rw [trim, trimEnd, ← ht]

/-- The same, with the number of bytes of the parts. -/
theorem exists_append_of_trim_eq {t s : Text} (h : trim t = s) :
    ∃ tail, t = t.takeWhile isBlank ++ s ++ tail ∧ (∀ c ∈ tail, isBlank c = true) ∧
      t.width = width (t.takeWhile isBlank) + s.width + tail.width := by
  subst h
  obtain ⟨tail, whole, htail⟩ := exists_trim_append t
  refine ⟨tail, whole, htail, ?_⟩
  conv => lhs; rw [whole]
  simp only [width_append]

theorem not_isBlank_of_trim_eq_cons {t s : Text} {c : Char} (h : trim t = c :: s) :
    isBlank c = false := by
  obtain ⟨tail, ht, -⟩ := exists_dropTrailing_append isBlank (trimStart t)
  have hstart : trimStart t = c :: (s ++ tail) := by
    rw [ht]
    exact congrArg (· ++ tail) h
  have := List.head?_dropWhile_not isBlank t
  rw [trimStart] at hstart
  simpa [hstart] using this

theorem trim_trim (t : Text) : trim (trim t) = trim t := by
  cases h : trim t with
  | nil => rfl
  | cons c s =>
      have twice : trimEnd (trimEnd (trimStart t)) = trimEnd (trimStart t) := by
        simp only [trimEnd, dropTrailing, List.reverse_reverse, List.dropWhile_idempotent]
      rw [trim, trimStart_cons (not_isBlank_of_trim_eq_cons h), ← h]
      exact twice

/-- Trimming leaves nothing exactly of the texts made of blanks. -/
theorem trim_eq_nil {t : Text} : trim t = [] ↔ ∀ c ∈ t, isBlank c = true := by
  constructor
  · intro h
    obtain ⟨tail, ht, htail⟩ := exists_trim_append t
    rw [h, List.append_nil] at ht
    intro c hc
    rw [ht] at hc
    rcases List.mem_append.mp hc with hc | hc
    · exact List.mem_takeWhile_imp hc
    · exact htail c hc
  · intro h
    have : trimStart t = [] := List.dropWhile_eq_nil_iff.mpr h
    rw [trim, this]
    rfl

theorem trim_append_eq_nil {s t : Text} : trim (s ++ t) = [] ↔ trim s = [] ∧ trim t = [] := by
  simp only [trim_eq_nil, List.forall_mem_append]

/-- Up to the blanks at its end, a text is the blanks at its start and what trimming leaves. -/
theorem trimEnd_eq_append_trim {t : Text} (h : trim t ≠ []) :
    trimEnd t = t.takeWhile isBlank ++ trim t := by
  have whole : t = t.takeWhile isBlank ++ trimStart t :=
    List.takeWhile_append_dropWhile.symm
  conv => lhs; rw [whole]
  exact dropTrailing_append_of_ne_nil h _

theorem trimEnd_append_blanks {blanks : Text} (h : ∀ c ∈ blanks, isBlank c = true) (t : Text) :
    trimEnd (t ++ blanks) = trimEnd t :=
  dropTrailing_append h t

theorem trimEnd_append_of_trim_ne_nil {t : Text} (h : trim t ≠ []) (s : Text) :
    trimEnd (s ++ t) = s ++ trimEnd t := by
  refine dropTrailing_append_of_ne_nil (u := t) ?_ s
  intro hnone
  have none : trimEnd t = [] := hnone
  rw [trimEnd_eq_append_trim h] at none
  exact h (List.append_eq_nil_iff.mp none).2

theorem takeWhile_isBlank_append_of_trim_eq_nil {s : Text} (h : trim s = []) (t : Text) :
    (s ++ t).takeWhile isBlank = s ++ t.takeWhile isBlank :=
  List.takeWhile_append_of_pos (trim_eq_nil.mp h)

theorem takeWhile_isBlank_append_of_trim_ne_nil {s : Text} (h : trim s ≠ []) (t : Text) :
    (s ++ t).takeWhile isBlank = s.takeWhile isBlank := by
  have stops : (s.takeWhile isBlank).length ≠ s.length := by
    intro hall
    have whole := (List.takeWhile_prefix isBlank).eq_of_length hall
    exact h (trim_eq_nil.mpr (List.takeWhile_eq_self_iff.mp whole))
  rw [List.takeWhile_append, if_neg stops]

end Text

end NumeralLint
