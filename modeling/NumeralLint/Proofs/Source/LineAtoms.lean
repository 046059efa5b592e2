/-
Escaped characters of a text and of its lines.

A backslash may escape a line feed, but what it escapes never reaches into the
next line: at every character that is no backslash a text can be cut, and
what follows has the atoms it has by itself (`atoms_append_cons`).  So the
escaped characters of a text are those of its pieces, line by line
(`escaped_mem_piece_iff`); blanks at the end of a line do not matter
(`escaped_mem_trimEnd_iff`).
-/
import NumeralLint.Proofs.Source.Lines
import NumeralLint.Proofs.Text.Escape

namespace NumeralLint

namespace Text

variable {c d : Char}

/-! ## Cutting a text -/

@[simp] theorem atoms_nil : atoms [] = [] := rfl

theorem subset_of_mem_atoms {a : Atom} {t : Text} (h : a ∈ atoms t) : a.text ⊆ t := by
  intro e he
  rw [← spell_atoms t]
  exact List.mem_flatMap.mpr ⟨a, h, he⟩

theorem mem_of_escaped_mem_atoms {t : Text} (h : .escaped c ∈ atoms t) : c ∈ t :=
  subset_of_mem_atoms h (by simp [Atom.text])

theorem rowTerminator_not_mem {s : Text} (h : '\\' ∉ s) :
    .rowTerminator ∉ atoms ('\\' :: s) := by
  cases s with
  | nil => simp [atoms, Atom.rowTerminator]
  | cons c s =>
      obtain ⟨hc, hs⟩ := not_or.mp (mt List.mem_cons.mpr h)
      have first : atoms ('\\' :: c :: s) = .escaped c :: atoms s := by simp [atoms]
      rw [first]
      intro hmem
      rcases List.mem_cons.mp hmem with heq | hmem
      · exact hc (Atom.escaped.inj heq)
      · exact hs (mem_of_escaped_mem_atoms hmem)

theorem atoms_cons (hd : d ≠ '\\') (u : Text) : atoms (d :: u) = .plain d :: atoms u := by
  cases u with
  | nil => rfl
  | cons e u => simp [atoms, hd]

theorem atoms_append_cons (hd : d ≠ '\\') (s u : Text) :
    atoms (s ++ d :: u) = atoms (s ++ [d]) ++ atoms u := by
  fun_induction atoms s with
  | case1 => simp [atoms_cons hd]
  | case2 e =>
      by_cases he : e = '\\'
      · simp [atoms, he]
      · simp [atoms_cons he, atoms_cons hd]
  | case3 e s ih => simp [atoms, ih]
  | case4 e f s he ih => simpa [atoms, he] using ih

/-- One more character at the end of a text escapes no other character and is not escaped as another
one. -/
theorem escaped_mem_atoms_concat (hcd : c ≠ d) (s : Text) :
    .escaped c ∈ atoms (s ++ [d]) ↔ .escaped c ∈ atoms s := by
  fun_induction atoms s with
  | case1 => simp [atoms]
  | case2 e => by_cases he : e = '\\' <;> simp [atoms, he, hcd]
  | case3 e s ih => simp [atoms, ih]
  | case4 e f s he ih => simpa [atoms, he] using ih

/-! ## The end of a line -/

theorem escaped_mem_trimEnd_iff (hc : isBlank c = false) (t : Text) :
    .escaped c ∈ atoms (trimEnd t) ↔ .escaped c ∈ atoms t := by
  obtain ⟨tail, ht, htail⟩ := exists_dropTrailing_append isBlank t
  conv => rhs; rw [ht]
  rw [← trimEnd]
  cases tail with
  | nil => rw [List.append_nil]
  | cons d u =>
      have blank : isBlank d = true := htail d List.mem_cons_self
      have hd : d ≠ '\\' := by
        rintro rfl
        exact absurd blank (by decide)
      have hcd : c ≠ d := by
        rintro rfl
        exact Bool.false_ne_true (hc.symm.trans blank)
      have notLater : .escaped c ∉ atoms u := by
        intro h
        have := htail c (List.mem_cons_of_mem _ (mem_of_escaped_mem_atoms h))
        exact Bool.false_ne_true (hc.symm.trans this)
      rw [atoms_append_cons hd, List.mem_append, escaped_mem_atoms_concat hcd, or_iff_left notLater]

/-! ## Lines -/

/-- The number of line feeds in what the atoms spell. -/
def feeds (as : List Atom) : Nat := (spell as).count '\n'

theorem feeds_append (as bs : List Atom) : feeds (as ++ bs) = feeds as + feeds bs := by
  rw [feeds, spell_append, List.count_append]
  rfl

theorem feeds_cons (a : Atom) (as : List Atom) : feeds (a :: as) = feeds [a] + feeds as :=
  feeds_append [a] as

theorem feeds_atoms (t : Text) : feeds (atoms t) = t.count '\n' := by rw [feeds, spell_atoms]

/-- The character `c` is escaped somewhere in line `n` of the text. -/
def EscapedAt (c : Char) (n : Nat) (t : Text) : Prop :=
  ∃ before after, atoms t = before ++ .escaped c :: after ∧ feeds before = n

theorem escapedAt_of_noFeed {t : Text} (ht : '\n' ∉ t) (n : Nat) :
    EscapedAt c n t ↔ n = 0 ∧ .escaped c ∈ atoms t := by
  have noFeeds : ∀ {before after}, atoms t = before ++ .escaped c :: after → feeds before = 0 := by
    intro before after h
    have total : feeds (atoms t) = 0 := by rw [feeds_atoms, List.count_eq_zero.mpr ht]
    rw [h, feeds_append] at total
    exact (Nat.add_eq_zero_iff.mp total).1
  constructor
  · rintro ⟨before, after, h, rfl⟩
    exact ⟨noFeeds h, by simp [h]⟩
  · rintro ⟨rfl, hmem⟩
    obtain ⟨before, after, h⟩ := List.append_of_mem hmem
    exact ⟨before, after, h, noFeeds h⟩

/-- The line feed after the first line stands after everything that is escaped in that line. -/
theorem feeds_of_atoms_concat {first : Text} (hfirst : '\n' ∉ first) {before after : List Atom}
    (h : atoms (first ++ ['\n']) = before ++ .escaped c :: after) : feeds before = 0 := by
  have whole : first ++ ['\n'] = spell before ++ '\\' :: c :: spell after := by
    rw [← spell_atoms (first ++ ['\n']), h]
    simp [Atom.text]
  rcases List.append_eq_append_iff.mp whole with ⟨x, -, hlast⟩ | ⟨x, rfl, -⟩
  · have := congrArg List.length hlast
    simp only [List.length_append, List.length_cons, List.length_nil] at this
    omega
  · exact List.count_eq_zero.mpr fun hmem => hfirst (List.mem_append_left _ hmem)

theorem escapedAt_append_feed (hc : c ≠ '\n') {first : Text} (hfirst : '\n' ∉ first) (u : Text)
    (n : Nat) :
    EscapedAt c n (first ++ '\n' :: u) ↔
      (n = 0 ∧ .escaped c ∈ atoms first) ∨ ∃ m, n = m + 1 ∧ EscapedAt c m u := by
  have cut := atoms_append_cons (d := '\n') (by decide) first u
  have one : feeds (atoms (first ++ ['\n'])) = 1 := by
    simp [feeds_atoms, List.count_eq_zero.mpr hfirst]
  constructor
  · rintro ⟨before, after, h, rfl⟩
    rcases List.append_eq_append_iff.mp (cut.symm.trans h) with ⟨x, rfl, hu⟩ | ⟨x, hA, hx⟩
    · refine Or.inr ⟨feeds x, ?_, x, after, hu, rfl⟩
      rw [feeds_append, one, Nat.add_comm]
    · cases x with
      | nil =>
          refine Or.inr ⟨0, ?_, [], after, hx.symm, rfl⟩
          rw [← one, hA, List.append_nil, Nat.zero_add]
      | cons e x =>
          obtain ⟨rfl, -⟩ := List.cons.inj hx
          refine Or.inl ⟨feeds_of_atoms_concat hfirst hA, ?_⟩
          rw [← escaped_mem_atoms_concat hc, hA]
          simp
  · rintro (⟨rfl, hmem⟩ | ⟨m, rfl, before, after, hu, rfl⟩)
    · rw [← escaped_mem_atoms_concat hc] at hmem
      obtain ⟨before, after, h⟩ := List.append_of_mem hmem
      refine ⟨before, after ++ atoms u, ?_, feeds_of_atoms_concat hfirst h⟩
      rw [cut, h]
      simp
    · refine ⟨atoms (first ++ ['\n']) ++ before, after, ?_, ?_⟩
      · rw [cut, hu]
        simp
      · rw [feeds_append, one, Nat.add_comm]

theorem escapedAt_joinPieces (hc : c ≠ '\n') {ps : List Text} (hps : ∀ p ∈ ps, '\n' ∉ p)
    (hne : ps ≠ []) (n : Nat) :
    EscapedAt c n (joinPieces ps) ↔ ∃ piece, ps[n]? = some piece ∧ .escaped c ∈ atoms piece := by
  fun_induction joinPieces ps generalizing n with
  | case1 => exact absurd rfl hne
  | case2 last =>
      rw [escapedAt_of_noFeed (hps last List.mem_cons_self)]
      cases n with
      | zero => simp
      | succ n => simp
  | case3 piece rest hrest ih =>
      have later : ∀ p ∈ rest, '\n' ∉ p := fun p hp => hps p (List.mem_cons_of_mem _ hp)
      rw [escapedAt_append_feed hc (hps piece List.mem_cons_self)]
      cases n with
      | zero => simp
      | succ n => simpa using ih later (fun h => hrest h) n

/-- The escaped characters of a text are those of its pieces, line by line. -/
theorem escapedAt_iff (hc : c ≠ '\n') (t : Text) (n : Nat) :
    EscapedAt c n t ↔ ∃ piece, t.pieces[n]? = some piece ∧ .escaped c ∈ atoms piece := by
  have noFeeds : ∀ p ∈ t.pieces, '\n' ∉ p := fun _ hp => not_mem_of_mem_splitAtChar hp
  have whole := escapedAt_joinPieces hc noFeeds (pieces_ne_nil t) n
  rwa [joinPieces_pieces] at whole

/-- A line has an escaped character exactly if the text has it there: neither its ending nor the
blanks at its end matter. -/
theorem escaped_mem_line_iff (hc : isBlank c = false) {t line : Text} {n : Nat}
    (h : t.lines[n]? = some line) : .escaped c ∈ atoms (trimEnd line) ↔ EscapedAt c n t := by
  have feed : c ≠ '\n' := by
    rintro rfl
    exact absurd hc (by decide)
  obtain ⟨piece, hpiece, htrim⟩ := exists_piece_of_linesOfPieces h
  rw [escapedAt_iff feed, htrim, escaped_mem_trimEnd_iff hc]
  constructor
  · intro hmem
    exact ⟨piece, hpiece, hmem⟩
  · rintro ⟨piece', hpiece', hmem⟩
    obtain rfl : piece' = piece := Option.some.inj (hpiece'.symm.trans hpiece)
    exact hmem

end Text

end NumeralLint
