/-
Every scan agrees on what a backslash escapes.

Row terminators, comments, display math and groups are looked for by four
scans, each of which passes a backslash together with what it escapes.
`EscapesByParity` says what each of them finds by the number of backslashes
alone: how many stand right before a character, and how long a run of them is.
Comments are removed between two atoms, so the row terminators before a
comment stay where they are, and no others appear.
-/
import NumeralLint.Proofs.Table.Slices
import NumeralLint.Proofs.Text.Parity

namespace NumeralLint

namespace Text

/-! ## Escaped and unescaped characters -/

/-- `c` stands in the text after `before`, with an even number of backslashes right before it. -/
def IsUnescaped (c : Char) (t before : Text) : Prop :=
  Even (finalBackslashes before) ∧ ∃ after, t = before ++ c :: after

/-- `c` stands in the text after `before`, with an odd number of backslashes right before it. -/
def IsEscaped (c : Char) (t before : Text) : Prop :=
  Odd (finalBackslashes before) ∧ ∃ after, t = before ++ c :: after

/-- The first unescaped `c` of the text stands after `before`. -/
def IsFirstUnescaped (c : Char) (t before : Text) : Prop :=
  IsUnescaped c t before ∧ ∀ other, IsUnescaped c t other → before <+: other

/-- `size` backslashes stand in the text from the byte `start` on, and no other backslash before or
after them. -/
def BackslashRun (t : Text) (start size : Nat) : Prop :=
  ∃ before after, t = before ++ List.replicate size '\\' ++ after ∧ before.width = start ∧
    before.getLast? ≠ some '\\' ∧ after.head? ≠ some '\\'

variable {c : Char} {t : Text}

theorem exists_plain_iff (hc : c ≠ '\\') {before : Text} :
    IsUnescaped c t before ↔ ∃ as bs, atoms t = as ++ .plain c :: bs ∧ spell as = before := by
  have notLone : Atom.plain c ≠ .plain '\\' := by simpa using hc
  rw [exists_atoms_iff notLone]
  simp [IsUnescaped, Atom.text]

theorem beforeAtom_cases (hc : c ≠ '\\') (t : Text) :
    ((∀ before, ¬ IsUnescaped c t before) ∧ beforeAtom (.plain c) t = t ∧
        fromAtom (.plain c) t = []) ∨
      IsFirstUnescaped c t (beforeAtom (.plain c) t) ∧
        ∃ rest, fromAtom (.plain c) t = c :: rest := by
  rcases atoms_split (.plain c) t with hnone | ⟨as, bs, hsplit, hfirst, -⟩
  · refine Or.inl ⟨?_, beforeAtom_of_not_mem hnone, fromAtom_of_not_mem hnone⟩
    intro before h
    obtain ⟨as, bs, hatoms, -⟩ := (exists_plain_iff hc).mp h
    exact hnone (by simp [hatoms])
  · refine Or.inr ⟨?_, _, fromAtom_of_atoms hsplit hfirst⟩
    rw [beforeAtom_of_atoms hsplit hfirst]
    refine ⟨(exists_plain_iff hc).mpr ⟨as, bs, hsplit, rfl⟩, ?_⟩
    intro other hother
    obtain ⟨as', bs', hsplit', rfl⟩ := (exists_plain_iff hc).mp hother
    rcases List.append_eq_append_iff.mp (hsplit.symm.trans hsplit') with
      ⟨x, rfl, -⟩ | ⟨x, rfl, hx⟩
    · exact ⟨spell x, (spell_append as x).symm⟩
    · cases x with
      | nil => simp
      | cons a x =>
          obtain ⟨rfl, -⟩ := List.cons.inj hx
          exact absurd (List.mem_append_right as' List.mem_cons_self) hfirst

theorem isUnescaped_append_iff {u : Text} (hu : c ∉ u) {before : Text} :
    IsUnescaped c (t ++ u) before ↔ IsUnescaped c t before := by
  constructor
  · rintro ⟨heven, after, whole⟩
    rcases append_eq_append_cons whole with ⟨v, rfl, -⟩ | ⟨v, -, rfl⟩
    · exact ⟨heven, v, rfl⟩
    · exact absurd (List.mem_append_right v List.mem_cons_self) hu
  · rintro ⟨heven, after, rfl⟩
    exact ⟨heven, after ++ u, by simp⟩

theorem isFirstUnescaped_append_iff {u : Text} (hu : c ∉ u) {before : Text} :
    IsFirstUnescaped c (t ++ u) before ↔ IsFirstUnescaped c t before := by
  simp only [IsFirstUnescaped, isUnescaped_append_iff hu]

/-! ## Row terminators -/

theorem width_replicate_backslash (n : Nat) : width (List.replicate n '\\') = n := by
  induction n with
  | zero => rfl
  | succ n ih =>
      have size : Char.utf8Size '\\' = 1 := rfl
      rw [List.replicate_succ, width_cons, ih, size, Nat.add_comm]

theorem exists_replicate_append (t : Text) :
    ∃ n rest, t = List.replicate n '\\' ++ rest ∧ rest.head? ≠ some '\\' := by
  induction t with
  | nil => exact ⟨0, [], rfl, by simp⟩
  | cons c t ih =>
      by_cases hc : c = '\\'
      · obtain ⟨n, rest, rfl, hrest⟩ := ih
        exact ⟨n + 1, rest, by rw [hc, List.replicate_succ, List.cons_append], hrest⟩
      · exact ⟨0, c :: t, rfl, by simpa using hc⟩

/-- A run of backslashes holds a row terminator for each two of them, from its start on. -/
theorem mem_terminators_iff {p : Nat} :
    p ∈ placesOf .rowTerminator t ↔
      ∃ start size k, BackslashRun t start size ∧ k < size / 2 ∧ p = start + 2 * k := by
  have text : Atom.rowTerminator.text = List.replicate 2 '\\' := rfl
  rw [mem_placesOf_iff (by decide), text]
  constructor
  · rintro ⟨before, after, rfl, ⟨k, hk⟩, rfl⟩
    obtain ⟨front, hbefore, hfront⟩ := exists_append_replicate before
    obtain ⟨n, back, rfl, hback⟩ := exists_replicate_append after
    rw [hk] at hbefore
    have run : BackslashRun (before ++ List.replicate 2 '\\' ++ (List.replicate n '\\' ++ back))
        front.width (k + k + 2 + n) := by
      refine ⟨front, back, ?_, rfl, hfront, hback⟩
      rw [hbefore, List.replicate_add (k + k + 2) n, List.replicate_add (k + k) 2]
      simp only [List.append_assoc]
    have place : before.width = front.width + 2 * k := by
      rw [hbefore, width_append, width_replicate_backslash]
      omega
    exact ⟨front.width, k + k + 2 + n, k, run, by omega, place⟩
  · rintro ⟨start, size, k, ⟨front, back, rfl, rfl, hfront, -⟩, hk, rfl⟩
    obtain ⟨n, rfl⟩ : ∃ n, size = 2 * k + 2 + n := ⟨size - (2 * k + 2), by omega⟩
    refine ⟨front ++ List.replicate (2 * k) '\\', List.replicate n '\\' ++ back, ?_, ?_, ?_⟩
    · rw [List.replicate_add (2 * k + 2) n, List.replicate_add (2 * k) 2]
      simp only [List.append_assoc]
    · rw [finalBackslashes_append, finalBackslashes_replicate, List.length_replicate, if_pos rfl,
        finalBackslashes_eq_zero_iff.mpr hfront, Nat.zero_add]
      exact even_two_mul k
    · rw [width_append, width_replicate_backslash]

example : placesOf .rowTerminator ['a', '\\', '\\', '\\', '\\', '\\', 'b'] = [1, 3] := by decide

theorem atomPlaces_append_atoms (a : Atom) (place : Nat) (as bs : List Atom) :
    atomPlaces a place (as ++ bs) =
      atomPlaces a place as ++ atomPlaces a (place + width (spell as)) bs := by
  induction as generalizing place with
  | nil => rfl
  | cons b as ih =>
      rw [List.cons_append, atomPlaces, ih, spell_cons, width_append, ← Nat.add_assoc, atomPlaces]
      split <;> rfl

/-- What follows a cut between two atoms adds places after the cut. -/
theorem placesOf_append_of_even (a : Atom) {s : Text} (h : Even (finalBackslashes s)) (u : Text) :
    placesOf a (s ++ u) = placesOf a s ++ atomPlaces a s.width (atoms u) := by
  rw [placesOf, atoms_append_of_even h, atomPlaces_append_atoms, spell_atoms, Nat.zero_add]
  rfl

theorem filter_placesOf {a : Atom} {s : Text} (h : Even (finalBackslashes s)) (u : Text) :
    (placesOf a (s ++ u)).filter (· < s.width) = placesOf a s := by
  have inside : ∀ p ∈ placesOf a s, decide (p < s.width) = true := by
    intro p hp
    obtain ⟨before, after, hatoms, rfl⟩ := mem_atomPlaces_iff.mp hp
    have whole := congrArg width (congrArg spell hatoms)
    have size : width a.text ≠ 0 := fun hzero => Atom.text_ne_nil a (width_eq_zero.mp hzero)
    rw [spell_atoms, spell_append, spell_cons, width_append, width_append] at whole
    exact decide_eq_true (by omega)
  have outside : ∀ p ∈ atomPlaces a s.width (atoms u), ¬ decide (p < s.width) = true := by
    intro p hp
    obtain ⟨before, after, -, rfl⟩ := mem_atomPlaces_iff.mp hp
    simp
  rw [placesOf_append_of_even a h, List.filter_append, List.filter_eq_self.mpr inside,
    List.filter_eq_nil_iff.mpr outside, List.append_nil]

/-- Where a text goes on after a cut without backslashes, nothing is escaped after the cut. -/
theorem placesOf_append_of_not_mem {s u : Text} (h : Even (finalBackslashes s)) (hu : '\\' ∉ u) :
    placesOf .rowTerminator (s ++ u) = placesOf .rowTerminator s := by
  have none : .rowTerminator ∉ atoms u := fun hmem => hu (mem_of_escaped_mem_atoms hmem)
  rw [placesOf_append_of_even _ h, atomPlaces_of_not_mem none, List.append_nil]

/-! ## Comments -/

/-- A line loses what follows its first unescaped percent sign and the sign itself; the row
terminators before the sign stay. -/
theorem comment_cases (h : '\n' ∉ t) :
    (∃ before, IsFirstUnescaped '%' t before ∧
        t.withoutComments = before ++ t.pieceReturns ∧
        placesOf .rowTerminator t.withoutComments =
          (placesOf .rowTerminator t).filter (· < before.width)) ∨
      (∀ before, ¬ IsUnescaped '%' t before) ∧ t.withoutComments = t := by
  obtain ⟨whole, hreturns⟩ := pieceBody_append_pieceReturns t
  have noSign : '%' ∉ t.pieceReturns := fun hmem => absurd (hreturns _ hmem) (by decide)
  have noSlash : '\\' ∉ t.pieceReturns := fun hmem => absurd (hreturns _ hmem) (by decide)
  have kept : t.withoutComments = beforeAtom (.plain '%') t.pieceBody ++ t.pieceReturns := by
    rw [withoutComments, pieces_of_noFeed h]
    rfl
  rcases beforeAtom_cases (c := '%') (by decide) t.pieceBody with ⟨hnone, hbefore, -⟩ | ⟨hfirst, -⟩
  · refine Or.inr ⟨?_, ?_⟩
    · intro before hsign
      rw [← whole, isUnescaped_append_iff noSign] at hsign
      exact hnone before hsign
    · rw [kept, hbefore, whole]
  · rw [← isFirstUnescaped_append_iff noSign, whole] at hfirst
    refine Or.inl ⟨_, hfirst, kept, ?_⟩
    obtain ⟨⟨heven, after, hsign⟩, -⟩ := hfirst
    rw [kept]
    generalize beforeAtom (.plain '%') t.pieceBody = before at heven hsign ⊢
    rw [placesOf_append_of_not_mem heven noSlash, hsign]
    exact (filter_placesOf heven _).symm

/-! ## Display math -/

theorem hasAtom_escaped_iff :
    t.hasAtom (.escaped c) = true ↔ ∃ before, IsEscaped c t before := by
  have notLone : Atom.escaped c ≠ .plain '\\' := by simp
  constructor
  · intro h
    obtain ⟨as, bs, hatoms⟩ := List.append_of_mem (List.contains_iff_mem.mp h)
    obtain ⟨heven, after, whole⟩ := (exists_atoms_iff notLone).mp ⟨as, bs, hatoms, rfl⟩
    refine ⟨spell as ++ ['\\'], ?_, after, by simpa [Atom.text] using whole⟩
    rw [finalBackslashes_concat, if_pos rfl]
    exact heven.add_one
  · rintro ⟨before, hodd, after, rfl⟩
    rcases List.eq_nil_or_concat before with rfl | ⟨front, d, rfl⟩
    · exact absurd hodd (by decide)
    · rw [List.concat_eq_append] at hodd ⊢
      rw [finalBackslashes_concat] at hodd
      split at hodd
      · next hd =>
          have heven : Even (finalBackslashes front) := by
            by_contra hne
            exact Nat.not_odd_iff_even.mpr (Nat.even_add_one.mpr hne) hodd
          have whole : front ++ [d] ++ c :: after = front ++ (Atom.escaped c).text ++ after := by
            simp [hd, Atom.text]
          obtain ⟨as, bs, hatoms, -⟩ := (exists_atoms_iff notLone).mpr ⟨heven, after, whole⟩
          rw [hasAtom, hatoms]
          exact List.contains_iff_mem.mpr (List.mem_append_right as List.mem_cons_self)
      · exact absurd hodd (by decide)

end Text

/-! ## Groups -/

namespace ColumnSpec

open Text

/-- `group` is the group that an opening brace before `inner` starts: it goes on to the first
unescaped closing brace, or to the end of the text if there is none. -/
def IsGroupBefore (inner group : Text) : Prop :=
  (∃ body, IsFirstUnescaped '}' inner body ∧ group = '{' :: body ++ ['}']) ∨
    (∀ body, ¬ IsUnescaped '}' inner body) ∧ group = '{' :: inner

theorem isGroupBefore (inner : Text) :
    IsGroupBefore inner ('{' :: inner.beforeAtom .groupEnd ++ (inner.fromAtom .groupEnd).take 1) := by
  rcases beforeAtom_cases (c := '}') (by decide) inner with
    ⟨hnone, hbefore, hfrom⟩ | ⟨hfirst, rest, hfrom⟩
  · refine Or.inr ⟨hnone, ?_⟩
    have before : inner.beforeAtom .groupEnd = inner := hbefore
    have nothing : inner.fromAtom .groupEnd = [] := hfrom
    rw [before, nothing, List.take_nil, List.append_nil]
  · refine Or.inl ⟨_, hfirst, ?_⟩
    have brace : inner.fromAtom .groupEnd = '}' :: rest := hfrom
    rw [brace]
    rfl

end ColumnSpec

/-! ## The four scans -/

namespace Text

/-- What the scans of a text find, by the number of backslashes before a character. -/
structure EscapesByParity (t : Text) : Prop where
  /-- Row terminators are found from left to right. -/
  terminators_sorted : (placesOf .rowTerminator t).Pairwise (· < ·)
  /-- They are the pairs of backslashes that each run of backslashes holds from its start on. -/
  terminators : ∀ p, p ∈ placesOf .rowTerminator t ↔
    ∃ start size k, BackslashRun t start size ∧ k < size / 2 ∧ p = start + 2 * k
  /-- The comment of a line starts at its first unescaped percent sign.  Without the comment the
  line has the row terminators that stand before it. -/
  comment : '\n' ∉ t →
    (∃ before, IsFirstUnescaped '%' t before ∧ t.withoutComments = before ++ t.pieceReturns ∧
        placesOf .rowTerminator t.withoutComments =
          (placesOf .rowTerminator t).filter (· < before.width)) ∨
      (∀ before, ¬ IsUnescaped '%' t before) ∧ t.withoutComments = t
  /-- Display math begins at an escaped opening bracket and ends at an escaped closing one. -/
  display : ∀ c ∈ ['[', ']'], t.hasAtom (.escaped c) = true ↔ ∃ before, IsEscaped c t before
  /-- A group goes from its opening brace to the first unescaped closing brace after it. -/
  group : ∀ front inner, t = front ++ '{' :: inner → ∃ group,
    ColumnSpec.IsGroupBefore inner group ∧
      (ColumnSpec.read ('{' :: inner)).items.head? = some (.group group) ∧
      ColumnSpec.groupEnd t front.width = (front ++ group).width
  /-- Loops over the bytes of the text, which may step into the middle of a character, find the
  same. -/
  loops : ∀ a, AtomIsAscii a → loopPlaces a t = placesOf a t

/-- All scans go by the parity of backslashes, whatever the text. -/
theorem escapesByParity (t : Text) : EscapesByParity t where
  terminators_sorted := sortedLT_atomPlaces .rowTerminator 0 (atoms t)
  terminators _ := mem_terminators_iff
  comment := comment_cases
  display _ _ := hasAtom_escaped_iff
  group := by
    rintro front inner rfl
    refine ⟨_, ColumnSpec.isGroupBefore inner, ?_, ColumnSpec.groupEnd_eq front inner⟩
    rw [ColumnSpec.read_group rfl rfl]
    rfl
  loops _ ha := loopPlaces_eq ha t

end Text

end NumeralLint
