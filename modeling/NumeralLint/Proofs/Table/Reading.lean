/-
What the parts of a table line come to.

`RowReading` lists all that can happen to a row, each with its condition, so
that a proof about rows has one case for each.  A column specification is
read up to its closing brace and no further, so reading its own text gives
the same specification (`ColumnSpec.read_source`), and so does reading a
longer text (`ColumnSpec.read_append`).
-/
import NumeralLint.Proofs.Table.Delimiters
import NumeralLint.Proofs.Text.Escape

namespace NumeralLint

namespace Text

/-- The number of row terminators of a text. -/
def terminators (t : Text) : Nat := t.atoms.count .rowTerminator

/-- The content of the row that the first terminator ends. -/
def rowContent (t : Text) : Text := t.beforeAtom .rowTerminator

/-- Whether the row has a cell over several columns. -/
def isSpanning (t : Text) : Bool := t.rowContent.occurs (.literal "\\multicolumn".toList)

/-- A text without terminators has none to place; otherwise the first stands after the content of
its row. -/
theorem terminator_cases (t : Text) :
    (t.terminators = 0 ∧ atomPlaces .rowTerminator 0 t.atoms = []) ∨
      ∃ more rest, t = t.rowContent ++ ('\\' :: '\\' :: rest) ∧ t.rowContent.terminators = 0 ∧
        atomPlaces .rowTerminator 0 t.atoms = t.rowContent.width :: more ∧
        t.terminators = more.length + 1 := by
  rcases atoms_split .rowTerminator t with h | ⟨as, bs, hsplit, hfirst, whole⟩
  · exact Or.inl ⟨List.count_eq_zero.mpr h, atomPlaces_of_not_mem h 0⟩
  · have content : t.rowContent = spell as := beforeAtom_of_atoms hsplit hfirst
    have places := atomPlaces_append hfirst 0 bs
    rw [← hsplit, Nat.zero_add, ← content] at places
    refine Or.inr ⟨_, spell bs, ?_, ?_, places, ?_⟩
    · rw [content]
      conv => lhs; rw [whole]
      simp [Atom.text, Atom.rowTerminator]
    · rw [content, terminators, atoms_spell (t := t) ⟨_, hsplit.symm⟩]
      exact List.count_eq_zero.mpr hfirst
    · have := length_atomPlaces .rowTerminator 0 t.atoms
      rw [places, List.length_cons] at this
      exact this.symm

theorem eq_rowContent_append {t : Text} (h : t.terminators ≠ 0) :
    ∃ rest, t = t.rowContent ++ ('\\' :: '\\' :: rest) ∧ t.rowContent.terminators = 0 := by
  rcases terminator_cases t with ⟨h0, -⟩ | ⟨_, rest, whole, content, -⟩
  · exact absurd h0 h
  · exact ⟨rest, whole, content⟩

end Text

/-! ## Rows -/

namespace Alignment

/-- What can happen to the row in a part `segment` of a line that starts at `column`. -/
inductive RowReading (place : Nat → Nat → Range) (column : Nat) (segment : Text)
    (tally : TableTally) : Reading → Prop
  | none : segment.terminators = 0 → RowReading place column segment tally (tally, [])
  | several : 2 ≤ segment.terminators → RowReading place column segment tally
      (tally, [.severalRows (place (column + segment.rowContent.width)
        (column + segment.rowContent.width + 2))])
  | spanning : segment.terminators = 1 → segment.isSpanning = true →
      RowReading place column segment tally (tally, [.spanningRow])
  | counted : segment.terminators = 1 → segment.isSpanning = false →
      segment.rowContent.cells.length = tally.columns →
      RowReading place column segment tally (tally.addRow segment.rowContent.cells, [])
  | wrong : segment.terminators = 1 → segment.isSpanning = false →
      segment.rowContent.cells.length ≠ tally.columns →
      RowReading place column segment tally
        (tally, [.wrongCellCount (place column (column + segment.rowContent.width))
          segment.rowContent.cells.length tally.columns])

theorem rowReading_readRow (place : Nat → Nat → Range) (column : Nat) (segment : Text)
    (tally : TableTally) :
    RowReading place column segment tally (readRow place column segment tally) := by
  rcases segment.terminator_cases with ⟨h0, places⟩ | ⟨more, rest, -, -, places, count⟩
  · rw [readRow, places]
    exact .none h0
  · cases more with
    | cons next more =>
        rw [readRow, places]
        exact .several (by simp [count])
    | nil =>
        rw [readRow, places]
        dsimp only
        split
        · next hspan => exact .spanning count hspan
        · next hspan =>
            have hspan : segment.isSpanning = false := eq_false_of_ne_true hspan
            split
            · next hcells => exact .counted count hspan hcells
            · next hcells => exact .wrong count hspan hcells

theorem isOpen_readRow (place : Nat → Nat → Range) (column : Nat) (segment : Text)
    (tally : TableTally) : (readRow place column segment tally).1.isOpen = tally.isOpen := by
  have reading := rowReading_readRow place column segment tally
  generalize readRow place column segment tally = outcome at reading
  cases reading <;> rfl

theorem readLine_nil (rule : Alignment) (place : Nat → Nat → Range) (tally : TableTally) :
    rule.readLine place tally [] = (tally, []) := by
  unfold readLine
  split <;> rfl

end Alignment

/-! ## Column specifications -/

theorem Text.append_inj_of_width {s t u v : Text} (h : s ++ t = u ++ v)
    (hw : s.width = u.width) : s = u ∧ t = v := by
  rcases List.append_eq_append_iff.mp h with ⟨w, rfl, rfl⟩ | ⟨w, rfl, rfl⟩
  · rw [Text.width_append] at hw
    have none : Text.width w = 0 := by omega
    obtain rfl := Text.width_eq_zero.mp none
    simp
  · rw [Text.width_append] at hw
    have none : Text.width w = 0 := by omega
    obtain rfl := Text.width_eq_zero.mp none
    simp

namespace ColumnSpec

theorem length_types (spec : ColumnSpec) : spec.types.length = spec.columns := by
  rw [types, columns, List.length_map, List.countP_eq_length_filter]

theorem rest_cases (t : Text) : (read t).rest = [] ∨ ∃ u, (read t).rest = '}' :: u := by
  fun_induction read t with
  | case1 => exact Or.inl rfl
  | case2 t => exact Or.inr ⟨t, rfl⟩
  | case3 _ _ _ _ _ _ ih | case4 _ _ _ _ _ _ ih | case5 _ _ _ _ _ _ ih => exact ih

theorem read_group {t body after : Text} (hbody : t.beforeAtom .groupEnd = body)
    (hafter : t.fromAtom .groupEnd = after) :
    read ('{' :: t) =
      ⟨.group ('{' :: body ++ after.take 1) :: (read (after.drop 1)).items,
        '{' :: body ++ after.take 1 ++ (read (after.drop 1)).source,
        (read (after.drop 1)).rest⟩ := by
  subst hbody hafter
  rw [read]
  rfl

/-- A group ends at the same place whatever follows it; a group that the text does not close ends
with the text, and nothing follows it. -/
theorem group_parted (t u : Text) (hu : t.fromAtom .groupEnd = [] → u = []) :
    Text.beforeAtom .groupEnd (t.beforeAtom .groupEnd ++ (t.fromAtom .groupEnd).take 1 ++ u) =
        t.beforeAtom .groupEnd ∧
      Text.fromAtom .groupEnd (t.beforeAtom .groupEnd ++ (t.fromAtom .groupEnd).take 1 ++ u) =
        (t.fromAtom .groupEnd).take 1 ++ u ∧
      ((t.fromAtom .groupEnd).take 1 ++ u).take 1 = (t.fromAtom .groupEnd).take 1 ∧
      ((t.fromAtom .groupEnd).take 1 ++ u).drop 1 = u := by
  rcases Text.atoms_split .groupEnd t with h | ⟨as, bs, hsplit, hfirst, -⟩
  · have none := Text.fromAtom_of_not_mem h
    obtain rfl := hu none
    rw [none, Text.beforeAtom_of_not_mem h]
    simp [none, Text.beforeAtom_of_not_mem h]
  · have alone : ∀ v, Text.atoms (Atom.groupEnd.text ++ v) = .groupEnd :: Text.atoms v := by
      intro v
      cases v <;> rfl
    obtain ⟨hbefore, hfrom⟩ := Text.cut_at_atom hsplit hfirst alone u
    rw [Text.beforeAtom_of_atoms hsplit hfirst, Text.fromAtom_of_atoms hsplit hfirst]
    exact ⟨hbefore, hfrom, rfl, rfl⟩

theorem read_source (t : Text) :
    read (read t).source = ⟨(read t).items, (read t).source, []⟩ := by
  fun_induction read t with
  | case1 => simp [read]
  | case2 t => simp [read]
  | case3 t body after group spec hc ih =>
      have ends : after = [] → spec.source = [] := by
        intro h
        simp [spec, h, read]
      obtain ⟨hbody, hafter, htake, hdrop⟩ := group_parted t spec.source ends
      have again := read_group hbody hafter
      rw [htake, hdrop, ih] at again
      exact again
  | case4 c t hc hg spec hb ih =>
      simp only [spec] at ih ⊢
      rw [read]
      simp [hc, hg, hb, ih]
  | case5 c t hc hg spec hb ih =>
      simp only [spec] at ih ⊢
      rw [read]
      simp [hc, hg, hb, ih]

/-- A specification that the last brace of a text closes is the text before that brace. -/
theorem read_append_brace {s : Text} (h : (read (s ++ ['}'])).size = s.width) :
    read (s ++ ['}']) = ⟨(read s).items, s, ['}']⟩ := by
  obtain ⟨hsource, hrest⟩ := Text.append_inj_of_width (source_append_rest (s ++ ['}'])) h
  have again := read_source (s ++ ['}'])
  rw [hsource] at again
  rw [again]
  cases hread : read (s ++ ['}']) with
  | mk items source rest =>
      rw [hread] at hsource hrest
      simp only at hsource hrest
      rw [hsource, hrest]

theorem read_append {t : Text} (h : (read t).rest ≠ []) (u : Text) :
    read (t ++ u) = ⟨(read t).items, (read t).source, (read t).rest ++ u⟩ := by
  fun_induction read t with
  | case1 => exact absurd rfl h
  | case2 t => simp [read]
  | case3 t body after group spec hc ih =>
      have later := ih h
      have closed : after ≠ [] := by
        intro hafter
        exact h (by simp [spec, hafter, read])
      rcases Text.atoms_split .groupEnd t with hmem | ⟨as, bs, hsplit, hfirst, whole⟩
      · exact absurd (Text.fromAtom_of_not_mem hmem) closed
      · have alone : ∀ v, Text.atoms (Atom.groupEnd.text ++ v) = .groupEnd :: Text.atoms v := by
          intro v
          cases v <;> rfl
        have hbody : body = Text.spell as := Text.beforeAtom_of_atoms hsplit hfirst
        have hafter : after = '}' :: Text.spell bs := Text.fromAtom_of_atoms hsplit hfirst
        obtain ⟨longBody, longAfter⟩ :=
          Text.cut_at_atom hsplit hfirst alone (Text.spell bs ++ u)
        have longer : t ++ u = Text.spell as ++ Atom.groupEnd.text ++ (Text.spell bs ++ u) := by
          conv => lhs; rw [whole]
          simp only [List.append_assoc]
        have rest : (Atom.groupEnd.text ++ (Text.spell bs ++ u)).drop 1 = after.drop 1 ++ u := by
          rw [hafter]
          rfl
        rw [List.cons_append, longer, read_group longBody longAfter, rest, later, ← hbody]
        simp only [spec, group, hafter]
        rfl
  | case4 c t hc hg spec hb ih =>
      have later := ih h
      simp only [spec] at later ⊢
      rw [List.cons_append, read]
      simp [hc, hg, hb, later]
  | case5 c t hc hg spec hb ih =>
      have later := ih h
      simp only [spec] at later ⊢
      rw [List.cons_append, read]
      simp [hc, hg, hb, later]

end ColumnSpec

namespace Recogniser

theorem exists_specOpening {t inner : Text} (h : specOpening t = some inner) :
    ∃ before, t = before ++ '{' :: inner := by
  obtain ⟨u, hu, hafter⟩ := andThen_eq_some.mp h
  obtain ⟨v, hv, hopen⟩ := andThen_eq_some.mp hafter
  obtain ⟨front, ht⟩ := reads_many isBlank hu
  have position : Reads ((bracketed '[' ']').andThen blanks) :=
    reads_andThen (reads_bracketed '[' ']') (reads_many isBlank)
  obtain ⟨middle, hm⟩ := reads_optional position hv
  refine ⟨front ++ middle, ?_⟩
  rw [← ht, ← hm, literal_eq_some.mp hopen]
  simp

/-- Where something is left of the text, a longer text is read alike. -/
def Extends (r : Recogniser) : Prop :=
  ∀ ⦃t rest⦄, rest ≠ [] → r t = some rest → ∀ u, r (t ++ u) = some (rest ++ u)

theorem extends_literal (s : Text) : Extends (literal s) := by
  intro t rest _ h u
  rw [literal_eq_some.mp h, List.append_assoc]
  exact literal_eq_some.mpr rfl

theorem extends_many (p : Char → Bool) : Extends (many p) := by
  intro t rest hne h u
  obtain rfl := Option.some.inj h
  rw [many, List.dropWhile_append, if_neg (by simpa using hne)]

theorem extends_andThen {r s : Recogniser} (hr : Extends r) (hs : Extends s) (hreads : Reads s) :
    Extends (r.andThen s) := by
  intro t rest hne h u
  obtain ⟨v, hv, hrest⟩ := andThen_eq_some.mp h
  have more : v ≠ [] := by
    rintro rfl
    exact hne (List.suffix_nil.mp (hreads hrest))
  exact andThen_eq_some.mpr ⟨v ++ u, hr more hv u, hs hne hrest u⟩

/-- A longer text has the same beginning of a column specification: what stands before the brace
ends at the brace, also where nothing follows it. -/
theorem specOpening_append {t inner : Text} (h : specOpening t = some inner) (u : Text) :
    specOpening (t ++ u) = some (inner ++ u) := by
  have hbracketed : Extends (bracketed '[' ']') :=
    extends_andThen (extends_literal _)
      (extends_andThen (extends_many _) (extends_literal _) (reads_literal _))
      (reads_andThen (reads_many _) (reads_literal _))
  have hposition : Extends ((bracketed '[' ']').andThen blanks) :=
    extends_andThen hbracketed (extends_many _) (reads_many _)
  have readsPosition : Reads ((bracketed '[' ']').andThen blanks) :=
    reads_andThen (reads_bracketed '[' ']') (reads_many isBlank)
  obtain ⟨v, hv, hafter⟩ := andThen_eq_some.mp h
  obtain ⟨w, hw, hbrace⟩ := andThen_eq_some.mp hafter
  obtain rfl : w = '{' :: inner := literal_eq_some.mp hbrace
  have more : v ≠ [] := by
    rintro rfl
    exact List.cons_ne_nil _ _ (List.suffix_nil.mp (reads_optional readsPosition hw))
  refine andThen_eq_some.mpr ⟨v ++ u, extends_many isBlank more hv u, ?_⟩
  refine andThen_eq_some.mpr ⟨'{' :: inner ++ u, ?_, literal_eq_some.mpr rfl⟩
  cases hp : (bracketed '[' ']').andThen blanks v with
  | some rest =>
      obtain rfl : rest = '{' :: inner := by simpa [optional, hp] using hw
      simp [optional, hposition (List.cons_ne_nil _ _) hp u]
  | none =>
      obtain rfl : v = '{' :: inner := by simpa [optional, hp] using hw
      rfl

end Recogniser

end NumeralLint
