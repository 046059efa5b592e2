/-
Cells of a row, and the ampersands that separate them.

Cells are read by substitution: escaped ampersands are replaced, and the text
is split at the ampersands that are left.  That is a split at the ampersands
that no backslash precedes, whatever the text
(`splitAtChar_maskAmpersands`).  It is also a split at the unescaped ones,
since the content of a row has no two backslashes in a row, and since the
commands before it are never cut off right after a backslash
(`exists_rowCells`).
-/
import NumeralLint.Proofs.Table.Reading
import NumeralLint.Proofs.Text.Parity

namespace NumeralLint

namespace Text

/-! ## Splitting at ampersands -/

/-- The parts of a text between the ampersands that no backslash precedes; `last` is the character
before the text, if there is one. -/
def splitUnescaped (last : Option Char) : Text → List Text
  | [] => [[]]
  | c :: t =>
      if c = '&' ∧ last ≠ some '\\' then [] :: splitUnescaped (some c) t
      else (splitUnescaped (some c) t).modifyHead (c :: ·)

/-- The ampersand between `before` and `after` separates two of the parts. -/
def Separates (parts : List Text) (before after : Text) : Prop :=
  ∃ xs ys, parts = xs ++ ys ∧ xs ≠ [] ∧ ys ≠ [] ∧
    ['&'].intercalate xs = before ∧ ['&'].intercalate ys = after

variable {last : Option Char} {c : Char} {t : Text}

theorem splitUnescaped_cons_of_separator (h : c = '&' ∧ last ≠ some '\\') :
    splitUnescaped last (c :: t) = [] :: splitUnescaped (some c) t := if_pos h

theorem splitUnescaped_cons_of_kept (h : ¬ (c = '&' ∧ last ≠ some '\\')) :
    splitUnescaped last (c :: t) = (splitUnescaped (some c) t).modifyHead (c :: ·) := if_neg h

theorem splitUnescaped_ne_nil (last : Option Char) (t : Text) : splitUnescaped last t ≠ [] := by
  induction t generalizing last with
  | nil => exact List.cons_ne_nil _ _
  | cons c t ih =>
      rw [splitUnescaped]
      split
      · exact List.cons_ne_nil _ _
      · simpa using ih (some c)

theorem exists_splitUnescaped (last : Option Char) (t : Text) :
    ∃ first rest, splitUnescaped last t = first :: rest :=
  List.exists_cons_of_ne_nil (splitUnescaped_ne_nil last t)

theorem maskAmpersands_cons_of_kept (h : ¬ (c = '\\' ∧ t.head? = some '&')) :
    maskAmpersands (c :: t) = c :: maskAmpersands t := by
  cases t with
  | nil => rfl
  | cons d t =>
      rw [maskAmpersands]
      exact if_neg (by simpa using h)

/-- The first part starts with an ampersand only where the text does. -/
theorem head?_of_splitUnescaped {first : Text} {rest : List Text}
    (h : splitUnescaped last t = first :: rest) (hfirst : first.head? = some '&') :
    t.head? = some '&' := by
  cases t with
  | nil =>
      obtain ⟨rfl, -⟩ := List.cons.inj h
      exact absurd hfirst (by simp)
  | cons c t =>
      rw [splitUnescaped] at h
      split at h
      · obtain ⟨rfl, -⟩ := List.cons.inj h
        exact absurd hfirst (by simp)
      · obtain ⟨part, parts, hparts⟩ := exists_splitUnescaped (some c) t
        rw [hparts, List.modifyHead_cons] at h
        obtain ⟨rfl, -⟩ := List.cons.inj h
        exact hfirst

/-- Replacing the escaped ampersands and splitting at the others is splitting at the ampersands that
no backslash precedes, and replacing the others in each part. -/
theorem splitAtChar_maskAmpersands (h : last = some '\\' → t.head? ≠ some '&') :
    splitAtChar '&' (maskAmpersands t) = (splitUnescaped last t).map maskAmpersands := by
  rw [splitAtChar_eq_splitOn]
  fun_induction maskAmpersands t generalizing last with
  | case1 => rfl
  | case2 c =>
      by_cases hc : c = '&'
      · have separator : c = '&' ∧ last ≠ some '\\' := ⟨hc, fun hlast => h hlast (by simp [hc])⟩
        rw [splitUnescaped_cons_of_separator separator]
        simp [hc, splitUnescaped, maskAmpersands, List.splitOn_cons_eq_if_modifyHead]
      · simp [hc, splitUnescaped, maskAmpersands, List.splitOn_cons_eq_if_modifyHead]
  | case3 c d t hcd ih =>
      obtain ⟨rfl, rfl⟩ := hcd
      obtain ⟨first, rest, hparts⟩ := exists_splitUnescaped (some '&') t
      have later := @ih (some '&') (by simp)
      simp only [hparts, List.map_cons] at later
      simp [splitUnescaped, hparts, maskAmpersands, List.splitOn_cons_eq_if_modifyHead, later]
  | case4 c d t hcd ih =>
      have later := @ih (some c) fun hc hd => hcd ⟨Option.some.inj hc, by simpa using hd⟩
      rw [List.splitOn_cons_eq_if_modifyHead, later]
      by_cases hc : c = '&'
      · have separator : c = '&' ∧ last ≠ some '\\' := ⟨hc, fun hlast => h hlast (by simp [hc])⟩
        rw [splitUnescaped_cons_of_separator separator, if_pos (beq_iff_eq.mpr hc)]
        rfl
      · have kept : ¬ (c = '&' ∧ last ≠ some '\\') := fun hsep => hc hsep.1
        obtain ⟨first, rest, hparts⟩ := exists_splitUnescaped (some c) (d :: t)
        have whole : maskAmpersands (c :: first) = c :: maskAmpersands first := by
          refine maskAmpersands_cons_of_kept fun hfirst => hcd ⟨hfirst.1, ?_⟩
          simpa using head?_of_splitUnescaped hparts hfirst.2
        rw [splitUnescaped_cons_of_kept kept, if_neg (by simpa using hc), hparts]
        simp [whole]

/-! ## Which ampersands separate -/

theorem separates_nil_cons (parts : List Text) (hparts : parts ≠ []) (before after : Text) :
    Separates ([] :: parts) before after ↔
      before = [] ∧ ['&'].intercalate parts = after ∨
        ∃ front, before = '&' :: front ∧ Separates parts front after := by
  constructor
  · rintro ⟨xs, ys, hsplit, hxs, hys, rfl, rfl⟩
    obtain ⟨x, xs, rfl⟩ := List.exists_cons_of_ne_nil hxs
    obtain ⟨rfl, rfl⟩ := List.cons.inj hsplit
    cases xs with
    | nil => exact Or.inl ⟨rfl, rfl⟩
    | cons y xs =>
        exact Or.inr ⟨_, by simp [List.intercalate_cons_cons],
          y :: xs, ys, rfl, List.cons_ne_nil _ _, hys, rfl, rfl⟩
  · rintro (⟨rfl, rfl⟩ | ⟨front, rfl, xs, ys, rfl, hxs, hys, rfl, rfl⟩)
    · exact ⟨[[]], parts, rfl, List.cons_ne_nil _ _, hparts, rfl, rfl⟩
    · obtain ⟨x, xs, rfl⟩ := List.exists_cons_of_ne_nil hxs
      exact ⟨[] :: x :: xs, ys, rfl, List.cons_ne_nil _ _, hys,
        by simp [List.intercalate_cons_cons], rfl⟩

theorem intercalate_cons_head (c : Char) (x : Text) (xs : List Text) :
    ['&'].intercalate ((c :: x) :: xs) = c :: ['&'].intercalate (x :: xs) := by
  cases xs with
  | nil => rfl
  | cons y ys => simp [List.intercalate_cons_cons]

theorem separates_modifyHead (c : Char) (parts : List Text) (before after : Text) :
    Separates (parts.modifyHead (c :: ·)) before after ↔
      ∃ front, before = c :: front ∧ Separates parts front after := by
  constructor
  · rintro ⟨xs, ys, hsplit, hxs, hys, rfl, rfl⟩
    obtain ⟨x, xs, rfl⟩ := List.exists_cons_of_ne_nil hxs
    cases parts with
    | nil => exact absurd hsplit (by simp)
    | cons part parts =>
        obtain ⟨rfl, rfl⟩ := List.cons.inj hsplit
        exact ⟨_, intercalate_cons_head c part xs,
          part :: xs, ys, rfl, List.cons_ne_nil _ _, hys, rfl, rfl⟩
  · rintro ⟨front, rfl, xs, ys, rfl, hxs, hys, rfl, rfl⟩
    obtain ⟨x, xs, rfl⟩ := List.exists_cons_of_ne_nil hxs
    exact ⟨(c :: x) :: xs, ys, rfl, List.cons_ne_nil _ _, hys, intercalate_cons_head c x xs, rfl⟩

theorem intercalate_splitUnescaped (last : Option Char) (t : Text) :
    ['&'].intercalate (splitUnescaped last t) = t := by
  induction t generalizing last with
  | nil => rfl
  | cons c t ih =>
      obtain ⟨first, rest, hparts⟩ := exists_splitUnescaped (some c) t
      have later := ih (some c)
      rw [splitUnescaped]
      split
      · next h =>
          rw [hparts, List.intercalate_cons_cons, ← hparts, later, h.1]
          rfl
      · rw [hparts, List.modifyHead_cons, intercalate_cons_head, ← hparts, later]

/-- An ampersand separates parts exactly if no backslash stands before it. -/
theorem separates_splitUnescaped_iff (last : Option Char) (before after : Text) :
    Separates (splitUnescaped last (before ++ '&' :: after)) before after ↔
      (before.getLast?.or last) ≠ some '\\' := by
  induction before generalizing last with
  | nil =>
      rw [List.nil_append, splitUnescaped]
      split
      · next h =>
          rw [separates_nil_cons _ (splitUnescaped_ne_nil _ _)]
          simpa [intercalate_splitUnescaped] using h.2
      · next h =>
          rw [separates_modifyHead]
          simpa using h
  | cons c before ih =>
      have later := ih (some c)
      have step : (c :: before).getLast?.or last = before.getLast?.or (some c) := by
        cases hlast : before.getLast? <;> simp [List.getLast?_cons, hlast]
      rw [step, ← later, List.cons_append, splitUnescaped]
      split
      · next h =>
          rw [separates_nil_cons _ (splitUnescaped_ne_nil _ _)]
          simp [h.1]
      · rw [separates_modifyHead]
        simp

/-! ## Texts without row terminators -/

/-- A text without row terminators has no two backslashes in a row. -/
theorem even_finalBackslashes_iff_of_single (h : .rowTerminator ∉ atoms t) {before after : Text}
    (ht : t = before ++ after) :
    Even (finalBackslashes before) ↔ before.getLast? ≠ some '\\' := by
  rw [← finalBackslashes_eq_zero_iff]
  obtain ⟨front, hfront, hlast⟩ := exists_append_replicate before
  have start : finalBackslashes front = 0 := finalBackslashes_eq_zero_iff.mpr hlast
  generalize finalBackslashes before = n at hfront ⊢
  have few : n < 2 := by
    by_contra hmany
    obtain ⟨k, rfl⟩ : ∃ k, n = 2 + k := ⟨n - 2, by omega⟩
    have whole : t = front ++ Atom.rowTerminator.text ++ (List.replicate k '\\' ++ after) := by
      have two : Atom.rowTerminator.text = List.replicate 2 '\\' := rfl
      rw [ht, hfront, List.replicate_add, two]
      simp only [List.append_assoc]
    have even : Even (finalBackslashes front) := by simp [start]
    obtain ⟨as, bs, hatoms, -⟩ := (exists_atoms_iff (by decide)).mpr ⟨even, _, whole⟩
    exact h (hatoms ▸ List.mem_append_right as List.mem_cons_self)
  constructor
  · rintro ⟨k, hk⟩
    omega
  · rintro rfl
    exact ⟨0, rfl⟩

theorem length_splitUnescaped (h : .rowTerminator ∉ atoms t) (hlast : last ≠ some '\\') :
    (splitUnescaped last t).length = 1 + (placesOf (.plain '&') t).length := by
  rw [placesOf, length_atomPlaces]
  fun_induction atoms t generalizing last with
  | case1 => rfl
  | case2 c =>
      by_cases hc : c = '&' <;> simp [splitUnescaped, hc, hlast]
  | case3 d t ih =>
      obtain ⟨hd, ht⟩ := not_or.mp (mt List.mem_cons.mpr h)
      have single : d ≠ '\\' := fun heq => hd (by rw [heq]; rfl)
      have later := @ih (some d) ht (by simpa using single)
      simpa [splitUnescaped] using later
  | case4 c d t hc ih =>
      obtain ⟨-, ht⟩ := not_or.mp (mt List.mem_cons.mpr h)
      have later := @ih (some c) ht (by simpa using hc)
      rw [splitUnescaped, List.count_cons]
      by_cases ha : c = '&'
      · rw [if_pos ⟨ha, hlast⟩, List.length_cons, later]
        simp [ha]
        omega
      · rw [if_neg fun hsep => ha hsep.1, List.length_modifyHead, later]
        simp [ha]

theorem rowTerminator_not_mem_rowContent (t : Text) : .rowTerminator ∉ atoms t.rowContent := by
  rcases atoms_split .rowTerminator t with hnone | ⟨as, bs, hsplit, hfirst, -⟩
  · rw [rowContent, beforeAtom_of_not_mem hnone]
    exact hnone
  · rw [rowContent, beforeAtom_of_atoms hsplit hfirst, atoms_spell ⟨_, hsplit.symm⟩]
    exact hfirst

end Text

/-! ## What is taken off before the cells -/

theorem getLast?_append_ne {c : Char} {s t : Text} (hs : s.getLast? ≠ some c)
    (ht : t.getLast? ≠ some c) : (s ++ t).getLast? ≠ some c := by
  intro hlast
  rw [List.getLast?_append] at hlast
  rcases Option.or_eq_some_iff.mp hlast with h | ⟨-, h⟩
  · exact ht h
  · exact hs h

namespace Recogniser

variable {c : Char} {r s : Recogniser}

/-- The pieces that are read never end in `c`. -/
def NeverEndsIn (c : Char) (r : Recogniser) : Prop :=
  ∀ ⦃t rest⦄, r t = some rest → ∃ piece, t = piece ++ rest ∧ piece.getLast? ≠ some c

theorem neverEndsIn_literal {w : Text} (h : w.getLast? ≠ some c) : NeverEndsIn c (literal w) := by
  intro t rest ht
  exact ⟨w, literal_eq_some.mp ht, h⟩

theorem neverEndsIn_many {p : Char → Bool} (h : p c = false) : NeverEndsIn c (many p) := by
  intro t rest ht
  obtain rfl := Option.some.inj ht
  refine ⟨t.takeWhile p, List.takeWhile_append_dropWhile.symm, fun hlast => ?_⟩
  have inside := List.mem_takeWhile_imp (List.mem_of_getLast? hlast)
  exact Bool.false_ne_true (h.symm.trans inside)

theorem neverEndsIn_andThen (hr : NeverEndsIn c r) (hs : NeverEndsIn c s) :
    NeverEndsIn c (r.andThen s) := by
  intro t rest ht
  obtain ⟨u, hu, hrest⟩ := andThen_eq_some.mp ht
  obtain ⟨first, rfl, hfirst⟩ := hr hu
  obtain ⟨second, rfl, hsecond⟩ := hs hrest
  exact ⟨first ++ second, (List.append_assoc _ _ _).symm, getLast?_append_ne hfirst hsecond⟩

theorem neverEndsIn_orElse (hr : NeverEndsIn c r) (hs : NeverEndsIn c s) :
    NeverEndsIn c (r.orElse s) := by
  intro t rest ht
  rcases Option.or_eq_some_iff.mp ht with h | ⟨-, h⟩
  · exact hr h
  · exact hs h

theorem neverEndsIn_optional (hr : NeverEndsIn c r) : NeverEndsIn c (optional r) := by
  intro t rest ht
  cases h : r t with
  | none =>
      obtain rfl := Option.some.inj ((optional_of_none h).symm.trans ht)
      exact ⟨[], rfl, by simp⟩
  | some u =>
      obtain rfl := Option.some.inj ((optional_of_some h).symm.trans ht)
      exact hr h

theorem neverEndsIn_command {name : Text} (h : ('\\' :: name).getLast? ≠ some c) :
    NeverEndsIn c (command name) := by
  intro t rest ht
  exact neverEndsIn_literal h (Option.filter_eq_some_iff.mp ht).1

theorem neverEndsIn_bracketed {left right : Char} (h : right ≠ c) :
    NeverEndsIn c (bracketed left right) := by
  intro t rest ht
  obtain ⟨u, hu, hafter⟩ := andThen_eq_some.mp ht
  obtain ⟨v, hv, hclose⟩ := andThen_eq_some.mp hafter
  obtain ⟨inside, rfl⟩ := reads_many _ hv
  refine ⟨left :: inside ++ [right], ?_, ?_⟩
  · rw [literal_eq_some.mp hu, literal_eq_some.mp hclose]
    simp
  · rw [List.getLast?_concat]
    exact fun hright => h (Option.some.inj hright)

/-- A command that draws a rule ends in a letter, a brace or a blank. -/
theorem neverEndsIn_leadingRule : NeverEndsIn '\\' leadingRule := by
  have hblanks : NeverEndsIn '\\' (many isBlank) := neverEndsIn_many (by decide)
  have hfull : NeverEndsIn '\\' fullRule :=
    neverEndsIn_orElse (neverEndsIn_command (by decide)) <|
      neverEndsIn_orElse (neverEndsIn_command (by decide)) <|
        neverEndsIn_orElse (neverEndsIn_command (by decide)) (neverEndsIn_command (by decide))
  have hname : NeverEndsIn '\\' ((literal "\\crule".toList).orElse (literal "\\cmidrule".toList)) :=
    neverEndsIn_orElse (neverEndsIn_literal (by decide)) (neverEndsIn_literal (by decide))
  have hpartial : NeverEndsIn '\\' partialRule :=
    neverEndsIn_andThen hname <|
      neverEndsIn_andThen (neverEndsIn_optional (neverEndsIn_bracketed (by decide))) <|
        neverEndsIn_andThen hblanks (neverEndsIn_bracketed (by decide))
  exact neverEndsIn_andThen hblanks (neverEndsIn_andThen (neverEndsIn_orElse hfull hpartial) hblanks)

end Recogniser

namespace Text

theorem exists_append_dropLeadingRules (t : Text) :
    ∃ rules, t = rules ++ dropLeadingRules t ∧ rules.getLast? ≠ some '\\' := by
  fun_induction dropLeadingRules t with
  | case1 t h => exact ⟨[], rfl, by simp⟩
  | case2 t rest h ih =>
      obtain ⟨rules, hrules, hlast⟩ := ih
      obtain ⟨piece, rfl, hpiece⟩ := Recogniser.neverEndsIn_leadingRule h
      refine ⟨piece ++ rules, ?_, getLast?_append_ne hpiece hlast⟩
      rw [List.append_assoc, ← hrules]

/-! ## The cells of a row -/

/-- How the row in a part `segment` of a line falls into cells: `rules` is what is taken off before
the content, and `content` is what is split. -/
structure RowCells (segment rules content : Text) : Prop where
  row : segment.rowContent = rules ++ content
  stripped : segment.rowContent.dropLeadingRules = content
  /-- What is taken off does not end in a backslash. -/
  uncut : rules.getLast? ≠ some '\\'
  /-- The cells are the parts between the ampersands that no backslash precedes, in order. -/
  cells : segment.rowContent.cells = (splitUnescaped none content).map maskAmpersands
  /-- There is one cell more than there are such ampersands. -/
  length : segment.rowContent.cells.length = 1 + (placesOf (.plain '&') content).length
  distinct : (placesOf (.plain '&') content).Pairwise (· < ·)
  places : ∀ p, p ∈ placesOf (.plain '&') content ↔ ∃ before after,
    content = before ++ '&' :: after ∧ before.getLast? ≠ some '\\' ∧ before.width = p
  /-- No other ampersand separates cells. -/
  separates : ∀ before after, content = before ++ '&' :: after →
    (Separates (splitUnescaped none content) before after ↔ before.getLast? ≠ some '\\')
  /-- The ampersands that no backslash precedes are those that the row does not escape. -/
  unescaped : ∀ before after, content = before ++ '&' :: after →
    (before.getLast? ≠ some '\\' ↔ Even (finalBackslashes (rules ++ before)))

/-- The cells of a row are its parts between the unescaped ampersands. -/
theorem exists_rowCells (segment : Text) : ∃ rules content, RowCells segment rules content := by
  obtain ⟨rules, hrow, hrules⟩ := exists_append_dropLeadingRules segment.rowContent
  have single := rowTerminator_not_mem_rowContent segment
  generalize hcontent : segment.rowContent.dropLeadingRules = content at hrow
  have uncut : Even (finalBackslashes rules) := by simp [finalBackslashes_eq_zero_iff.mpr hrules]
  have singleContent : .rowTerminator ∉ atoms content := by
    rw [hrow, atoms_append_of_even uncut] at single
    exact fun h => single (List.mem_append_right _ h)
  have cells : segment.rowContent.cells = (splitUnescaped none content).map maskAmpersands := by
    rw [Text.cells, hcontent]
    exact splitAtChar_maskAmpersands (by simp)
  refine ⟨rules, content, ?_⟩
  constructor
  case row => exact hrow
  case stripped => exact hcontent
  case uncut => exact hrules
  case cells => exact cells
  case length =>
    rw [cells, List.length_map]
    exact length_splitUnescaped singleContent (by simp)
  case distinct => exact sortedLT_atomPlaces _ _ _
  case places =>
    intro p
    rw [mem_placesOf_iff (by decide)]
    constructor
    · rintro ⟨before, after, hsplit, heven, hp⟩
      have whole : content = before ++ '&' :: after := by simpa [Atom.text] using hsplit
      exact ⟨before, after, whole,
        (even_finalBackslashes_iff_of_single singleContent whole).mp heven, hp⟩
    · rintro ⟨before, after, whole, hlast, hp⟩
      exact ⟨before, after, by simpa [Atom.text] using whole,
        (even_finalBackslashes_iff_of_single singleContent whole).mpr hlast, hp⟩
  case separates =>
    intro before after hparts
    rw [hparts]
    simpa using separates_splitUnescaped_iff none before after
  case unescaped =>
    intro before after hparts
    have whole : segment.rowContent = rules ++ before ++ '&' :: after := by
      rw [hrow, hparts, List.append_assoc]
    rw [even_finalBackslashes_iff_of_single single whole, List.getLast?_append]
    cases before.getLast? with
    | none => simpa using hrules
    | some c => simp

example : splitUnescaped none "1 \\& 2 & 3".toList = ["1 \\& 2 ".toList, " 3".toList] := by decide

end Text

end NumeralLint
