/-
The delimiters of blocks as a grammar.

A delimiter is read without going back over what was read: blanks as many as
there are, a listed name, a star if one follows, blanks again.  Nothing is lost
by that.  After the name stands a star, a blank or the closing brace, so how
much belongs to each part is fixed by the text; and where a listed name begins
a longer one, the closing brace fails to follow and the other names are tried
from the same place.  `blockDelimiter_text` says of every environment, by its
name alone, whether its delimiter is read where it stands, and
`occurs_blockDelimiter_iff` that the search finds one wherever it stands.
-/
import NumeralLint.Proofs.Escapes
import NumeralLint.Prose.Block

namespace NumeralLint

/-- The name of an environment that is no prose: a listed one, perhaps with a star after it. -/
def IsBlockName (name : Text) : Prop :=
  ∃ listed ∈ blockNames, name = listed ∨ name = listed ++ ['*']

instance (name : Text) : Decidable (IsBlockName name) :=
  inferInstanceAs (Decidable (∃ listed ∈ blockNames, _))

/-- Names are compared whole, and as they are written. -/
example : ∀ name ∈ ["tabularx", "tablenotes", "Equation", "tabular**", "tabul", ""],
    ¬IsBlockName name.toList := by decide

namespace IsBlockName

variable {name : Text}

theorem trim_eq (h : IsBlockName name) : name.trim = name := by
  have listed : ∀ listed ∈ blockNames,
      listed.trim = listed ∧ Text.trim (listed ++ ['*']) = listed ++ ['*'] := by decide
  obtain ⟨n, hn, rfl | rfl⟩ := h
  · exact (listed _ hn).1
  · exact (listed n hn).2

theorem not_mem (h : IsBlockName name) : '}' ∉ name := by
  have listed : ∀ listed ∈ blockNames, '}' ∉ listed ∧ '}' ∉ listed ++ ['*'] := by decide
  obtain ⟨n, hn, rfl | rfl⟩ := h
  · exact (listed _ hn).1
  · exact (listed n hn).2

theorem ne_nil (h : IsBlockName name) : name ≠ [] := by
  rintro rfl
  exact absurd h (by decide)

end IsBlockName

/-! ## Delimiters -/

/-- What is written in a delimiter of an environment, apart from its command and its braces. -/
structure EnvironmentDelimiter where
  /-- The blanks before the opening brace. -/
  gap : Text
  /-- The blanks between the opening brace and the name. -/
  inner : Text
  name : Text
  /-- The blanks between the name and the closing brace. -/
  outer : Text
  gap_blank : ∀ c ∈ gap, isBlank c = true
  inner_blank : ∀ c ∈ inner, isBlank c = true
  outer_blank : ∀ c ∈ outer, isBlank c = true
  name_trim : name.trim = name
  name_closed : '}' ∉ name

namespace EnvironmentDelimiter

/-- The delimiter with the command `\begin` or `\end`, whichever is given. -/
def text (command : Text) (d : EnvironmentDelimiter) : Text :=
  '\\' :: command ++ (d.gap ++ '{' :: (d.inner ++ d.name ++ d.outer ++ ['}']))

variable (d : EnvironmentDelimiter)

theorem text_append (command rest : Text) :
    d.text command ++ rest =
      '\\' :: command ++ (d.gap ++ '{' :: (d.inner ++ (d.name ++ (d.outer ++ '}' :: rest)))) := by
  simp [text]

theorem trim_group : (d.inner ++ d.name ++ d.outer).trim = d.name := by
  cases hname : d.name with
  | nil =>
      refine Text.trim_eq_nil.mpr fun c hc => ?_
      rw [List.append_nil] at hc
      rcases List.mem_append.mp hc with hc | hc
      · exact d.inner_blank c hc
      · exact d.outer_blank c hc
  | cons c s =>
      have trimmed : Text.trim (c :: s) = c :: s := hname ▸ d.name_trim
      have first := Text.not_isBlank_of_trim_eq_cons trimmed
      rw [Text.trim, Text.trimStart_cons first] at trimmed
      rw [Text.trim, List.append_assoc, Text.trimStart_append d.inner_blank, List.cons_append,
        Text.trimStart_cons first, ← List.cons_append, Text.trimEnd_append_blanks d.outer_blank,
        trimmed]

theorem brace_not_mem_group : '}' ∉ d.inner ++ d.name ++ d.outer := by
  have notBlank : ∀ {t : Text}, (∀ c ∈ t, isBlank c = true) → '}' ∉ t := by
    intro t ht hmem
    exact absurd (ht _ hmem) (by decide)
  simp only [List.mem_append, not_or]
  exact ⟨⟨notBlank d.inner_blank, d.name_closed⟩, notBlank d.outer_blank⟩

theorem text_append_inj {d d' : EnvironmentDelimiter} {command rest rest' : Text}
    (h : d.text command ++ rest = d'.text command ++ rest') :
    d.name = d'.name ∧ rest = rest' := by
  have gapEnds : ∀ d : EnvironmentDelimiter, '{' ∉ d.gap := fun d hmem =>
    absurd (d.gap_blank _ hmem) (by decide)
  have grouped : ∀ (d : EnvironmentDelimiter) rest, d.text command ++ rest =
      '\\' :: command ++ (d.gap ++ '{' :: (d.inner ++ d.name ++ d.outer ++ '}' :: rest)) := by
    intro d rest
    simp [text]
  rw [grouped, grouped] at h
  obtain ⟨-, sameGroups⟩ :=
    Text.append_cons_inj (gapEnds d) (gapEnds d') (List.append_cancel_left h)
  obtain ⟨sameGroup, sameRest⟩ :=
    Text.append_cons_inj d.brace_not_mem_group d'.brace_not_mem_group sameGroups
  exact ⟨by rw [← d.trim_group, ← d'.trim_group, sameGroup], sameRest⟩

end EnvironmentDelimiter

/-! ## What is read -/

namespace Recogniser

/-- Reads one listed name, and the star after it. -/
def starred (listed : Text) : Recogniser := (literal listed).andThen (optional (literal ['*']))

theorem starred_eq_some {listed t rest : Text} :
    starred listed t = some rest ↔
      t = listed ++ '*' :: rest ∨ t = listed ++ rest ∧ rest.head? ≠ some '*' := by
  rw [starred, andThen_eq_some]
  constructor
  · rintro ⟨u, hu, hrest⟩
    rw [literal_eq_some.mp hu]
    cases hstar : literal ['*'] u with
    | some v =>
        obtain rfl : v = rest := Option.some.inj ((optional_of_some hstar).symm.trans hrest)
        exact Or.inl (congrArg (listed ++ ·) (literal_eq_some.mp hstar))
    | none =>
        obtain rfl : u = rest := Option.some.inj ((optional_of_none hstar).symm.trans hrest)
        refine Or.inr ⟨rfl, ?_⟩
        intro hhead
        obtain ⟨v, rfl⟩ := List.head?_eq_some_iff.mp hhead
        exact absurd hstar (by simp [literal])
  · rintro (rfl | ⟨rfl, hhead⟩)
    · exact ⟨_, literal_eq_some.mpr rfl, optional_of_some (literal_eq_some.mpr rfl)⟩
    · refine ⟨rest, literal_eq_some.mpr rfl, optional_of_none ?_⟩
      cases hstar : literal ['*'] rest with
      | none => rfl
      | some v => exact absurd (by rw [literal_eq_some.mp hstar]; rfl) hhead

/-- A delimiter is read if its name is read as far as it goes. -/
theorem delimiter_text {command : Text} {read : Recogniser} {d : EnvironmentDelimiter}
    {rest : Text} (hname : d.name ≠ [])
    (hread : read (d.name ++ (d.outer ++ '}' :: rest)) = some (d.outer ++ '}' :: rest)) :
    delimiter command read (d.text command ++ rest) = some rest := by
  have head : ∀ {b : Char}, isBlank b = false → ∀ t : Text, ∀ c ∈ (b :: t).head?,
      isBlank c = false := by
    intro b hb t c hc
    obtain rfl : b = c := Option.some.inj hc
    exact hb
  have name : ∀ c ∈ (d.name ++ (d.outer ++ '}' :: rest)).head?, isBlank c = false := by
    obtain ⟨c, s, hcons⟩ := List.exists_cons_of_ne_nil hname
    have first := Text.not_isBlank_of_trim_eq_cons (d.name_trim.trans hcons)
    simpa [hcons] using first
  have gap : blanks (d.gap ++ '{' :: (d.inner ++ (d.name ++ (d.outer ++ '}' :: rest)))) = _ :=
    many_eq_some.mpr ⟨d.gap, rfl, d.gap_blank, head (by decide) _⟩
  have inner : blanks (d.inner ++ (d.name ++ (d.outer ++ '}' :: rest))) = _ :=
    many_eq_some.mpr ⟨d.inner, rfl, d.inner_blank, name⟩
  have outer : blanks (d.outer ++ '}' :: rest) = _ :=
    many_eq_some.mpr ⟨d.outer, rfl, d.outer_blank, head (by decide) _⟩
  rw [d.text_append]
  refine andThen_eq_some.mpr ⟨d.name ++ (d.outer ++ '}' :: rest), ?_, ?_⟩
  · refine andThen_eq_some.mpr ⟨_, literal_eq_some.mpr rfl, ?_⟩
    refine andThen_eq_some.mpr ⟨_, gap, ?_⟩
    exact andThen_eq_some.mpr ⟨_, literal_eq_some.mpr rfl, inner⟩
  · refine andThen_eq_some.mpr ⟨_, hread, ?_⟩
    exact andThen_eq_some.mpr ⟨_, outer, literal_eq_some.mpr rfl⟩

/-- A recogniser that reads nothing but names of environments that are no prose reads nothing but
their delimiters. -/
theorem exists_of_delimiter {command t rest : Text} {read : Recogniser}
    (hnames : ∀ ⦃u v⦄, read u = some v → ∃ name, IsBlockName name ∧ u = name ++ v)
    (h : delimiter command read t = some rest) :
    ∃ d : EnvironmentDelimiter, IsBlockName d.name ∧ t = d.text command ++ rest := by
  obtain ⟨u, hstart, hname⟩ := andThen_eq_some.mp h
  obtain ⟨v, hread, hend⟩ := andThen_eq_some.mp hname
  obtain ⟨w, hcommand, hbraces⟩ := andThen_eq_some.mp hstart
  obtain ⟨x, hgap, hopen⟩ := andThen_eq_some.mp hbraces
  obtain ⟨y, hbrace, hinner⟩ := andThen_eq_some.mp hopen
  obtain ⟨z, houter, hclose⟩ := andThen_eq_some.mp hend
  obtain ⟨gap, rfl, gapBlank, -⟩ := many_eq_some.mp hgap
  obtain ⟨inner, rfl, innerBlank, -⟩ := many_eq_some.mp hinner
  obtain ⟨outer, rfl, outerBlank, -⟩ := many_eq_some.mp houter
  obtain ⟨name, block, rfl⟩ := hnames hread
  let d : EnvironmentDelimiter :=
    ⟨gap, inner, name, outer, gapBlank, innerBlank, outerBlank, block.trim_eq, block.not_mem⟩
  refine ⟨d, block, ?_⟩
  rw [d.text_append, literal_eq_some.mp hcommand, literal_eq_some.mp hbrace,
    literal_eq_some.mp hclose]
  rfl

theorem isSome_blockDelimiter_text {command : Text} {d : EnvironmentDelimiter}
    (h : IsBlockName d.name) (rest : Text) :
    (blockDelimiter command (d.text command ++ rest)).isSome = true := by
  have nonempty := h.ne_nil
  obtain ⟨listed, hlisted, hname⟩ := h
  refine List.findSome?_isSome_iff.mpr ⟨listed, hlisted, ?_⟩
  refine Option.isSome_iff_exists.mpr ⟨rest, delimiter_text nonempty (starred_eq_some.mpr ?_)⟩
  rcases hname with hname | hname
  · refine Or.inr ⟨by rw [hname], ?_⟩
    -- what follows the name is a blank or the closing brace, so no star is read past it
    cases houter : d.outer with
    | nil => simp
    | cons c outer =>
        have blank := d.outer_blank c (by simp [houter])
        rintro ⟨⟩
        exact absurd blank (by decide)
  · exact Or.inl (by rw [hname]; simp)

theorem exists_of_blockDelimiter {command t rest : Text}
    (h : blockDelimiter command t = some rest) :
    ∃ d : EnvironmentDelimiter, IsBlockName d.name ∧ t = d.text command ++ rest := by
  obtain ⟨listed, hlisted, hread⟩ := List.exists_of_findSome?_eq_some h
  refine exists_of_delimiter (fun u v hu => ?_) hread
  rcases starred_eq_some.mp hu with rfl | ⟨rfl, -⟩
  · exact ⟨listed ++ ['*'], ⟨listed, hlisted, Or.inr rfl⟩, by simp⟩
  · exact ⟨listed, ⟨listed, hlisted, Or.inl rfl⟩, rfl⟩

/-- What is read is what is written: a delimiter, all of it, whose name is that of an environment
that is no prose. -/
theorem blockDelimiter_eq_some {command t rest : Text} :
    blockDelimiter command t = some rest ↔
      ∃ d : EnvironmentDelimiter, IsBlockName d.name ∧ t = d.text command ++ rest := by
  refine ⟨exists_of_blockDelimiter, ?_⟩
  rintro ⟨d, hname, rfl⟩
  obtain ⟨rest', hread⟩ := Option.isSome_iff_exists.mp (isSome_blockDelimiter_text hname rest)
  obtain ⟨d', -, whole⟩ := exists_of_blockDelimiter hread
  rw [hread, (EnvironmentDelimiter.text_append_inj whole).2]

theorem blockDelimiter_text (command : Text) (d : EnvironmentDelimiter) (rest : Text) :
    blockDelimiter command (d.text command ++ rest) =
      if IsBlockName d.name then some rest else none := by
  split
  · next hname => exact blockDelimiter_eq_some.mpr ⟨d, hname, rfl⟩
  · next hname =>
      cases hread : blockDelimiter command (d.text command ++ rest) with
      | none => rfl
      | some rest' =>
          obtain ⟨d', hname', whole⟩ := blockDelimiter_eq_some.mp hread
          have sameName := (EnvironmentDelimiter.text_append_inj whole).1
          exact absurd (sameName ▸ hname') hname

theorem occurs_blockDelimiter_iff {command line : Text} :
    line.occurs (blockDelimiter command) = true ↔
      ∃ (d : EnvironmentDelimiter) (before after : Text),
        IsBlockName d.name ∧ line = before ++ (d.text command ++ after) := by
  rw [Text.occurs_eq_true]
  constructor
  · rintro ⟨m, ⟨before, rfl⟩, hread⟩
    obtain ⟨after, hafter⟩ := Option.isSome_iff_exists.mp hread
    obtain ⟨d, hname, rfl⟩ := blockDelimiter_eq_some.mp hafter
    exact ⟨d, before, after, hname, rfl⟩
  · rintro ⟨d, before, after, hname, rfl⟩
    exact ⟨_, List.suffix_append before _, isSome_blockDelimiter_text hname after⟩

end Recogniser

/-! ## Which lines delimit blocks -/

/-- A line opens a block exactly if `\begin` and the name of an environment that is no prose stand
anywhere in it, or a bracket behind an odd number of backslashes, and it closes one exactly if the
same is true of `\end` and the other bracket.  A delimiter with any other name is not read, wherever
it stands. -/
theorem delimitsBlock_iff (line : Text) :
    (beginsBlock line = true ↔
      (∃ (d : EnvironmentDelimiter) (before after : Text), IsBlockName d.name ∧
          line = before ++ (d.text "begin".toList ++ after)) ∨
        ∃ before, Text.IsEscaped '[' line before) ∧
    (endsBlock line = true ↔
      (∃ (d : EnvironmentDelimiter) (before after : Text), IsBlockName d.name ∧
          line = before ++ (d.text "end".toList ++ after)) ∨
        ∃ before, Text.IsEscaped ']' line before) ∧
    ∀ (command : Text) (d : EnvironmentDelimiter) (after : Text),
      Recogniser.blockDelimiter command (d.text command ++ after) =
        if IsBlockName d.name then some after else none := by
  refine ⟨?_, ?_, Recogniser.blockDelimiter_text⟩
  · rw [beginsBlock, Bool.or_eq_true, Recogniser.occurs_blockDelimiter_iff,
      Text.hasAtom_escaped_iff]
  · rw [endsBlock, Bool.or_eq_true, Recogniser.occurs_blockDelimiter_iff,
      Text.hasAtom_escaped_iff]

/-- A longer name does not keep the search from the delimiter after it, and the space after a row
is no display. -/
example : beginsBlock "\\begin{tabularx}\\begin{ table* }".toList = true ∧
    beginsBlock "\\begin{tabularx} \\\\[2pt]".toList = false := by decide

end NumeralLint
