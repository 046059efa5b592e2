/-
What reading a specification keeps of its text, and where it ends.

Whether a place of a text lies outside every group is said here by a machine
that goes over the characters one by one (`Zone`) and knows nothing of
specifications.  `Lexed` says by this machine what a specification is that
was read from a text, and `ColumnSpec.lexed_read` that reading gives one.

A group never leaves its inside before its last brace (`Zone.Keeps`); that is
why no brace in it closes the specification, no blank in it is dropped, and
what follows it is outside again.  Dropping the blanks between the items
moves no group to another end, so the items can be read again from their own
texts; only a group that nothing closes runs on, and nothing follows it.
-/
import Mathlib.Order.Bounds.Basic
import NumeralLint.Proofs.Table.Reading
import NumeralLint.Proofs.Text.Slices

namespace NumeralLint

/-! ## Outside and inside of groups -/

/-- What the characters before a place say about the character there. -/
inductive Zone where
  /-- It stands outside every group. -/
  | outside
  | inside
  /-- It stands in a group after the backslash that escapes it. -/
  | escaped
deriving DecidableEq

namespace Zone

/-- The zone after one more character. -/
def next : Zone → Char → Zone
  | outside, c => if c = '{' then inside else outside
  | inside, c => if c = '\\' then escaped else if c = '}' then outside else inside
  | escaped, _ => inside

/-- The zone after a text. -/
def after (zone : Zone) (t : Text) : Zone := t.foldl next zone

@[simp] theorem after_nil (zone : Zone) : zone.after [] = zone := rfl

@[simp] theorem after_cons (zone : Zone) (c : Char) (t : Text) :
    zone.after (c :: t) = (zone.next c).after t := rfl

@[simp] theorem after_append (zone : Zone) (s t : Text) :
    zone.after (s ++ t) = (zone.after s).after t := List.foldl_append

/-- The text never leaves the groups, wherever one stops in it. -/
def Keeps (zone : Zone) (t : Text) : Prop := ∀ s, s <+: t → zone.after s ≠ outside

variable {zone : Zone} {c : Char} {s t : Text}

theorem keeps_nil : zone.Keeps [] ↔ zone ≠ outside := by
  constructor
  · intro h
    exact h [] List.prefix_rfl
  · intro h s hs
    rw [List.prefix_nil.mp hs]
    exact h

theorem keeps_cons : zone.Keeps (c :: t) ↔ zone ≠ outside ∧ (zone.next c).Keeps t := by
  constructor
  · intro h
    refine ⟨h [] List.nil_prefix, fun s hs => ?_⟩
    exact h (c :: s) (List.cons_prefix_cons.mpr ⟨rfl, hs⟩)
  · rintro ⟨here, later⟩ s hs
    cases s with
    | nil => exact here
    | cons d s =>
        obtain ⟨rfl, hsuffix⟩ := List.cons_prefix_cons.mp hs
        exact later s hsuffix

theorem not_keeps_brace (hs : after inside s = inside) (t : Text) :
    ¬ Keeps inside (s ++ '}' :: t) := by
  intro keeps
  exact keeps (s ++ ['}']) ⟨t, by simp⟩ (by simp [hs, next])

end Zone

namespace Text

/-- The places of the braces that close no group. -/
def closings (t : Text) : Set Nat :=
  {place | ∃ front back, t = front ++ '}' :: back ∧ Zone.after .outside front = .outside ∧
    width front = place}

/-- The text without its blanks outside groups. -/
def packed (zone : Zone) : Text → Text
  | [] => []
  | c :: t => (if zone = .outside ∧ isBlank c then [] else [c]) ++ packed (zone.next c) t

/-- A group up to the first unescaped closing brace after its opening brace. -/
def IsClosedGroup (g : Text) : Prop :=
  ∃ body, g = '{' :: body ++ ['}'] ∧ Zone.Keeps .inside body ∧ Zone.after .inside body = .inside

/-- A group without an unescaped closing brace. -/
def IsOpenGroup (g : Text) : Prop := ∃ body, g = '{' :: body ∧ Zone.Keeps .inside body

theorem packed_append (zone : Zone) (s t : Text) :
    packed zone (s ++ t) = packed zone s ++ packed (zone.after s) t := by
  induction s generalizing zone with
  | nil => rfl
  | cons c s ih => simp only [List.cons_append, packed, ih, Zone.after_cons, List.append_assoc]

theorem packed_of_keeps {zone : Zone} {t : Text} (h : zone.Keeps t) : packed zone t = t := by
  induction t generalizing zone with
  | nil => rfl
  | cons c t ih =>
      obtain ⟨here, later⟩ := Zone.keeps_cons.mp h
      simp [packed, here, ih later]

theorem groupEnd_cases (t : Text) :
    (Zone.Keeps .inside t ∧ t.beforeAtom .groupEnd = t ∧ t.fromAtom .groupEnd = []) ∨
      ∃ body rest, t = body ++ '}' :: rest ∧ Zone.Keeps .inside body ∧
        Zone.after .inside body = .inside ∧ t.beforeAtom .groupEnd = body ∧
        t.fromAtom .groupEnd = '}' :: rest := by
  -- The recursion of `atoms`: an escaped character goes with its backslash.
  fun_induction atoms t with
  | case1 => exact Or.inl ⟨Zone.keeps_nil.mpr (by decide), rfl, rfl⟩
  | case2 c =>
      by_cases hc : c = '}'
      · subst hc
        exact Or.inr ⟨[], [], rfl, Zone.keeps_nil.mpr (by decide), rfl, rfl, rfl⟩
      · refine Or.inl ⟨?_, ?_, ?_⟩
        · refine Zone.keeps_cons.mpr ⟨by decide, Zone.keeps_nil.mpr ?_⟩
          simp only [Zone.next, hc, if_false]
          split <;> simp
        · simp [beforeAtom, Atom.groupEnd, hc]
        · simp [fromAtom, Atom.groupEnd, hc]
  | case3 d t ih =>
      have keeps : ∀ s, Zone.Keeps .inside s → Zone.Keeps .inside ('\\' :: d :: s) := by
        intro s hs
        exact Zone.keeps_cons.mpr ⟨by decide, Zone.keeps_cons.mpr ⟨by decide, hs⟩⟩
      have hbefore : beforeAtom .groupEnd ('\\' :: d :: t) =
          '\\' :: d :: beforeAtom .groupEnd t := by simp [beforeAtom, Atom.groupEnd]
      have hfrom : fromAtom .groupEnd ('\\' :: d :: t) = fromAtom .groupEnd t := by
        simp [fromAtom, Atom.groupEnd]
      rw [hbefore, hfrom]
      rcases ih with ⟨stays, whole, none⟩ | ⟨body, rest, rfl, stays, zone, whole, found⟩
      · exact Or.inl ⟨keeps t stays, by rw [whole], none⟩
      · exact Or.inr ⟨'\\' :: d :: body, rest, rfl, keeps body stays, zone, by rw [whole], found⟩
  | case4 c d t hc ih =>
      by_cases hbrace : c = '}'
      · subst hbrace
        exact Or.inr ⟨[], d :: t, rfl, Zone.keeps_nil.mpr (by decide), rfl, rfl, rfl⟩
      · have next : Zone.next .inside c = .inside := by simp [Zone.next, hc, hbrace]
        have keeps : ∀ s, Zone.Keeps .inside s → Zone.Keeps .inside (c :: s) := by
          intro s hs
          exact Zone.keeps_cons.mpr ⟨by decide, next.symm ▸ hs⟩
        have hbefore : beforeAtom .groupEnd (c :: d :: t) = c :: beforeAtom .groupEnd (d :: t) := by
          simp [beforeAtom, Atom.groupEnd, hc, hbrace]
        have hfrom : fromAtom .groupEnd (c :: d :: t) = fromAtom .groupEnd (d :: t) := by
          simp [fromAtom, Atom.groupEnd, hc, hbrace]
        rw [hbefore, hfrom]
        rcases ih with ⟨stays, whole, none⟩ | ⟨body, rest, hbody, stays, zone, whole, found⟩
        · exact Or.inl ⟨keeps _ stays, by rw [whole], none⟩
        · refine Or.inr ⟨c :: body, rest, by rw [hbody]; rfl, keeps body stays, ?_, by rw [whole],
            found⟩
          rw [Zone.after_cons, next, zone]

/-! ## Braces outside groups -/

/-- No brace of the text closes anything outside groups. -/
def NoClosing (t : Text) : Prop :=
  ∀ front back, t = front ++ '}' :: back → Zone.after .outside front ≠ .outside

theorem closings_eq_empty {t : Text} (h : t.NoClosing) : t.closings = ∅ := by
  refine Set.eq_empty_of_forall_notMem ?_
  rintro place ⟨front, back, ht, zone, -⟩
  exact h front back ht zone

theorem noClosing_nil : NoClosing [] := by
  intro front back h
  simp at h

theorem noClosing_append {s t : Text} (hs : s.NoClosing) (ht : t.NoClosing)
    (hzone : Zone.after .outside s = .outside) : (s ++ t).NoClosing := by
  intro front back h
  rcases append_eq_append_cons h with ⟨v, hfront, -⟩ | ⟨v, rfl, hrest⟩
  · exact hs front v hfront
  · rw [Zone.after_append, hzone]
    exact ht v back hrest

theorem noClosing_singleton {c : Char} (hc : c ≠ '}') : NoClosing [c] := by
  intro front back h
  rcases List.append_eq_singleton_iff.mp h.symm with ⟨-, hback⟩ | ⟨-, hback⟩
  · obtain ⟨rfl, -⟩ := List.cons.inj hback
    exact absurd rfl hc
  · exact absurd hback (by simp)

theorem noClosing_group {body tail : Text} (h : Zone.Keeps .inside body) (htail : tail.length ≤ 1) :
    NoClosing ('{' :: body ++ tail) := by
  intro front back hparts
  cases front with
  | nil => exact absurd (List.cons.inj hparts).1 (by decide)
  | cons c front =>
      have hbody : body ++ tail = front ++ '}' :: back := (List.cons.inj hparts).2
      obtain rfl : '{' = c := (List.cons.inj hparts).1
      have lengths := congrArg List.length hbody
      simp only [List.length_append, List.length_cons] at lengths
      refine h front (List.prefix_of_prefix_length_le ⟨'}' :: back, hbody.symm⟩
        (List.prefix_append body tail) ?_)
      omega

theorem IsClosedGroup.noClosing {g : Text} (h : g.IsClosedGroup) : g.NoClosing := by
  obtain ⟨body, rfl, keeps, -⟩ := h
  exact noClosing_group keeps (Nat.le_refl 1)

theorem IsOpenGroup.noClosing {g : Text} (h : g.IsOpenGroup) : g.NoClosing := by
  obtain ⟨body, rfl, keeps⟩ := h
  rw [← List.append_nil ('{' :: body)]
  exact noClosing_group keeps (Nat.zero_le 1)

theorem IsClosedGroup.after {g : Text} (h : g.IsClosedGroup) :
    Zone.after .outside g = .outside := by
  obtain ⟨body, rfl, -, zone⟩ := h
  simp [Zone.next, zone]

theorem packed_group {body : Text} (h : Zone.Keeps .inside body) (tail : Text) :
    packed .outside ('{' :: body ++ tail) =
      '{' :: body ++ packed (Zone.after .inside body) tail := by
  have kept : isBlank '{' = false := by decide
  have enter : Zone.next .outside '{' = .inside := rfl
  rw [List.cons_append, packed, packed_append, enter, packed_of_keeps h]
  simp [kept]

theorem IsClosedGroup.packed {g : Text} (h : g.IsClosedGroup) : packed .outside g = g := by
  obtain ⟨body, rfl, keeps, zone⟩ := h
  rw [packed_group keeps, zone]
  rfl

theorem IsOpenGroup.packed {g : Text} (h : g.IsOpenGroup) : packed .outside g = g := by
  obtain ⟨body, rfl, keeps⟩ := h
  have alone := packed_group keeps []
  rwa [List.append_nil, Text.packed, List.append_nil] at alone

/-- The first unescaped closing brace after an opening one is the end of the group. -/
theorem cut_groupEnd {body : Text} (h : Zone.Keeps .inside body)
    (hzone : Zone.after .inside body = .inside) (rest : Text) :
    beforeAtom .groupEnd (body ++ '}' :: rest) = body ∧
      fromAtom .groupEnd (body ++ '}' :: rest) = '}' :: rest := by
  rcases groupEnd_cases (body ++ '}' :: rest) with
    ⟨keeps, -, -⟩ | ⟨first, after, whole, keeps, zone, hbefore, hfrom⟩
  · exact absurd keeps (Zone.not_keeps_brace hzone _)
  · rw [hbefore, hfrom]
    rcases append_eq_append_cons whole with ⟨v, rfl, -⟩ | ⟨v, rfl, hrest⟩
    · exact absurd h (Zone.not_keeps_brace zone v)
    · cases v with
      | nil =>
          rw [List.append_nil]
          exact ⟨rfl, hrest.symm⟩
      | cons c v =>
          obtain ⟨rfl, -⟩ := List.cons.inj hrest
          exact absurd keeps (Zone.not_keeps_brace hzone _)

/-- A group without an unescaped closing brace goes on to the end of the text. -/
theorem cut_groupEnd_of_keeps {t : Text} (h : Zone.Keeps .inside t) :
    beforeAtom .groupEnd t = t ∧ fromAtom .groupEnd t = [] := by
  rcases groupEnd_cases t with ⟨-, hbefore, hfrom⟩ | ⟨body, rest, rfl, -, zone, -, -⟩
  · exact ⟨hbefore, hfrom⟩
  · exact absurd h (Zone.not_keeps_brace zone rest)

end Text

/-! ## The course of a reading -/

namespace ColumnSpec

open Text

/-- How a specification is read: up to a closing brace or to the end of the text, and one item or
one blank at a time. -/
inductive ReadAs : Text → ColumnSpec → Prop
  | stop : ReadAs [] ⟨[], [], []⟩
  | closing (t : Text) : ReadAs ('}' :: t) ⟨[], [], '}' :: t⟩
  | openGroup {g : Text} : g.IsOpenGroup → ReadAs g ⟨[.group g], g, []⟩
  | closedGroup {g t : Text} {spec : ColumnSpec} : g.IsClosedGroup → ReadAs t spec →
      ReadAs (g ++ t) ⟨.group g :: spec.items, g ++ spec.source, spec.rest⟩
  | blank {c : Char} {t : Text} {spec : ColumnSpec} : c ≠ '}' → c ≠ '{' → isBlank c = true →
      ReadAs t spec → ReadAs (c :: t) ⟨spec.items, c :: spec.source, spec.rest⟩
  | specifier {c : Char} {t : Text} {spec : ColumnSpec} : c ≠ '}' → c ≠ '{' → isBlank c = false →
      ReadAs t spec → ReadAs (c :: t) ⟨.specifier c :: spec.items, c :: spec.source, spec.rest⟩

theorem readAs_read (t : Text) : ReadAs t (read t) := by
  fun_induction read t with
  | case1 => exact .stop
  | case2 t => exact .closing t
  | case3 t body after group spec _ ih =>
      rcases groupEnd_cases t with ⟨keeps, hbody, hafter⟩ |
        ⟨front, rest, rfl, keeps, zone, hbody, hafter⟩
      · have alone : read ([] : Text) = ⟨[], [], []⟩ := by rw [read]
        simp only [group, spec, body, after, hbody, hafter, List.take_nil, List.drop_nil,
          List.append_nil, alone]
        exact .openGroup ⟨t, rfl, keeps⟩
      · have here : group = '{' :: front ++ ['}'] := by simp [group, body, after, hbody, hafter]
        have later : after.drop 1 = rest := by simp [after, hafter]
        have whole : '{' :: (front ++ '}' :: rest) = group ++ rest := by simp [here]
        simp only [spec, later] at ih ⊢
        rw [whole]
        exact .closedGroup ⟨front, here, keeps, zone⟩ ih
  | case4 c t hc hg spec hb ih => exact .blank hc hg hb ih
  | case5 c t hc hg spec hb ih => exact .specifier hc hg (eq_false_of_ne_true hb) ih

theorem ReadAs.read_eq {t : Text} {spec : ColumnSpec} (h : ReadAs t spec) : read t = spec := by
  induction h with
  | stop => rw [read]
  | closing t => simp [read]
  | @openGroup g hg =>
      obtain ⟨body, rfl, keeps⟩ := hg
      obtain ⟨hbody, hafter⟩ := cut_groupEnd_of_keeps keeps
      rw [read_group hbody hafter]
      simp [read]
  | @closedGroup g t spec hg _ ih =>
      obtain ⟨body, rfl, keeps, zone⟩ := hg
      obtain ⟨hbody, hafter⟩ := cut_groupEnd keeps zone t
      have whole : '{' :: body ++ ['}'] ++ t = '{' :: (body ++ '}' :: t) := by simp
      rw [whole, read_group hbody hafter]
      simp [ih]
  | blank hc hg hb _ ih =>
      rw [read]
      simp [hc, hg, hb, ih]
  | specifier hc hg hb _ ih =>
      rw [read]
      simp [hc, hg, hb, ih]

variable {t : Text} {spec : ColumnSpec}

/-- No brace before its end closes the specification, and a brace at its end does. -/
theorem ReadAs.source_closing (h : ReadAs t spec) : spec.source.NoClosing ∧
    (spec.rest = [] ∨ ∃ u, spec.rest = '}' :: u ∧ Zone.after .outside spec.source = .outside) := by
  induction h with
  | stop => exact ⟨noClosing_nil, Or.inl rfl⟩
  | closing t => exact ⟨noClosing_nil, Or.inr ⟨t, rfl, rfl⟩⟩
  | openGroup hg => exact ⟨hg.noClosing, Or.inl rfl⟩
  | closedGroup hg _ ih =>
      refine ⟨noClosing_append hg.noClosing ih.1 hg.after, ?_⟩
      rw [Zone.after_append, hg.after]
      exact ih.2
  | @blank c _ spec hc hg _ _ ih | @specifier c _ spec hc hg _ _ ih =>
      have out : Zone.after .outside [c] = .outside := by simp [Zone.next, hg]
      have whole : c :: spec.source = [c] ++ spec.source := rfl
      dsimp only
      rw [whole, Zone.after_append, out]
      exact ⟨noClosing_append (noClosing_singleton hc) ih.1 out, ih.2⟩

/-- The texts of the items are the text of the specification without its blanks outside groups. -/
theorem ReadAs.flatMap_text (h : ReadAs t spec) :
    spec.items.flatMap ColumnItem.text = packed .outside spec.source := by
  induction h with
  | stop | closing => rfl
  | openGroup hg => simpa [ColumnItem.text] using hg.packed.symm
  | closedGroup hg _ ih =>
      rw [packed_append, hg.packed, hg.after, ← ih]
      rfl
  | blank hc hg hb _ ih | specifier hc hg hb _ ih =>
      rw [packed]
      simp [ColumnItem.text, Zone.next, hg, hb, ih]

/-- A specification is read from the texts of its items as from its own text. -/
theorem ReadAs.flatMap_readAs (h : ReadAs t spec) :
    ReadAs (spec.items.flatMap ColumnItem.text)
      ⟨spec.items, spec.items.flatMap ColumnItem.text, []⟩ := by
  induction h with
  | stop | closing => exact .stop
  | openGroup hg =>
      simp [ColumnItem.text]
      exact .openGroup hg
  | closedGroup hg _ ih => exact .closedGroup hg ih
  | blank hc hg hb _ ih => exact ih
  | specifier hc hg hb _ ih => exact .specifier hc hg hb ih

/-- Every group of a specification stands in the text outside of other groups, after the items
before it and blanks. -/
theorem ReadAs.group_split (h : ReadAs t spec) {before after : List ColumnItem} {g : Text}
    (hitems : spec.items = before ++ .group g :: after) :
    ∃ front back, t = front ++ g ++ back ∧ Zone.after .outside front = .outside ∧
      packed .outside front = before.flatMap ColumnItem.text ∧
      (g.IsClosedGroup ∨ g.IsOpenGroup ∧ after = [] ∧ back = []) := by
  induction h generalizing before with
  | stop | closing => exact absurd hitems (by simp)
  | openGroup hg =>
      cases before with
      | nil =>
          obtain ⟨hitem, rfl⟩ := List.cons.inj hitems
          obtain rfl := ColumnItem.group.inj hitem
          exact ⟨[], [], by simp, rfl, rfl, Or.inr ⟨hg, rfl, rfl⟩⟩
      | cons item before => exact absurd hitems (by simp)
  | @closedGroup g' t spec hg _ ih =>
      cases before with
      | nil =>
          obtain ⟨hitem, -⟩ := List.cons.inj hitems
          obtain rfl := ColumnItem.group.inj hitem
          exact ⟨[], t, rfl, rfl, rfl, Or.inl hg⟩
      | cons item before =>
          obtain ⟨rfl, hlater⟩ := List.cons.inj hitems
          obtain ⟨front, back, rfl, zone, texts, kind⟩ := ih hlater
          refine ⟨g' ++ front, back, by simp, ?_, ?_, kind⟩
          · rw [Zone.after_append, hg.after, zone]
          · rw [packed_append, hg.packed, hg.after, texts]
            rfl
  | @blank c _ spec hc hg hb _ ih =>
      obtain ⟨front, back, rfl, zone, texts, kind⟩ := ih hitems
      have out : Zone.next .outside c = .outside := by simp [Zone.next, hg]
      refine ⟨c :: front, back, rfl, ?_, ?_, kind⟩
      · rw [Zone.after_cons, out, zone]
      · simp [packed, hb, out, texts]
  | @specifier c _ spec hc hg hb _ ih =>
      cases before with
      | nil => exact absurd (List.cons.inj hitems).1 (by simp)
      | cons item before =>
          obtain ⟨rfl, hlater⟩ := List.cons.inj hitems
          obtain ⟨front, back, rfl, zone, texts, kind⟩ := ih hlater
          have out : Zone.next .outside c = .outside := by simp [Zone.next, hg]
          refine ⟨c :: front, back, rfl, ?_, ?_, kind⟩
          · rw [Zone.after_cons, out, zone]
          · simp [packed, ColumnItem.text, hb, out, texts]

/-! ## Specifications as lexed texts -/

/-- What `spec` is if it was read from `t`: the items up to the first closing brace outside groups,
as the text writes them. -/
structure Lexed (t : Text) (spec : ColumnSpec) : Prop where
  /-- The specification is the part of the text up to the first brace that closes no group; without
  such a brace it is all of the text. -/
  ends : spec.source <+: t ∧
    (IsLeast t.closings spec.size ∨ t.closings = ∅ ∧ spec.size = t.width)
  texts : spec.items.flatMap ColumnItem.text = packed .outside spec.source
  /-- A group stands in the text after the items before it.  It ends at its first unescaped closing
  brace; a group without one is the last item and goes on to the end of the text. -/
  groups : ∀ before g after, spec.items = before ++ .group g :: after →
    ∃ front back, t = front ++ g ++ back ∧ Zone.after .outside front = .outside ∧
      packed .outside front = before.flatMap ColumnItem.text ∧
      (g.IsClosedGroup ∨ g.IsOpenGroup ∧ after = [] ∧ back = [])
  /-- The text of the specification is read as the specification, up to its end. -/
  again : read spec.source = ⟨spec.items, spec.source, []⟩
  /-- So are the texts of the items, without anything between them. -/
  packedAgain : read (spec.items.flatMap ColumnItem.text) =
    ⟨spec.items, spec.items.flatMap ColumnItem.text, []⟩
  columns : spec.columns = spec.types.length ∧ spec.types.length ≤ spec.items.length

/-- The first closing brace outside groups is at the end of what has none, if one stands there. -/
theorem isLeast_closings {s : Text} (hs : s.NoClosing)
    (hzone : Zone.after .outside s = .outside) (u : Text) :
    IsLeast (closings (s ++ '}' :: u)) s.width := by
  refine ⟨⟨s, u, rfl, hzone, rfl⟩, ?_⟩
  rintro place ⟨front, back, hparts, out, rfl⟩
  rcases append_eq_append_cons hparts with ⟨v, hfront, -⟩ | ⟨v, rfl, -⟩
  · exact absurd out (hs front v hfront)
  · rw [width_append]
    exact Nat.le_add_right _ _

/-- Reading a specification is a faithful lexing, whatever the text. -/
theorem lexed_read (t : Text) : Lexed t (read t) where
  ends := by
    obtain ⟨none, hrest⟩ := (readAs_read t).source_closing
    have whole := source_append_rest t
    refine ⟨⟨_, whole⟩, ?_⟩
    rcases hrest with hnil | ⟨u, hbrace, zone⟩
    · rw [hnil, List.append_nil] at whole
      rw [whole] at none
      exact Or.inr ⟨closings_eq_empty none, by rw [size, whole]⟩
    · rw [hbrace] at whole
      have least := isLeast_closings none zone u
      rw [whole] at least
      exact Or.inl least
  texts := (readAs_read t).flatMap_text
  groups _ _ _ := (readAs_read t).group_split
  again := read_source t
  packedAgain := (readAs_read t).flatMap_readAs.read_eq
  columns := by
    refine ⟨(length_types _).symm, ?_⟩
    rw [length_types]
    exact List.countP_le_length

/-- A group that ends in a backslash is not closed by the brace after it. -/
example : (read ['l', ' ', '{', ' ', '\\', '}']).items =
    [.specifier 'l', .group ['{', ' ', '\\', '}']] := by decide +kernel

end ColumnSpec

end NumeralLint
