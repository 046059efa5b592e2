/-
What a search for the leftmost piece finds.

`cut_eq_some_iff` says that `cut` answers with the first place at which the
recogniser succeeds.  A recogniser that never reads over a character `c`
(`StopsAt c`) sees the same text whatever follows that character; so a piece
that starts with `c` is found in the text before it or at it, never across.
A piece that ends with the first `c` (`EndsAt c`) is found in a longer text
where it was found (`cut_append_of_some`).
-/
import NumeralLint.Text.Delimiter

namespace NumeralLint

namespace Text

variable {r : Recogniser}

/-! ## The leftmost piece -/

/-- `cut` finds the first place at which the recogniser succeeds. -/
theorem cut_eq_some_iff {t before after : Text} :
    cut r t = some (before, after) ↔
      ∃ m, t = before ++ m ∧ r m = some after ∧
        ∀ s, s ≠ [] → s <:+ before → r (s ++ m) = none := by
  induction t generalizing before with
  | nil =>
      simp only [cut, Option.map_eq_some_iff, Prod.mk.injEq]
      constructor
      · rintro ⟨u, hu, rfl, rfl⟩
        refine ⟨[], rfl, hu, ?_⟩
        intro s hs hsuf
        exact absurd (List.suffix_nil.mp hsuf) hs
      · rintro ⟨m, hm, hr, -⟩
        obtain ⟨rfl, rfl⟩ := List.append_eq_nil_iff.mp hm.symm
        exact ⟨after, hr, rfl, rfl⟩
  | cons c t ih =>
      rw [cut]
      split
      · next u hu =>
          simp only [Option.some.injEq, Prod.mk.injEq]
          constructor
          · rintro ⟨rfl, rfl⟩
            refine ⟨c :: t, rfl, hu, ?_⟩
            intro s hs hsuf
            exact absurd (List.suffix_nil.mp hsuf) hs
          · rintro ⟨m, hm, hr, first⟩
            cases before with
            | nil =>
                obtain rfl : c :: t = m := hm
                exact ⟨rfl, Option.some.inj (hu.symm.trans hr)⟩
            | cons d before =>
                have := first (d :: before) (by simp) (List.suffix_refl _)
                rw [← hm, hu] at this
                exact absurd this (by simp)
      · next hc =>
          simp only [Option.map_eq_some_iff, Prod.mk.injEq, Prod.exists]
          constructor
          · rintro ⟨b, u, hcut, rfl, rfl⟩
            obtain ⟨m, rfl, hr, first⟩ := ih.mp hcut
            refine ⟨m, rfl, hr, ?_⟩
            intro s hs hsuf
            rcases List.suffix_cons_iff.mp hsuf with rfl | hsuf
            · exact hc
            · exact first s hs hsuf
          · rintro ⟨m, hm, hr, first⟩
            cases before with
            | nil =>
                obtain rfl : c :: t = m := hm
                exact absurd (hc.symm.trans hr) (by simp)
            | cons d before =>
                obtain ⟨rfl, rfl⟩ := List.cons.inj hm
                refine ⟨before, after, ih.mpr ⟨m, rfl, hr, ?_⟩, rfl, rfl⟩
                intro s hs hsuf
                exact first s hs (hsuf.trans (List.suffix_cons c before))

theorem cut_reads (hr : r.Reads) {t before after : Text} (h : cut r t = some (before, after)) :
    ∃ piece, t = before ++ piece ++ after ∧ r (piece ++ after) = some after := by
  obtain ⟨m, rfl, hm, -⟩ := cut_eq_some_iff.mp h
  obtain ⟨piece, rfl⟩ := hr hm
  exact ⟨piece, (List.append_assoc _ _ _).symm, hm⟩

theorem cut_literal_eq_some {s t before after : Text}
    (h : cut (.literal s) t = some (before, after)) : t = before ++ s ++ after := by
  obtain ⟨m, rfl, hm, -⟩ := cut_eq_some_iff.mp h
  rw [Recogniser.literal_eq_some.mp hm, List.append_assoc]

/-- A text is found at the first place that has its first character. -/
theorem cut_literal_of_not_mem {d : Char} {s gap : Text} (h : d ∉ gap) (after : Text) :
    cut (.literal (d :: s)) (gap ++ (d :: s ++ after)) = some (gap, after) := by
  refine cut_eq_some_iff.mpr ⟨d :: s ++ after, rfl, Recogniser.literal_eq_some.mpr rfl, ?_⟩
  intro u hu hsuf
  obtain ⟨e, u, rfl⟩ := List.exists_cons_of_ne_nil hu
  have hed : d ≠ e := by
    rintro rfl
    exact h (hsuf.subset List.mem_cons_self)
  simp [Recogniser.literal, hed]

/-- The first place of a character fixes what stands before it and after it. -/
theorem append_cons_inj {d : Char} {s s' t t' : Text} (hs : d ∉ s) (hs' : d ∉ s')
    (h : s ++ d :: t = s' ++ d :: t') : s = s' ∧ t = t' := by
  have found : cut (.literal [d]) (s ++ d :: t) = some (s, t) := cut_literal_of_not_mem hs t
  have found' : cut (.literal [d]) (s' ++ d :: t') = some (s', t') := cut_literal_of_not_mem hs' t'
  rw [h, found'] at found
  obtain ⟨rfl, rfl⟩ := Prod.mk.inj (Option.some.inj found)
  exact ⟨rfl, rfl⟩

theorem cut_of_some {t after : Text} (h : r t = some after) :
    cut r t = some ([], after) := by
  refine cut_eq_some_iff.mpr ⟨t, rfl, h, ?_⟩
  intro u hu hsuffix
  exact absurd (List.suffix_nil.mp hsuffix) hu

/-- A text that occurs is found, and not behind the place where it occurs. -/
theorem exists_cut_literal (s front back : Text) :
    ∃ before after, (front ++ (s ++ back)).cut (.literal s) = some (before, after) ∧
      before <+: front := by
  induction front with
  | nil =>
      have here : Recogniser.literal s (s ++ back) = some back := Recogniser.literal_eq_some.mpr rfl
      exact ⟨[], back, cut_of_some here, List.prefix_rfl⟩
  | cons c front ih =>
      rw [List.cons_append]
      cases h : Recogniser.literal s (c :: (front ++ (s ++ back))) with
      | some after => exact ⟨[], after, cut_of_some h, List.nil_prefix⟩
      | none =>
          obtain ⟨before, after, hcut, hbefore⟩ := ih
          refine ⟨c :: before, after, ?_, List.cons_prefix_cons.mpr ⟨rfl, hbefore⟩⟩
          rw [cut, h, hcut]
          rfl

theorem prefix_of_cut_literal {s rest before after front back : Text}
    (h : rest.cut (.literal s) = some (before, after)) (hrest : rest = front ++ (s ++ back)) :
    before <+: front := by
  obtain ⟨before', after', hcut, hbefore⟩ := exists_cut_literal s front back
  rw [hrest, hcut] at h
  obtain ⟨rfl, -⟩ := Prod.mk.inj (Option.some.inj h)
  exact hbefore

theorem cut_cons_eq_none {c : Char} {t : Text} :
    cut r (c :: t) = none ↔ r (c :: t) = none ∧ cut r t = none := by
  rw [cut]
  split
  · next u hu => simp [hu]
  · next hu => simp [hu]

theorem occurs_eq_false {t : Text} : occurs r t = false ↔ cut r t = none := by
  simp [occurs]

theorem occurs_cons {c : Char} {t : Text} (h : r (c :: t) = none) :
    occurs r (c :: t) = occurs r t := by
  rw [occurs, occurs, cut, h]
  simp

/-- A piece that starts with `d` is not found before the first `d`. -/
theorem cut_append_of_not_mem {d : Char} (hr : ∀ c t, c ≠ d → r (c :: t) = none) {s : Text}
    (hs : d ∉ s) (t : Text) :
    cut r (s ++ t) = (cut r t).map fun found => (s ++ found.1, found.2) := by
  induction s with
  | nil => simp
  | cons c s ih =>
      obtain ⟨hc, hs⟩ := not_or.mp (mt List.mem_cons.mpr hs)
      have notHere := hr c (s ++ t) (Ne.symm hc)
      simp [cut, notHere, ih hs, Function.comp_def]

end Text

/-! ## Characters over which nothing is read -/

namespace Recogniser

/-- The recogniser never reads over `c`: a `c` and what follows it change nothing but what is
left. -/
def StopsAt (c : Char) (r : Recogniser) : Prop :=
  ∀ t u, r (t ++ c :: u) = (r t).map (· ++ c :: u)

variable {c : Char} {r s : Recogniser}

theorem stopsAt_literal {w : Text} (h : c ∉ w) : StopsAt c (literal w) := by
  intro t u
  induction w generalizing t with
  | nil => rfl
  | cons d w ih =>
      obtain ⟨hd, hw⟩ := not_or.mp (mt List.mem_cons.mpr h)
      cases t with
      | nil => simp [literal, Ne.symm hd]
      | cons e t =>
          by_cases he : d = e
          · simpa [literal, he] using ih hw t
          · simp [literal, he]

theorem stopsAt_many {p : Char → Bool} (h : p c = false) : StopsAt c (many p) := by
  intro t u
  induction t with
  | nil => simp [many, h]
  | cons d t ih =>
      cases hd : p d with
      | true => simpa [many, hd] using ih
      | false => simp [many, hd]

/-- What is read is all of the class, and what follows it is not. -/
theorem many_eq_some {p : Char → Bool} {t rest : Text} :
    many p t = some rest ↔ ∃ piece, t = piece ++ rest ∧ (∀ d ∈ piece, p d = true) ∧
      ∀ d ∈ rest.head?, p d = false := by
  constructor
  · intro h
    obtain rfl : t.dropWhile p = rest := Option.some.inj h
    refine ⟨t.takeWhile p, List.takeWhile_append_dropWhile.symm, ?_, ?_⟩
    · intro d hd
      exact List.all_eq_true.mp List.all_takeWhile d hd
    · intro d hd
      have notIn := List.head?_dropWhile_not p t
      rw [Option.mem_def.mp hd] at notIn
      simpa using notIn
  · rintro ⟨piece, rfl, hpiece, hrest⟩
    rw [many, List.dropWhile_append_of_pos hpiece]
    cases rest with
    | nil => rfl
    | cons d rest => rw [List.dropWhile_cons_of_neg (by simp [hrest d rfl])]

/-- A piece that is read has no character over which nothing is read. -/
theorem StopsAt.not_mem (h : StopsAt c r) {piece rest : Text} (hr : r (piece ++ rest) = some rest) :
    c ∉ piece := by
  intro hc
  obtain ⟨s, u, rfl⟩ := List.append_of_mem hc
  have whole : s ++ c :: u ++ rest = s ++ c :: (u ++ rest) := by simp
  rw [whole, h] at hr
  obtain ⟨v, -, hv⟩ := Option.map_eq_some_iff.mp hr
  have := congrArg List.length hv
  simp only [List.length_append, List.length_cons] at this
  omega

theorem orElse_of_some {t u : Text} (h : r t = some u) : r.orElse s t = some u := by
  simp [orElse, h]

theorem orElse_of_none {t : Text} (h : r t = none) : r.orElse s t = s t := by simp [orElse, h]

theorem optional_of_some {t u : Text} (h : r t = some u) : optional r t = some u := by
  simp [optional, h]

theorem optional_of_none {t : Text} (h : r t = none) : optional r t = some t := by
  simp [optional, h]

theorem andThen_eq_some {t rest : Text} :
    r.andThen s t = some rest ↔ ∃ u, r t = some u ∧ s u = some rest :=
  Option.bind_eq_some_iff

theorem stopsAt_andThen (hr : StopsAt c r) (hs : StopsAt c s) : StopsAt c (r.andThen s) := by
  intro t u
  rw [andThen, andThen, hr t u]
  cases r t with
  | none => rfl
  | some v => exact hs v u

/-- Reads what a delimiter has after its backslash. -/
def delimiterTail (command : Text) (name : Recogniser) : Recogniser :=
  (literal command).andThen <| blanks.andThen <| (literal ['{']).andThen <| blanks.andThen <|
    name.andThen delimiterEnd

theorem delimiter_cons (command : Text) (name : Recogniser) (d : Char) (t : Text) :
    delimiter command name (d :: t) =
      if d = '\\' then delimiterTail command name t else none := by
  by_cases hd : d = '\\'
  · simp only [delimiter, delimiterStart, delimiterTail, andThen, literal, hd, if_true,
      Option.bind_assoc]
    rfl
  · simp [delimiter, delimiterStart, andThen, literal, hd, Ne.symm hd]

theorem reads_delimiterTail {command : Text} {name : Recogniser} (hn : Reads name) :
    Reads (delimiterTail command name) :=
  reads_andThen (reads_literal _) <| reads_andThen (reads_many _) <|
    reads_andThen (reads_literal _) <| reads_andThen (reads_many _) <|
      reads_andThen hn (reads_andThen (reads_many _) (reads_literal _))

theorem stopsAt_delimiterTail {command : Text} {name : Recogniser} (hc : '\\' ∉ command)
    (hn : StopsAt '\\' name) : StopsAt '\\' (delimiterTail command name) := by
  have hblanks : StopsAt '\\' blanks := stopsAt_many (by decide)
  have hend : StopsAt '\\' delimiterEnd := stopsAt_andThen hblanks (stopsAt_literal (by decide))
  exact stopsAt_andThen (stopsAt_literal hc) <| stopsAt_andThen hblanks <|
    stopsAt_andThen (stopsAt_literal (by decide)) <| stopsAt_andThen hblanks <|
      stopsAt_andThen hn hend

/-- No part of a delimiter but its first character is a backslash. -/
theorem delimiter_append {command : Text} {name : Recogniser} (hc : '\\' ∉ command)
    (hn : StopsAt '\\' name) (d : Char) (t u : Text) :
    delimiter command name (d :: t ++ '\\' :: u) =
      (delimiter command name (d :: t)).map (· ++ '\\' :: u) := by
  rw [List.cons_append, delimiter_cons, delimiter_cons]
  split
  · exact stopsAt_delimiterTail hc hn t u
  · rfl

/-- A delimiter starts with a backslash. -/
theorem delimiter_of_ne (command : Text) (name : Recogniser) (d : Char) (t : Text) (hd : d ≠ '\\') :
    delimiter command name (d :: t) = none := by
  rw [delimiter_cons, if_neg hd]

theorem cut_delimiter_of_not_mem (command : Text) (name : Recogniser) {s : Text} (h : '\\' ∉ s)
    (t : Text) : Text.cut (delimiter command name) (s ++ t) =
      (Text.cut (delimiter command name) t).map fun found => (s ++ found.1, found.2) :=
  Text.cut_append_of_not_mem (delimiter_of_ne command name) h t

/-! ## Characters with which a piece ends -/

/-- A piece that the recogniser reads ends at the latest with the first `c`: what follows a `c`
changes nothing but what is left. -/
def EndsAt (c : Char) (r : Recogniser) : Prop :=
  ∀ t u, r (t ++ c :: u) = (r (t ++ [c])).map (· ++ u)

theorem endsAt_literal (c : Char) : EndsAt c (literal [c]) := by
  intro t u
  cases t with
  | nil => simp [literal]
  | cons d t => by_cases h : c = d <;> simp [literal, h]

theorem endsAt_andThen (hr : StopsAt c r) (hs : EndsAt c s) : EndsAt c (r.andThen s) := by
  intro t u
  rw [andThen, andThen, hr t u, hr t []]
  cases r t with
  | none => rfl
  | some v => exact hs v u

theorem endsAt_delimiter {command : Text} {name : Recogniser} (hc : '}' ∉ command)
    (hn : StopsAt '}' name) : EndsAt '}' (delimiter command name) := by
  have hblanks : StopsAt '}' blanks := stopsAt_many (by decide)
  have hstart : StopsAt '}' (delimiterStart command) :=
    stopsAt_andThen (stopsAt_literal (by simp [hc])) <| stopsAt_andThen hblanks <|
      stopsAt_andThen (stopsAt_literal (by decide)) hblanks
  exact endsAt_andThen hstart <| endsAt_andThen hn <| endsAt_andThen hblanks (endsAt_literal '}')

theorem EndsAt.append (h : EndsAt c r) {t : Text} (ht : c ∈ t) (u : Text) :
    r (t ++ u) = (r t).map (· ++ u) := by
  obtain ⟨s, v, rfl⟩ := List.append_of_mem ht
  rw [List.append_assoc, List.cons_append, h s (v ++ u), h s v, Option.map_map]
  refine congrArg (Option.map · _) (funext fun rest => ?_)
  simp

end Recogniser

namespace Text

/-- Where `r` finds nothing in the text before a character over which it does not read, it finds
what it finds from that character on. -/
theorem cut_append {r : Recogniser} {c : Char} {u : Text}
    (hr : ∀ d t, r (d :: t ++ c :: u) = (r (d :: t)).map (· ++ c :: u)) {p : Text}
    (hp : cut r p = none) :
    cut r (p ++ c :: u) = (cut r (c :: u)).map fun found => (p ++ found.1, found.2) := by
  induction p with
  | nil => simp
  | cons d p ih =>
      obtain ⟨hd, hp⟩ := cut_cons_eq_none.mp hp
      have hd' : r (d :: (p ++ c :: u)) = none := by
        rw [← List.cons_append, hr, hd]
        rfl
      simp [cut, hd', ih hp, Function.comp_def]

theorem cut_eq_none_iff {t : Text} : cut r t = none ↔ ∀ m, m <:+ t → r m = none := by
  induction t with
  | nil => simp [cut]
  | cons d t ih =>
      rw [cut_cons_eq_none, ih]
      constructor
      · rintro ⟨hd, ht⟩ m hm
        rcases List.suffix_cons_iff.mp hm with rfl | hm
        · exact hd
        · exact ht m hm
      · intro h
        exact ⟨h _ (List.suffix_refl _), fun m hm => h m (hm.trans (List.suffix_cons d t))⟩

theorem occurs_eq_true {r : Recogniser} {t : Text} :
    t.occurs r = true ↔ ∃ m, m <:+ t ∧ (r m).isSome = true := by
  rw [← Bool.not_eq_false, occurs_eq_false, cut_eq_none_iff]
  constructor
  · intro h
    obtain ⟨m, hm⟩ := Classical.not_forall.mp h
    obtain ⟨hsuffix, hread⟩ := Classical.not_imp.mp hm
    exact ⟨m, hsuffix, Option.isSome_iff_ne_none.mpr hread⟩
  · rintro ⟨m, hsuffix, hread⟩ h
    rw [h m hsuffix] at hread
    exact absurd hread (by simp)

/-- What is found in a text is found in a longer one. -/
theorem cut_append_of_some (hr : r.EndsAt c) (hc : ∀ m rest, r m = some rest → c ∈ m)
    {t before after : Text} (h : cut r t = some (before, after)) (u : Text) :
    cut r (t ++ u) = some (before, after ++ u) := by
  obtain ⟨m, rfl, hm, first⟩ := cut_eq_some_iff.mp h
  have inside : c ∈ m := hc m after hm
  refine cut_eq_some_iff.mpr ⟨m ++ u, by rw [List.append_assoc], ?_, ?_⟩
  · rw [hr.append inside, hm]
    rfl
  · intro s hs hsuffix
    rw [← List.append_assoc, hr.append (List.mem_append_right _ inside), first s hs hsuffix]
    rfl

/-- Where nothing is found in a text that ends in `c`, what is found in a longer text is found after
it. -/
theorem cut_append_of_none (hr : r.EndsAt c) {t : Text} (ht : ∀ m, m <:+ t → m ≠ [] → c ∈ m)
    (h : cut r t = none) (u : Text) :
    cut r (t ++ u) = (cut r u).map fun found => (t ++ found.1, found.2) := by
  induction t with
  | nil => simp
  | cons d t ih =>
      obtain ⟨hd, hcut⟩ := cut_cons_eq_none.mp h
      have notHere : r (d :: (t ++ u)) = none := by
        have := hr.append (ht _ (List.suffix_refl _) (List.cons_ne_nil d t)) u
        rwa [hd] at this
      have later := ih (fun m hm => ht m (hm.trans (List.suffix_cons d t))) hcut
      simp [cut, notHere, later, Function.comp_def]

end Text

end NumeralLint
