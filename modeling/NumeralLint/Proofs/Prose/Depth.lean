/-
Which lines are prose.

The depth of blocks is a balance of opening and closing lines that is cut off
at zero after every line.  Such a balance is the greatest of the plain
balances over the last lines (`isGreatest_depthOf`): one more line moves all
these balances alike, but for the one over no lines at all.  So it can be
told without a depth which lines are prose (`depthInside_eq_zero_iff`), and
what the rule finds is what there is to find in these lines
(`findings_eq_flatten`).
-/
import Mathlib.Data.List.Flatten
import Mathlib.Data.List.Induction
import Mathlib.Order.Bounds.Basic
import Mathlib.Order.MinMax
import NumeralLint.Linter

namespace NumeralLint

/-- The depth after a line that is read at a depth. -/
def depthStep (depth : Nat) (line : Text) : Nat := depthAfter (depthInside depth line) line

/-- The depth after some lines. -/
def depthOf (lines : List Text) : Nat := lines.foldl depthStep 0

/-- How many more of the lines open a block than close one. -/
def blockBalance (lines : List Text) : Int :=
  (lines.countP beginsBlock : Int) - lines.countP endsBlock

/-- Line `n` is prose: from whichever line `k` on, no more of the lines up to `n` open a block than
lines before `n` close one. -/
def IsProse (lines : List Text) (n : Nat) : Prop :=
  ∀ k ≤ n, ((lines.take (n + 1)).drop k).countP beginsBlock ≤
    ((lines.take n).drop k).countP endsBlock

instance (lines : List Text) (n : Nat) : Decidable (IsProse lines n) :=
  inferInstanceAs (Decidable (∀ k ≤ n, _))

/-! ## The depth as a greatest balance -/

theorem depthOf_concat (lines : List Text) (line : Text) :
    depthOf (lines ++ [line]) = depthStep (depthOf lines) line := by
  simp [depthOf]

theorem blockBalance_append (earlier later : List Text) :
    blockBalance (earlier ++ later) = blockBalance earlier + blockBalance later := by
  simp only [blockBalance, List.countP_append]
  omega

theorem depthInside_eq_add (depth : Nat) (line : Text) :
    depthInside depth line = depth + [line].countP beginsBlock := by
  rw [depthInside, List.countP_singleton]
  split <;> rfl

/-- A line adds its balance to the depth, but the depth does not fall below zero. -/
theorem depthStep_eq_max (depth : Nat) (line : Text) :
    (depthStep depth line : Int) = max 0 (depth + blockBalance [line]) := by
  simp only [depthStep, depthAfter, depthInside_eq_add, blockBalance, List.countP_singleton]
  split <;> split <;> omega

theorem blockBalance_le_depthOf {last lines : List Text} (h : last <:+ lines) :
    blockBalance last ≤ depthOf lines := by
  induction lines using List.reverseRecOn generalizing last with
  | nil =>
      rw [List.suffix_nil.mp h]
      exact Int.le_refl 0
  | append_singleton lines line ih =>
      rw [depthOf_concat, depthStep_eq_max]
      rcases List.suffix_concat_iff.mp h with rfl | ⟨last, rfl, hlast⟩
      · exact le_max_left _ _
      · rw [blockBalance_append]
        exact le_max_of_le_right (Int.add_le_add_right (ih hlast) _)

theorem exists_depthOf_eq_blockBalance (lines : List Text) :
    ∃ last, last <:+ lines ∧ (depthOf lines : Int) = blockBalance last := by
  induction lines using List.reverseRecOn with
  | nil => exact ⟨[], List.suffix_refl [], rfl⟩
  | append_singleton lines line ih =>
      obtain ⟨last, hlast, hdepth⟩ := ih
      rw [depthOf_concat, depthStep_eq_max]
      rcases max_choice 0 ((depthOf lines : Int) + blockBalance [line]) with h | h
      · exact ⟨[], List.nil_suffix, h⟩
      · refine ⟨last ++ [line], List.suffix_concat_iff.mpr (Or.inr ⟨last, rfl, hlast⟩), ?_⟩
        rw [h, hdepth, blockBalance_append]

theorem suffix_take_iff {lines last : List Text} {n : Nat} :
    last <:+ lines.take n ↔ ∃ k ≤ n, last = (lines.take n).drop k := by
  constructor
  · intro h
    refine ⟨(lines.take n).length - last.length, ?_, List.suffix_iff_eq_drop.mp h⟩
    have := List.length_take_le n lines
    omega
  · rintro ⟨k, -, rfl⟩
    exact List.drop_suffix _ _

theorem isGreatest_depthOf (lines : List Text) (n : Nat) :
    IsGreatest {b | ∃ k ≤ n, b = blockBalance ((lines.take n).drop k)}
      (depthOf (lines.take n) : Int) := by
  constructor
  · obtain ⟨last, hlast, hdepth⟩ := exists_depthOf_eq_blockBalance (lines.take n)
    obtain ⟨k, hk, rfl⟩ := suffix_take_iff.mp hlast
    exact ⟨k, hk, hdepth⟩
  · rintro b ⟨k, -, rfl⟩
    exact blockBalance_le_depthOf (List.drop_suffix _ _)

/-! ## Prose -/

theorem drop_take_succ {lines : List Text} {k n : Nat} (hk : k ≤ n) :
    (lines.take (n + 1)).drop k = (lines.take n).drop k ++ lines[n]?.toList := by
  rw [List.take_add_one]
  by_cases h : k ≤ (lines.take n).length
  · exact List.drop_append_of_le_length h
  · have past : lines[n]? = none := by
      rw [List.length_take] at h
      exact List.getElem?_eq_none (by omega)
    simp [past]

theorem isProse_iff (lines : List Text) (n : Nat) :
    IsProse lines n ↔
      depthOf (lines.take n) + lines[n]?.toList.countP beginsBlock = 0 := by
  have count : ∀ last : List Text,
      (last ++ lines[n]?.toList).countP beginsBlock ≤ last.countP endsBlock ↔
        blockBalance last + lines[n]?.toList.countP beginsBlock ≤ 0 := by
    intro last
    rw [List.countP_append, blockBalance]
    omega
  obtain ⟨⟨k, hk, hdepth⟩, greatest⟩ := isGreatest_depthOf lines n
  constructor
  · intro hprose
    have atMost := hprose k hk
    rw [drop_take_succ hk, count, ← hdepth] at atMost
    omega
  · intro hzero k hk
    have bound := greatest ⟨k, hk, rfl⟩
    rw [drop_take_succ hk, count]
    omega

theorem depthInside_eq_zero_iff {lines : List Text} {n : Nat} {line : Text}
    (h : lines[n]? = some line) :
    depthInside (depthOf (lines.take n)) line = 0 ↔ IsProse lines n := by
  rw [isProse_iff, h, depthInside_eq_add, Option.toList_some]

theorem depthOf_append_stray {before : List Text} {stray : Text} (hzero : depthOf before = 0)
    (hends : endsBlock stray = true) (after : List Text) :
    depthOf (before ++ stray :: after) = depthOf (before ++ after) := by
  have step : depthStep 0 stray = 0 := by
    simp only [depthStep, depthAfter, depthInside, hends, if_true]
    split <;> rfl
  simp only [depthOf, List.foldl_append, List.foldl_cons] at hzero ⊢
  rw [hzero, step]

theorem isProse_append_stray {before : List Text} {stray : Text} (hzero : depthOf before = 0)
    (hends : endsBlock stray = true) (after : List Text) (n : Nat) :
    IsProse (before ++ stray :: after) (before.length + 1 + n) ↔
      IsProse (before ++ after) (before.length + n) := by
  have place : before.length + 1 + n = before.length + (n + 1) := by omega
  have same : (before ++ stray :: after)[before.length + (n + 1)]? =
      (before ++ after)[before.length + n]? := by
    simp [List.getElem?_append_right]
  rw [isProse_iff, isProse_iff, place, same, List.take_length_add_append,
    List.take_length_add_append, List.take_succ_cons, depthOf_append_stray hzero hends]

/-! ## Findings -/

namespace SmallIntegers

variable (rule : SmallIntegers)

/-- What is found in a line of prose. -/
def proseFindings (place : Nat → Nat → Range) (line : Text) : List Finding :=
  (rule.proseEvents line).filterMap (Event.finding? place)

theorem readLines_eq_mapIdx (earlier lines : List Text) :
    rule.readLines (depthOf earlier) lines =
      lines.mapIdx fun n line => (rule.readLine (depthOf (earlier ++ lines.take n)) line).2 := by
  induction lines generalizing earlier with
  | nil => rfl
  | cons line rest ih =>
      have next : (rule.readLine (depthOf earlier) line).1 = depthOf (earlier ++ [line]) :=
        (depthOf_concat earlier line).symm
      rw [readLines, next, ih, List.mapIdx_cons]
      simp

theorem findings_readLine (place : Nat → Nat → Range) (depth : Nat) (line : Text) :
    (rule.readLine depth line).2.filterMap (Event.finding? place) =
      if depthInside depth line = 0 then rule.proseFindings place line else [] := by
  simp only [readLine, List.filterMap_append, proseFindings]
  split <;> split <;> simp [Event.finding?]

theorem findings_eq_flatten (place : Nat → Nat → Nat → Range) (lines : List Text) :
    rule.findings place lines =
      ((lines.map Text.trimEnd).mapIdx fun n line =>
        if IsProse (lines.map Text.trimEnd) n then rule.proseFindings (place n) line
        else []).flatten := by
  generalize htrim : lines.map Text.trimEnd = trimmed
  have read := rule.readLines_eq_mapIdx [] trimmed
  have zero : depthOf [] = 0 := rfl
  rw [zero] at read
  rw [findings, events, htrim, read, List.mapIdx_mapIdx]
  refine congrArg List.flatten (List.mapIdx_eq_mapIdx_iff.mpr ?_)
  intro n hn
  have line : trimmed[n]? = some trimmed[n] := List.getElem?_eq_getElem hn
  rw [Function.comp_apply, List.nil_append, findings_readLine]
  simp only [depthInside_eq_zero_iff line]

/-- Blocks look neither at limits nor at sentences, so one rule finds a part of what another finds in
a text as soon as this holds of every line. -/
theorem findings_sublist_of_lines {rule rule' : SmallIntegers}
    (h : ∀ place line, (rule.proseFindings place line).Sublist (rule'.proseFindings place line))
    (place : Nat → Nat → Nat → Range) (lines : List Text) :
    (rule.findings place lines).Sublist (rule'.findings place lines) := by
  rw [findings_eq_flatten, findings_eq_flatten, List.mapIdx_eq_zipIdx_map,
    List.mapIdx_eq_zipIdx_map]
  refine List.Sublist.flatMap_right _ ?_
  rintro ⟨line, n⟩ _
  dsimp only
  split
  · exact h (place n) line
  · exact List.Sublist.refl _

theorem exists_prose_of_mem_findings {place : Nat → Nat → Nat → Range} {lines : List Text}
    {finding : Finding} (h : finding ∈ rule.findings place lines) :
    ∃ n line start stop, (lines.map Text.trimEnd)[n]? = some line ∧
      IsProse (lines.map Text.trimEnd) n ∧ finding.range = place n start stop := by
  rw [findings_eq_flatten] at h
  obtain ⟨found, hfound, hmem⟩ := List.mem_flatten.mp h
  obtain ⟨n, hn, rfl⟩ := List.mem_mapIdx.mp hfound
  split at hmem
  · next hprose =>
      obtain ⟨event, -, hevent⟩ := List.mem_filterMap.mp hmem
      cases event with
      | missing text => exact absurd hevent (by simp [Event.finding?])
      | strayEnd line => exact absurd hevent (by simp [Event.finding?])
      | report start stop =>
          obtain rfl := Option.some.inj hevent
          exact ⟨n, _, start, stop, List.getElem?_eq_getElem hn, hprose, rfl⟩
  · exact absurd hmem List.not_mem_nil

/-- Blocks are suppressed by balance alone, whatever cuts the lines into sentences: the depth after
`n` lines is the greatest balance over the last of them, and what is reported is what there is to
report in the lines that are prose.  A line that closes a block at depth zero counts for nothing in
the lines after it: they have the depth, and are prose, as if it were left out. -/
theorem suppression_eq_balance (doc : Document) :
    let lines := doc.lines.map Text.trimEnd
    (∀ n, IsGreatest {b | ∃ k ≤ n, b = blockBalance ((lines.take n).drop k)}
      (depthOf (lines.take n) : Int)) ∧
    (Rule.smallIntegers rule).check doc = doc.advisories ruleId
      (lines.mapIdx fun n line =>
        if IsProse lines n then rule.proseFindings (doc.originalRange n) line else []).flatten ∧
    ∀ before stray after, lines = before ++ stray :: after → depthOf before = 0 →
      endsBlock stray = true → ∀ n,
        depthOf (before ++ stray :: after.take n) = depthOf (before ++ after.take n) ∧
        (IsProse lines (before.length + 1 + n) ↔
          IsProse (before ++ after) (before.length + n)) := by
  intro lines
  refine ⟨isGreatest_depthOf lines, ?_, ?_⟩
  · exact congrArg (doc.advisories ruleId) (rule.findings_eq_flatten doc.originalRange doc.lines)
  · intro before stray after hlines hzero hends n
    rw [hlines]
    exact ⟨depthOf_append_stray hzero hends _, isProse_append_stray hzero hends after n⟩

/-- Two ends of blocks that were never opened, on one line, and a display after them.  The numeral
after the display is reported. -/
theorem suppression_eq_balance_two_ends :
    let rule : SmallIntegers := ⟨10, Abbreviations.usual.sentences⟩
    let doc := Document.plain "t.tex".toList "\\] \\end\x7btable\x7d\n\\[ 3\n\\]\n4 cats\n".toList
    let stray := "\\] \\end\x7btable\x7d".toList
    let after := ["\\[ 3".toList, "\\]".toList, "4 cats".toList]
    (doc.lines.map Text.trimEnd = [] ++ stray :: after ∧ depthOf [] = 0 ∧
      endsBlock stray = true) ∧
    (∀ n, depthOf (stray :: after.take n) = depthOf (after.take n) ∧
      (IsProse (doc.lines.map Text.trimEnd) (0 + 1 + n) ↔ IsProse after (0 + n))) ∧
    IsProse (doc.lines.map Text.trimEnd) 3 ∧
    (rule.findings doc.originalRange doc.lines).map Finding.range = [⟨⟨3, 0⟩, ⟨3, 1⟩⟩] := by
  intro rule doc stray after
  have lines : doc.lines.map Text.trimEnd = [] ++ stray :: after := by decide +kernel
  have ends : endsBlock stray = true := by decide +kernel
  have later := (rule.suppression_eq_balance doc).2.2 [] stray after lines rfl ends
  have prose : IsProse after 2 := by decide +kernel
  exact ⟨⟨lines, rfl, ends⟩, later, (later 2).2.mpr prose, by decide +kernel⟩

end SmallIntegers

end NumeralLint
