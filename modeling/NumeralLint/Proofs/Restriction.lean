/-
Fewer rules, fewer reports, and no others.

An advisory carries the identifier of the rule that made it
(`Rule.ruleId_of_mem_check`), and the rules of a linter do not see each other.
So taking rules out of a linter takes out their advisories and changes neither
the others nor their order (`Linter.check_filter`), also where a rule occurs
twice or an identifier belongs to no rule.  Rules are taken out in two ways: a
configuration may disable one before the linter is built, and the command line
may ask for some of those that were built.  Both come to a filter on the
identifiers of the rules.
-/
import NumeralLint.CommandLine.Run

namespace NumeralLint

namespace Rule

theorem ruleId_of_mem_check {doc : Document} {rule : Rule} {a : Advisory}
    (h : a ∈ rule.check doc) : a.ruleId = rule.id := by
  obtain ⟨finding, -, rfl⟩ := List.mem_map.mp h
  rfl

theorem filter_check (keep : Text → Bool) (doc : Document) (rule : Rule) :
    (rule.check doc).filter (fun a => keep a.ruleId) =
      if keep rule.id then rule.check doc else [] := by
  split
  · next hkeep =>
      refine List.filter_eq_self.mpr fun a ha => ?_
      rw [ruleId_of_mem_check ha, hkeep]
  · next hkeep =>
      refine List.filter_eq_nil_iff.mpr fun a ha => ?_
      rw [ruleId_of_mem_check ha]
      exact hkeep

theorem contains_id (rule : Rule) :
    [Alignment.ruleId].contains rule.id = (rule.id != SmallIntegers.ruleId) ∧
      [SmallIntegers.ruleId].contains rule.id = (rule.id != Alignment.ruleId) := by
  cases rule with
  | smallIntegers rule => exact ⟨rfl, rfl⟩
  | alignment rule => exact ⟨rfl, rfl⟩

end Rule

namespace Linter

/-- The linter with those of its rules whose identifiers meet a condition. -/
def filter (linter : Linter) (keep : Text → Bool) : Linter where
  rules := linter.rules.filter fun rule => keep rule.id

variable (linter : Linter) (keep : Text → Bool)

/-- The rules that are left report what they report in the whole linter, and in the same order. -/
theorem check_filter (doc : Document) :
    (linter.filter keep).check doc = (linter.check doc).filter fun a => keep a.ruleId := by
  obtain ⟨rules⟩ := linter
  induction rules with
  | nil => rfl
  | cons rule rest ih =>
      show List.flatMap (Rule.check doc) ((rule :: rest).filter fun rule => keep rule.id) =
        (rule.check doc ++ check ⟨rest⟩ doc).filter fun a => keep a.ruleId
      rw [List.filter_append, rule.filter_check, ← ih, List.filter_cons]
      split
      · rfl
      · rfl

theorem checkAll_filter (files : FileReader) (names : List Text) :
    (linter.filter keep).checkAll files names =
      (linter.checkAll files names).map fun found => found.filter fun a => keep a.ruleId := by
  induction names with
  | nil => rfl
  | cons name rest ih =>
      rw [checkAll, checkAll]
      cases files name with
      | error fault => rfl
      | ok t =>
          dsimp only
          rw [ih]
          cases linter.checkAll files rest with
          | error fault => rfl
          | ok found =>
              show Except.ok ((linter.filter keep).check (.uncommented name t) ++
                found.filter fun a => keep a.ruleId) =
                  Except.ok ((linter.check (.uncommented name t) ++ found).filter fun a =>
                    keep a.ruleId)
              rw [check_filter, List.filter_append]

/-- Whatever is checked, the linter reports what the linter `full` reports but for the advisories of
the rule `id`. -/
structure ReportsWithout (linter full : Linter) (id : Text) : Prop where
  check : ∀ doc, linter.check doc = (full.check doc).filter fun a => a.ruleId != id
  checkAll : ∀ files names, linter.checkAll files names =
    (full.checkAll files names).map fun found => found.filter fun a => a.ruleId != id

theorem reportsWithout_filter (full : Linter) (id : Text) :
    (full.filter (· != id)).ReportsWithout full id where
  check := full.check_filter (· != id)
  checkAll := full.checkAll_filter (· != id)

theorem restrict_eq_filter :
    linter.restrict [Alignment.ruleId] = linter.filter (· != SmallIntegers.ruleId) ∧
      linter.restrict [SmallIntegers.ruleId] = linter.filter (· != Alignment.ruleId) := by
  constructor
  · exact congrArg Linter.mk (List.filter_congr fun rule _ => rule.contains_id.1)
  · exact congrArg Linter.mk (List.filter_congr fun rule _ => rule.contains_id.2)

end Linter

namespace Config

/-- The configuration with the rule `id` disabled. -/
def without (config : Config) (id : Text) : Config where
  smallIntegers := { config.smallIntegers with
    enabled := config.smallIntegers.enabled && SmallIntegers.ruleId != id }
  alignment := { config.alignment with
    enabled := config.alignment.enabled && Alignment.ruleId != id }

theorem fault?_without (config : Config) (id : Text) :
    (config.without id).fault? = config.fault? := rfl

theorem ofConfig_without (config : Config) (id : Text) :
    Linter.ofConfig (config.without id) = (Linter.ofConfig config).filter (· != id) := by
  have kept : ∀ (enabled : Bool) (rule : Rule),
      (if enabled then [rule] else []).filter (fun r => r.id != id) =
        if enabled && rule.id != id then [rule] else [] := by
    intro enabled rule
    cases enabled with
    | false => rfl
    | true =>
        rw [if_pos rfl, List.filter_cons, Bool.true_and]
        rfl
  refine congrArg Linter.mk ?_
  rw [Linter.ofConfig, List.filter_append, kept, kept]
  rfl

/-- There are two ways to leave the rule `id` out of a configuration, and they come to the same: to
disable it, which does not make the configuration invalid, and to ask on the command line for the
rule `other` alone. -/
structure LeavesOut (config : Config) (id other : Text) : Prop where
  valid : (config.without id).fault? = config.fault?
  disabled : (Linter.ofConfig (config.without id)).ReportsWithout (.ofConfig config) id
  restricted : ∀ o : Options,
    ({ o with ruleIds := [other] }.linter config).ReportsWithout (.ofConfig config) id

/-- Whatever rules a linter has, restricting it to some identifiers leaves the advisories with these
identifiers, in the same order.  And in any configuration, to disable one of the two rules and to ask
for the other alone both leave the advisories of the whole configuration without those of the
rule. -/
theorem check_restrict_leavesOut :
    (∀ (linter : Linter) (ids : List Text) (doc : Document),
      (linter.restrict ids).check doc =
        (linter.check doc).filter fun a => ids.contains a.ruleId) ∧
    ∀ config : Config, config.LeavesOut SmallIntegers.ruleId Alignment.ruleId ∧
      config.LeavesOut Alignment.ruleId SmallIntegers.ruleId := by
  refine ⟨fun linter ids doc => linter.check_filter ids.contains doc, fun config => ?_⟩
  have disabled : ∀ id, (Linter.ofConfig (config.without id)).ReportsWithout (.ofConfig config) id := by
    intro id
    rw [config.ofConfig_without id]
    exact Linter.reportsWithout_filter _ id
  obtain ⟨tablesOnly, wordsOnly⟩ := (Linter.ofConfig config).restrict_eq_filter
  have restricted : ∀ {id other : Text},
      (Linter.ofConfig config).restrict [other] = (Linter.ofConfig config).filter (· != id) →
        ∀ o : Options, ({ o with ruleIds := [other] }.linter config).ReportsWithout
          (.ofConfig config) id := by
    intro id other hrestrict o
    have asked : { o with ruleIds := [other] }.linter config =
        (Linter.ofConfig config).restrict [other] := rfl
    rw [asked, hrestrict]
    exact Linter.reportsWithout_filter _ id
  exact ⟨⟨config.fault?_without _, disabled _, restricted tablesOnly⟩,
    ⟨config.fault?_without _, disabled _, restricted wordsOnly⟩⟩

end Config

end NumeralLint
