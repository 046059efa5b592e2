/-
Configurations from objects.

A configuration file gives some of the settings, in objects with their fields
in any order, and may hold other fields as well (`Config.Given.WrittenAs`).
What it gives is put in the place of the usual settings, at either level, and
everything else stays as usual (`Config.Given.config`).  So what becomes of the
file depends on the values that are given alone: it is the configuration, or
the fault of the first value out of its range (`Config.parse_object`).

Values are given as texts that write them.  A few texts look as if they did and
are refused (`Config.parse_refused`): minus zero is no whole number, a name is
a text and so has no half of a surrogate pair, and the double of a number is
what arithmetic with doubles makes of its digits, which may be too large.
-/
import NumeralLint.Config.Json
import NumeralLint.Proofs.Json.AnyOrder
import NumeralLint.Proofs.Json.Doubles

namespace NumeralLint

open Json

variable {members : List (Text × Text)} {t : Text}

namespace Json

/-- The text writes a whole number that fits into 64 bits with its sign, and not minus zero. -/
def Int64Text (v : Int) (t : Text) : Prop :=
  IntText v t ∧ -0x8000000000000000 ≤ v ∧ v < 0x8000000000000000

/-- The text writes an array of characters, each of them as a string. -/
def CharListText (cs : List Char) (t : Text) : Prop :=
  ∃ items, Encloses .array items t ∧ List.Forall₂ (fun item c => StringText [c] item) items cs

theorem Int64Text.readInt {v : Int} (h : Int64Text v t) : readInt.ReadsBack t v :=
  h.1.readInt h.2.1 h.2.2

theorem CharListText.readList {cs : List Char} (h : CharListText cs t) :
    (readList readChar shrinks_readChar).ReadsBack t cs := by
  obtain ⟨items, htext, hitems⟩ := h
  exact readList_encloses shrinks_readChar htext (hitems.imp fun _ _ hc => hc.readChar)

end Json

/-! ## The rule on small integers -/

namespace SmallIntegers

/-- The settings of the rule that a file gives. -/
structure Given where
  enabled : Option Bool
  limit : Option Int

namespace Given

variable {given : Given}

/-- The usual settings with those that are given in their place. -/
def settings (given : Given) : Settings where
  enabled := given.enabled.getD Settings.usual.enabled
  limit := given.limit.getD Settings.usual.limit

/-- The fields of an object give the settings, and what else is there are values. -/
structure InMembers (given : Given) (members : List (Text × Text)) : Prop where
  enabled : Gives members "enabled".toList BoolText given.enabled
  limit : Gives members "max_value".toList Int64Text given.limit
  others : ∀ m ∈ members, m.1 ∉ ["enabled".toList, "max_value".toList] → IsValue m.2

/-- The text is an object that gives the settings. -/
def WrittenAs (given : Given) (t : Text) : Prop :=
  ∃ members, ObjectText StringText members t ∧ given.InMembers members

theorem WrittenAs.read (h : given.WrittenAs t) : Settings.form.read.ReadsBack t given.settings := by
  obtain ⟨members, htext, hmembers⟩ := h
  have names : Settings.form.DistinctNames := by decide
  have read := @RecordForm.read_anyOrder _ Settings.form members
    [(_, given.enabled.map fun v c => { c with enabled := v }),
      (_, given.limit.map fun v c => { c with limit := v })] names rfl t htext rfl ?gives
      hmembers.others ?independent
  case gives =>
    refine List.forall_mem_cons.mpr ⟨?_, List.forall_mem_singleton.mpr ?_⟩
    · exact hmembers.enabled.map fun _ _ hv => Field.sets_ofDecoder shrinks_readBool hv.readBool
    · exact hmembers.limit.map fun _ _ hv => Field.sets_ofDecoder shrinks_readInt hv.readInt
  case independent =>
    refine List.pairwise_pair.mpr ?_
    exact RecordForm.apart_map (fun _ _ _ => rfl) given.enabled given.limit
  -- Whichever settings are given, the changes that they make to the usual ones are these settings.
  obtain ⟨enabled, limit⟩ := given
  cases enabled <;> cases limit <;> exact read

end Given

end SmallIntegers

/-! ## The rule on tables -/

namespace Alignment

/-- The settings of the rule that a file gives. -/
structure Given where
  enabled : Option Bool
  threshold : Option Float
  alignedTypes : Option (List Char)

namespace Given

variable {given : Given}

/-- The usual settings with those that are given in their place. -/
def settings (given : Given) : Settings where
  enabled := given.enabled.getD Settings.usual.enabled
  threshold := given.threshold.getD Settings.usual.threshold
  alignedTypes := given.alignedTypes.getD Settings.usual.alignedTypes

/-- The fields of an object give the settings, and what else is there are values. -/
structure InMembers (given : Given) (members : List (Text × Text)) : Prop where
  enabled : Gives members "enabled".toList BoolText given.enabled
  threshold : Gives members "density_threshold".toList FloatText given.threshold
  alignedTypes : Gives members "aligned_types".toList CharListText given.alignedTypes
  others : ∀ m ∈ members,
    m.1 ∉ ["enabled".toList, "density_threshold".toList, "aligned_types".toList] → IsValue m.2

/-- The text is an object that gives the settings. -/
def WrittenAs (given : Given) (t : Text) : Prop :=
  ∃ members, ObjectText StringText members t ∧ given.InMembers members

theorem WrittenAs.read (h : given.WrittenAs t) : Settings.form.read.ReadsBack t given.settings := by
  obtain ⟨members, htext, hmembers⟩ := h
  have names : Settings.form.DistinctNames := by decide
  have read := @RecordForm.read_anyOrder _ Settings.form members
    [(_, given.enabled.map fun v c => { c with enabled := v }),
      (_, given.threshold.map fun v c => { c with threshold := v }),
      (_, given.alignedTypes.map fun v c => { c with alignedTypes := v })] names rfl t htext rfl
      ?gives hmembers.others ?independent
  case gives =>
    refine List.forall_mem_cons.mpr ⟨?_, List.forall_mem_cons.mpr ⟨?_,
      List.forall_mem_singleton.mpr ?_⟩⟩
    · exact hmembers.enabled.map fun _ _ hv => Field.sets_ofDecoder shrinks_readBool hv.readBool
    · exact hmembers.threshold.map fun _ _ hv => Field.sets_ofDecoder shrinks_readFloat hv.readFloat
    · exact hmembers.alignedTypes.map fun _ _ hv =>
        Field.sets_ofDecoder (shrinks_readList shrinks_readChar) hv.readList
  case independent =>
    refine .cons (List.forall_mem_cons.mpr ⟨?_, List.forall_mem_singleton.mpr ?_⟩)
      (List.pairwise_pair.mpr ?_)
    · exact RecordForm.apart_map (fun _ _ _ => rfl) given.enabled given.threshold
    · exact RecordForm.apart_map (fun _ _ _ => rfl) given.enabled given.alignedTypes
    · exact RecordForm.apart_map (fun _ _ _ => rfl) given.threshold given.alignedTypes
  obtain ⟨enabled, threshold, alignedTypes⟩ := given
  cases enabled <;> cases threshold <;> cases alignedTypes <;> exact read

end Given

end Alignment

/-! ## Values out of their ranges -/

namespace ConfigFault

/-- The fault is said to be one of the setting with this path. -/
def Names (fault : ConfigFault) (path : Text) : Prop :=
  ∃ problem, fault.message = "invalid configuration: ".toList ++ path ++ problem

theorem names_thresholdOutside (threshold : Float) :
    (thresholdOutside threshold).Names "tabular.density_threshold".toList :=
  ⟨" must lie in [0, 1], got ".toList ++ DecimalStyle.plain.float threshold, rfl⟩

theorem names_limitNegative (limit : Int) :
    (limitNegative limit).Names "number_words.max_value".toList :=
  ⟨" must not be negative, got ".toList ++ Text.ofInt limit, rfl⟩

end ConfigFault

namespace Config

/-- The threshold is a part of the rows. -/
def ThresholdInside (config : Config) : Prop :=
  0 ≤ config.alignment.threshold ∧ config.alignment.threshold ≤ 1

/-- There are three cases, of which the threshold decides first. -/
theorem validated_cases (config : Config) :
    (¬ config.ThresholdInside ∧
      config.validated = .error (.thresholdOutside config.alignment.threshold)) ∨
    (config.ThresholdInside ∧ config.smallIntegers.limit < 0 ∧
      config.validated = .error (.limitNegative config.smallIntegers.limit)) ∨
    (config.ThresholdInside ∧ 0 ≤ config.smallIntegers.limit ∧ config.validated = .ok config) := by
  have inside : (0 ≤ config.alignment.threshold && config.alignment.threshold ≤ 1) = true ↔
      config.ThresholdInside := by
    rw [Bool.and_eq_true, decide_eq_true_eq, decide_eq_true_eq, ThresholdInside]
  rw [validated, fault?]
  by_cases hthreshold : config.ThresholdInside
  · rw [inside.mpr hthreshold, if_neg (by decide)]
    by_cases hlimit : config.smallIntegers.limit < 0
    · rw [if_pos hlimit]
      exact Or.inr (Or.inl ⟨hthreshold, hlimit, rfl⟩)
    · rw [if_neg hlimit]
      exact Or.inr (Or.inr ⟨hthreshold, Int.not_lt.mp hlimit, rfl⟩)
  · rw [Bool.eq_false_iff.mpr (mt inside.mp hthreshold)]
    exact Or.inl ⟨hthreshold, rfl⟩

end Config

/-! ## Whole configurations -/

namespace Config

/-- What a file gives of a configuration. -/
structure Given where
  smallIntegers : Option SmallIntegers.Given
  alignment : Option Alignment.Given

namespace Given

variable {given : Given}

/-- The usual configuration with the settings that are given in their place.  Those of a part that
is given only in part are the usual ones as well. -/
def config (given : Given) : Config where
  smallIntegers := (given.smallIntegers.map SmallIntegers.Given.settings).getD .usual
  alignment := (given.alignment.map Alignment.Given.settings).getD .usual

/-- The fields of an object give the parts, and what else is there are values. -/
structure InMembers (given : Given) (members : List (Text × Text)) : Prop where
  smallIntegers : Gives members "number_words".toList SmallIntegers.Given.WrittenAs
    given.smallIntegers
  alignment : Gives members "tabular".toList Alignment.Given.WrittenAs given.alignment
  others : ∀ m ∈ members, m.1 ∉ ["number_words".toList, "tabular".toList] → IsValue m.2

/-- The text is an object that gives the parts. -/
def WrittenAs (given : Given) (t : Text) : Prop :=
  ∃ members, ObjectText StringText members t ∧ given.InMembers members

theorem WrittenAs.read (h : given.WrittenAs t) : form.read.ReadsBack t given.config := by
  obtain ⟨members, htext, hmembers⟩ := h
  have names : form.DistinctNames := by decide
  have read := @RecordForm.read_anyOrder _ form members
    [(_, given.smallIntegers.map fun v c => { c with smallIntegers := v.settings }),
      (_, given.alignment.map fun v c => { c with alignment := v.settings })] names rfl t htext rfl
      ?gives hmembers.others ?independent
  case gives =>
    refine List.forall_mem_cons.mpr ⟨?_, List.forall_mem_singleton.mpr ?_⟩
    · exact hmembers.smallIntegers.map fun _ _ hv =>
        Field.sets_ofDecoder SmallIntegers.Settings.form.shrinks_read hv.read
    · exact hmembers.alignment.map fun _ _ hv =>
        Field.sets_ofDecoder Alignment.Settings.form.shrinks_read hv.read
  case independent =>
    refine List.pairwise_pair.mpr ?_
    exact RecordForm.apart_map (fun _ _ _ => rfl) given.smallIntegers given.alignment
  obtain ⟨smallIntegers, alignment⟩ := given
  cases smallIntegers <;> cases alignment <;> exact read

/-- What becomes of an object depends only on the configuration that it gives. -/
theorem WrittenAs.parse (h : given.WrittenAs t) {before after : Text} (hbefore : IsSpaces before)
    (hafter : IsSpaces after) :
    Config.parse (before ++ t ++ after) = given.config.validated := by
  rw [Config.parse, h.read.readAll hbefore hafter]

end Given

/-- An object that gives some of the settings, in whatever order and among whatever other fields,
is parsed as the usual configuration with these settings in their place.  It is rejected, with a
fault that names the threshold, if and only if the threshold lies outside of [0, 1], and otherwise,
with one that names the limit, if and only if the limit is negative.  The limit is written as a
whole number other than minus zero, the threshold as a number that denotes it (`FloatText`), and the
names of all fields as texts. -/
theorem parse_object {given : Given} {object before after : Text} (hobject : given.WrittenAs object)
    (hbefore : IsSpaces before) (hafter : IsSpaces after) :
    let config := given.config
    let threshold := config.alignment.threshold
    let limit := config.smallIntegers.limit
    let result := parse (before ++ object ++ after)
    (result = .ok config ↔ (0 ≤ threshold ∧ threshold ≤ 1) ∧ 0 ≤ limit) ∧
    (result = .error (.thresholdOutside threshold) ↔ ¬ (0 ≤ threshold ∧ threshold ≤ 1)) ∧
    (result = .error (.limitNegative limit) ↔ (0 ≤ threshold ∧ threshold ≤ 1) ∧ limit < 0) ∧
    (ConfigFault.thresholdOutside threshold).Names "tabular.density_threshold".toList ∧
    (ConfigFault.limitNegative limit).Names "number_words.max_value".toList := by
  intro config threshold limit result
  have parsed : result = config.validated := hobject.parse hbefore hafter
  have named := And.intro (ConfigFault.names_thresholdOutside threshold)
    (ConfigFault.names_limitNegative limit)
  rcases config.validated_cases with ⟨outside, h⟩ | ⟨inside, negative, h⟩ | ⟨inside, natural, h⟩
  all_goals rw [parsed, h]
  · refine ⟨?_, ?_, ?_, named⟩
    · exact iff_of_false nofun fun hok => outside hok.1
    · exact iff_of_true rfl outside
    · exact iff_of_false nofun fun hneg => outside hneg.1
  · refine ⟨?_, ?_, ?_, named⟩
    · exact iff_of_false nofun fun hok => Int.not_lt.mpr hok.2 negative
    · exact iff_of_false nofun fun hout => hout inside
    · exact iff_of_true rfl ⟨inside, negative⟩
  · refine ⟨?_, ?_, ?_, named⟩
    · exact iff_of_true rfl ⟨inside, natural⟩
    · exact iff_of_false nofun fun hout => hout inside
    · exact iff_of_false nofun fun hneg => Int.not_lt.mpr natural hneg.2

theorem floatText_quarter : FloatText 0.25 "0.25".toList := by
  let l : NumberLiteral := ⟨false, ['0'], "25".toList, none⟩
  have written : l.WrittenAs "0.25".toList :=
    ⟨Pattern.mem_whole.mpr (Or.inl rfl), List.all_eq_true.mp rfl, [], .none, rfl⟩
  have notWhole : ¬ l.IsWhole := fun h => List.cons_ne_nil _ _ h.1
  have counts : l.Counts 25 (-2) := NumberLiteral.counts_of_lt (by decide)
  have scales : Scales (Nat.toFloat 25) (-2 + l.shift) 0.25 := by
    have quarter : Nat.toFloat 25 / Float.ofScientific 1 false 2 = 0.25 := rfl
    rw [← quarter]
    exact .quotient (by decide)
  exact ⟨l, written, .scaled notWhole counts (by decide) scales⟩

/-- The parts in the other order, with the limit alone in one of them, and a field at either level
that is not known, twice at the upper one. -/
theorem parse_object_reordered :
    let unknown : Text × JsonValue := ("x".toList, .array [.null, .object []])
    let tabular : JsonValue := .object [("aligned_types".toList, .array [.string ['"']]), unknown,
      ("density_threshold".toList, .number "0.25".toList)]
    let numberWords : JsonValue := .object [unknown, ("max_value".toList, .number "3".toList)]
    let object := JsonValue.written Layout.pretty 0 (.object [unknown, ("tabular".toList, tabular),
      unknown, ("number_words".toList, numberWords)])
    let given : Given := ⟨some ⟨none, some 3⟩, some ⟨none, some 0.25, some ['"']⟩⟩
    (given.WrittenAs object ∧ IsSpaces ['\n'] ∧ IsSpaces []) ∧
      parse (['\n'] ++ object ++ []) = .ok ⟨⟨true, 3⟩, ⟨true, 0.25, ['"']⟩⟩ := by
  intro unknown tabular numberWords object given
  have unknownValue : ∀ depth, IsValue (unknown.2.written Layout.pretty depth) := by
    intro depth
    refine .array (encloses_written_array Layout.pretty depth [.null, .object []]) ?_
    refine List.forall_mem_cons.mpr ⟨.null, List.forall_mem_singleton.mpr ?_⟩
    exact .object ⟨[], .nil, .none isSpaces_nil⟩ nofun
  have limit : Int64Text 3 "3".toList := ⟨intText_ofNat 3, by decide, by decide⟩
  have types : CharListText ['"'] (JsonValue.written Layout.pretty 2 (.array [.string ['"']])) :=
    ⟨_, encloses_written_array Layout.pretty 2 _, .cons (stringText_quote ['"']) .nil⟩
  have numberWordsWritten : SmallIntegers.Given.WrittenAs ⟨none, some 3⟩
      (numberWords.written Layout.pretty 1) := by
    refine ⟨_, objectText_written Layout.pretty 1 _, ?_, ⟨_, rfl, limit⟩, ?_⟩
    · exact List.forall_mem_cons.mpr ⟨by decide, List.forall_mem_singleton.mpr (by decide)⟩
    · exact List.forall_mem_cons.mpr ⟨fun _ => unknownValue 2,
        List.forall_mem_singleton.mpr fun h => absurd (by decide) h⟩
  have tabularWritten : Alignment.Given.WrittenAs ⟨none, some 0.25, some ['"']⟩
      (tabular.written Layout.pretty 1) := by
    refine ⟨_, objectText_written Layout.pretty 1 _, ?_, ⟨_, rfl, floatText_quarter⟩,
      ⟨_, rfl, types⟩, ?_⟩
    · exact List.forall_mem_cons.mpr ⟨by decide, List.forall_mem_cons.mpr ⟨by decide,
        List.forall_mem_singleton.mpr (by decide)⟩⟩
    · exact List.forall_mem_cons.mpr ⟨fun h => absurd (by decide) h, List.forall_mem_cons.mpr
        ⟨fun _ => unknownValue 2, List.forall_mem_singleton.mpr fun h => absurd (by decide) h⟩⟩
  have written : given.WrittenAs object := by
    refine ⟨_, objectText_written Layout.pretty 0 _, ⟨_, rfl, numberWordsWritten⟩,
      ⟨_, rfl, tabularWritten⟩, ?_⟩
    exact List.forall_mem_cons.mpr ⟨fun _ => unknownValue 1, List.forall_mem_cons.mpr
      ⟨fun h => absurd (by decide) h, List.forall_mem_cons.mpr
        ⟨fun _ => unknownValue 1, List.forall_mem_singleton.mpr fun h => absurd (by decide) h⟩⟩⟩
  have feed : IsSpaces ['\n'] := by simp [IsSpaces, isSpace]
  refine ⟨⟨written, feed, isSpaces_nil⟩, ?_⟩
  refine (parse_object written feed isSpaces_nil).1.mpr ⟨?_, by decide⟩
  show (0 : Float) ≤ 0.25 ∧ (0.25 : Float) ≤ 1
  decide

/-- The fault of JSON for which a text is not parsed. -/
def jsonFault? : Except ConfigFault Config → Option JsonFault
  | .error (.unparsable fault) => some fault
  | _ => none

theorem eq_of_jsonFault? {result : Except ConfigFault Config} {fault : JsonFault}
    (h : jsonFault? result = some fault) : result = .error (.unparsable fault) := by
  unfold jsonFault? at h
  split at h
  · rw [Option.some.inj h]
  · cases h

/-- Minus zero is no limit, half of a surrogate pair is no name, and the threshold may be too large
for the arithmetic of the reader though it is less than the largest double. -/
theorem parse_refused :
    parse "\x7b\"number_words\":\x7b\"max_value\":-0\x7d\x7d".toList =
      .error (.unparsable .unfit) ∧
    parse "\x7b\"\\ud800\":null\x7d".toList = .error (.unparsable .malformed) ∧
    parse "\x7b\"tabular\":\x7b\"density_threshold\":1.797693134862315708e308\x7d\x7d".toList =
      .error (.unparsable .malformed) := by
  refine ⟨?_, ?_, ?_⟩
  · exact eq_of_jsonFault? (by decide +kernel)
  · exact eq_of_jsonFault? (by decide +kernel)
  · exact eq_of_jsonFault? (by decide +kernel)

end Config

end NumeralLint
