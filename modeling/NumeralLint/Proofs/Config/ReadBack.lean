/-
Configurations that are read back.

What the library writes of a configuration is read back field by field
(`RecordForm.Fills`): flags and characters always are, whatever escapes a
character needs, and the limit is as long as it fits into 64 bits with its
sign.  Doubles are another matter, since reading rounds.  That the threshold
reads back alone is therefore supposed, and it is shown that it then does so
inside of the object as well (`DecimalStyle.readFloat_float`).

Parsing ends with a look at the ranges, so no text is parsed as a configuration
that has a fault.
-/
import NumeralLint.Proofs.Config.Objects
import NumeralLint.Proofs.Decimal.Notation
import NumeralLint.Proofs.Json.Records

namespace NumeralLint

open Json Decoder

theorem SmallIntegers.Settings.read_written (layout : Nat → Layout) (depth : Nat)
    {c : SmallIntegers.Settings} (hlow : -0x8000000000000000 ≤ c.limit)
    (hhigh : c.limit < 0x8000000000000000) :
    form.read.ReadsBack (c.toJson.written layout depth) c := by
  have names : form.DistinctNames := by decide
  have enabled : BoolText c.enabled ((JsonValue.bool c.enabled).written layout (depth + 1)) := rfl
  refine RecordForm.read_written names ?_
  refine .field (enabled.readBool.map _) ?_
  refine .field (((intText_ofInt c.limit).readInt hlow hhigh).map _) ?_
  exact .done _

theorem Alignment.Settings.read_written (layout : Nat → Layout) (depth : Nat)
    {c : Alignment.Settings}
    (hthreshold : readFloat (DecimalStyle.json.float c.threshold) = .ok (c.threshold, [])) :
    form.read.ReadsBack (c.toJson.written layout depth) c := by
  have names : form.DistinctNames := by decide
  have enabled : BoolText c.enabled ((JsonValue.bool c.enabled).written layout (depth + 1)) := rfl
  have types : ItemsReadBack layout (depth + 1) readChar
      (c.alignedTypes.map fun type => .string [type]) c.alignedTypes := by
    refine List.forall₂_map_left_iff.mpr (List.forall₂_same.mpr ?_)
    exact fun type _ => (stringText_quote [type]).readChar
  refine RecordForm.read_written names ?_
  refine .field (enabled.readBool.map _) ?_
  refine .field ((DecimalStyle.readFloat_float hthreshold).map _) ?_
  refine .field ((readList_written shrinks_readChar types).map _) ?_
  exact .done _

namespace Config

variable {config : Config} {t : Text}

theorem read_written (layout : Nat → Layout) (depth : Nat)
    (hlow : -0x8000000000000000 ≤ config.smallIntegers.limit)
    (hhigh : config.smallIntegers.limit < 0x8000000000000000)
    (hthreshold : readFloat (DecimalStyle.json.float config.alignment.threshold) =
      .ok (config.alignment.threshold, [])) :
    form.read.ReadsBack (config.toJson.written layout depth) config := by
  have names : form.DistinctNames := by decide
  refine RecordForm.read_written names ?_
  refine .field ((SmallIntegers.Settings.read_written layout (depth + 1) hlow hhigh).map _) ?_
  refine .field ((Alignment.Settings.read_written layout (depth + 1) hthreshold).map _) ?_
  exact .done _

theorem validated_eq_ok_iff {other : Config} :
    config.validated = .ok other ↔ config = other ∧ config.fault? = none := by
  rw [validated]
  cases config.fault? with
  | none => simp
  | some fault => simp

/-- A configuration has no fault if its values lie in their ranges. -/
theorem fault?_eq_none_iff :
    config.fault? = none ↔ config.ThresholdInside ∧ 0 ≤ config.smallIntegers.limit := by
  have valid : config.fault? = none ↔ config.validated = .ok config := by
    rw [validated_eq_ok_iff, and_iff_right rfl]
  rw [valid]
  rcases config.validated_cases with ⟨outside, h⟩ | ⟨-, negative, h⟩ | ⟨inside, natural, h⟩
  all_goals rw [h]
  · exact iff_of_false nofun fun hranges => outside hranges.1
  · exact iff_of_false nofun fun hranges => Int.not_lt.mpr hranges.2 negative
  · exact iff_of_true rfl ⟨inside, natural⟩

theorem fault?_eq_none_of_parse (h : parse t = .ok config) : config.fault? = none := by
  rw [parse] at h
  split at h
  · cases h
  · obtain ⟨rfl, hvalid⟩ := validated_eq_ok_iff.mp h
    exact hvalid

/-- A configuration without a fault, of which the limit fits into 64 bits with its sign and the
threshold reads back, is parsed back from the compact JSON that is written of it, whatever its flags
and its column types are.  And no text is parsed as a configuration with a fault. -/
theorem parse_compact :
    (∀ config : Config, config.fault? = none →
      config.smallIntegers.limit < 0x8000000000000000 →
      readFloat (DecimalStyle.json.float config.alignment.threshold) =
        .ok (config.alignment.threshold, []) →
      parse config.toJson.compact = .ok config) ∧
    ∀ (t : Text) (config : Config), parse t = .ok config → config.fault? = none := by
  refine ⟨?_, fun t config => fault?_eq_none_of_parse⟩
  intro config hvalid hlimit hthreshold
  have natural := (fault?_eq_none_iff.mp hvalid).2
  have read := read_written (fun _ => Layout.compact) 0 (by omega) hlimit hthreshold
  have whole := read.readAll isSpaces_nil isSpaces_nil
  rw [List.nil_append, List.append_nil] at whole
  rw [parse, JsonValue.compact_eq_written 0, whole]
  exact validated_eq_ok_iff.mpr ⟨rfl, hvalid⟩

/-- The largest limit, and column types that need every kind of escape or none. -/
theorem parse_compact_escapes :
    let config : Config :=
      ⟨⟨false, 0x7fffffffffffffff⟩, ⟨true, 0.25, ['S', '"', '\\', '\n', '\x01', 'é', '𝛼']⟩⟩
    (config.fault? = none ∧ config.smallIntegers.limit < 0x8000000000000000 ∧
      readFloat (DecimalStyle.json.float config.alignment.threshold) =
        .ok (config.alignment.threshold, [])) ∧
    parse config.toJson.compact = .ok config := by
  intro config
  have inside : (0 : Float) ≤ 0.25 ∧ (0.25 : Float) ≤ 1 := by decide
  have valid : config.fault? = none := fault?_eq_none_iff.mpr ⟨inside, by decide⟩
  have literal : DecimalStyle.json.float 0.25 = "0.25".toList := by decide +kernel
  have threshold : readFloat (DecimalStyle.json.float config.alignment.threshold) =
      .ok (config.alignment.threshold, []) := by
    show readFloat (DecimalStyle.json.float 0.25) = .ok (0.25, [])
    rw [literal]
    exact floatText_quarter.readFloat.alone
  have limit : config.smallIntegers.limit < 0x8000000000000000 := by decide
  exact ⟨⟨valid, limit, threshold⟩, parse_compact.1 config valid limit threshold⟩

end Config

end NumeralLint
