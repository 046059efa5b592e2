/-
The configuration of the linter: which rules are applied, and their limits.

Every part has a usual value, so a configuration file says only what it
changes.  A threshold is a part of the rows, so it lies between zero and one,
and the largest integer to be spelled out is not negative.
-/
import NumeralLint.Decimal.Notation
import NumeralLint.Json.Decoder
import NumeralLint.Prose.SmallIntegers
import NumeralLint.Source.FileFault
import NumeralLint.Table.Alignment

namespace NumeralLint

/-- What is configured of the rule on small integers. -/
structure SmallIntegers.Settings where
  enabled : Bool
  /-- The largest integer that is to be spelled out. -/
  limit : Int

/-- What is configured of the rule on tables. -/
structure Alignment.Settings where
  enabled : Bool
  /-- A column is one of numbers if they fill more than this part of the rows. -/
  threshold : Float
  /-- The column types that align numbers at the decimal point. -/
  alignedTypes : List Char

structure Config where
  smallIntegers : SmallIntegers.Settings
  alignment : Alignment.Settings

def SmallIntegers.Settings.usual : SmallIntegers.Settings := ⟨true, SmallIntegers.usualLimit⟩

def Alignment.Settings.usual : Alignment.Settings :=
  ⟨true, Alignment.usualThreshold, Alignment.usualAlignedTypes⟩

/-! ## Faults -/

/-- Why there is no configuration. -/
inductive ConfigFault where
  /-- The file cannot be read. -/
  | unreadable (fault : FileFault)
  /-- The text is not the JSON of a configuration. -/
  | unparsable (fault : JsonFault)
  /-- The threshold is no part of the rows. -/
  | thresholdOutside (threshold : Float)
  /-- The largest integer to be spelled out is negative. -/
  | limitNegative (limit : Int)

namespace Config

def usual : Config := ⟨.usual, .usual⟩

/-- The fault of a configuration with a value out of its range.  The threshold is looked at first. -/
def fault? (config : Config) : Option ConfigFault :=
  if !(0 ≤ config.alignment.threshold && config.alignment.threshold ≤ 1) then
    some (.thresholdOutside config.alignment.threshold)
  else if config.smallIntegers.limit < 0 then
    some (.limitNegative config.smallIntegers.limit)
  else none

/-- The configuration if its values are in their ranges. -/
def validated (config : Config) : Except ConfigFault Config :=
  match config.fault? with
  | some fault => .error fault
  | none => .ok config

end Config

namespace ConfigFault

/-- The fault in words, of which those of JSON are left out. -/
def message : ConfigFault → Text
  | unreadable fault => "failed to read configuration: ".toList ++ fault.message
  | unparsable _ => "malformed configuration".toList
  | thresholdOutside threshold =>
      "invalid configuration: tabular.density_threshold must lie in [0, 1], got ".toList
        ++ DecimalStyle.plain.float threshold
  | limitNegative limit =>
      "invalid configuration: number_words.max_value must not be negative, got ".toList
        ++ Text.ofInt limit

end ConfigFault

end NumeralLint
