/-
Configurations as JSON, written and read.

Numbers and flags stand under the names that users write in the file; what is
not there has its usual value, and names that mean nothing are passed over.
-/
import NumeralLint.Config.Basic
import NumeralLint.Json.Record
import NumeralLint.Json.Value

namespace NumeralLint

namespace SmallIntegers.Settings

open Json

def form : RecordForm SmallIntegers.Settings where
  fields :=
    [.ofDecoder "enabled".toList readBool shrinks_readBool fun c v => { c with enabled := v },
      .ofDecoder "max_value".toList readInt shrinks_readInt fun c v => { c with limit := v }]
  complete := false
  initial := usual

def toJson (c : SmallIntegers.Settings) : JsonValue :=
  .object [("enabled".toList, .bool c.enabled), ("max_value".toList, .number (Text.ofInt c.limit))]

end SmallIntegers.Settings

namespace Alignment.Settings

open Json

def form : RecordForm Alignment.Settings where
  fields :=
    [.ofDecoder "enabled".toList readBool shrinks_readBool fun c v => { c with enabled := v },
      .ofDecoder "density_threshold".toList readFloat shrinks_readFloat
        fun c v => { c with threshold := v },
      .ofDecoder "aligned_types".toList (readList readChar shrinks_readChar)
        (shrinks_readList shrinks_readChar) fun c v => { c with alignedTypes := v }]
  complete := false
  initial := usual

def toJson (c : Alignment.Settings) : JsonValue :=
  .object
    [("enabled".toList, .bool c.enabled),
      ("density_threshold".toList, .number (DecimalStyle.json.float c.threshold)),
      ("aligned_types".toList, .array (c.alignedTypes.map fun type => .string [type]))]

end Alignment.Settings

namespace Config

def form : RecordForm Config where
  fields :=
    [.ofDecoder "number_words".toList SmallIntegers.Settings.form.read
        SmallIntegers.Settings.form.shrinks_read fun c v => { c with smallIntegers := v },
      .ofDecoder "tabular".toList Alignment.Settings.form.read
        Alignment.Settings.form.shrinks_read fun c v => { c with alignment := v }]
  complete := false
  initial := usual

def toJson (config : Config) : JsonValue :=
  .object
    [("number_words".toList, config.smallIntegers.toJson), ("tabular".toList, config.alignment.toJson)]

/-- The configuration that a text writes. -/
def parse (t : Text) : Except ConfigFault Config :=
  match Decoder.readAll form.read t with
  | .error fault => .error (.unparsable fault)
  | .ok config => config.validated

end Config

end NumeralLint
