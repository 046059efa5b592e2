/-
Advisories as JSON, written and read.
-/
import NumeralLint.Advisory.Basic
import NumeralLint.Json.Record
import NumeralLint.Json.Value

namespace NumeralLint

open Json

namespace Position

def form : RecordForm Position where
  fields :=
    [.ofDecoder "line".toList readNat shrinks_readNat fun p v => { p with line := v },
      .ofDecoder "column".toList readNat shrinks_readNat fun p v => { p with column := v }]
  complete := true
  initial := origin

def toJson (p : Position) : JsonValue :=
  .object [("line".toList, .ofNat p.line), ("column".toList, .ofNat p.column)]

end Position

namespace Range

def form : RecordForm Range where
  fields :=
    [.ofDecoder "start".toList Position.form.read Position.form.shrinks_read
        fun r v => { r with start := v },
      .ofDecoder "end".toList Position.form.read Position.form.shrinks_read
        fun r v => { r with stop := v }]
  complete := true
  initial := origin

def toJson (r : Range) : JsonValue :=
  .object [("start".toList, r.start.toJson), ("end".toList, r.stop.toJson)]

end Range

namespace Advisory

def form : RecordForm Advisory where
  fields :=
    [.ofDecoder "rule_id".toList readText shrinks_readText fun a v => { a with ruleId := v },
      .ofDecoder "range".toList Range.form.read Range.form.shrinks_read
        fun a v => { a with range := v },
      .ofDecoder "message".toList readText shrinks_readText fun a v => { a with message := v },
      .ofDecoder "resource".toList readText shrinks_readText fun a v => { a with resource := v },
      .ofDecoder "line".toList readText shrinks_readText fun a v => { a with line := v },
      .ofDecoder "offset".toList readNat shrinks_readNat fun a v => { a with offset := v }]
  complete := true
  initial := ⟨[], .origin, [], [], [], 0⟩

def toJson (a : Advisory) : JsonValue :=
  .object
    [("rule_id".toList, .string a.ruleId),
      ("range".toList, a.range.toJson),
      ("message".toList, .string a.message),
      ("resource".toList, .string a.resource),
      ("line".toList, .string a.line),
      ("offset".toList, .ofNat a.offset)]

/-- The advisory that a text writes. -/
def parse (t : Text) : Except JsonFault Advisory := Decoder.readAll form.read t

/-- Advisories as a pretty JSON array. -/
def listToJson (as : List Advisory) : Text := (JsonValue.array (as.map toJson)).pretty 0

end Advisory

end NumeralLint
