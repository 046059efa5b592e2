/-
The output in JSON carries the advisories.

The forms of positions, ranges and advisories read back what is written of
them, field by field (`RecordForm.Fills`), as long as the numbers fit into 64
bits.  In a run they do: an advisory points into the text of its file, so no
number of it is larger than the text is wide (`Advisory.PointsAt.fits`).  So
from what a run prints in JSON the advisories can be read, and they are those
that the same run renders in text.
-/
import NumeralLint.Proofs.CommandLine.Files
import NumeralLint.Proofs.Json.Records
import NumeralLint.Proofs.Reports

namespace NumeralLint

open Json Decoder

/-! ## Advisories are read back -/

/-- The numbers of the position fit into 64 bits. -/
structure Position.Fits (p : Position) : Prop where
  line : p.line < 0x10000000000000000
  column : p.column < 0x10000000000000000

/-- The numbers of the advisory fit into 64 bits. -/
structure Advisory.Fits (a : Advisory) : Prop where
  start : a.range.start.Fits
  stop : a.range.stop.Fits
  offset : a.offset < 0x10000000000000000

theorem Position.read_written (layout : Nat → Layout) (depth : Nat) {p : Position} (h : p.Fits) :
    Position.form.read.ReadsBack (p.toJson.written layout depth) p := by
  have names : Position.form.DistinctNames := by decide
  refine RecordForm.read_written names ?_
  refine .field ((readNat_ofNat h.line).map _) ?_
  refine .field ((readNat_ofNat h.column).map _) ?_
  exact .done _

theorem Range.read_written (layout : Nat → Layout) (depth : Nat) {r : Range}
    (hstart : r.start.Fits) (hstop : r.stop.Fits) :
    Range.form.read.ReadsBack (r.toJson.written layout depth) r := by
  have names : Range.form.DistinctNames := by decide
  refine RecordForm.read_written names ?_
  refine .field ((Position.read_written layout (depth + 1) hstart).map _) ?_
  refine .field ((Position.read_written layout (depth + 1) hstop).map _) ?_
  exact .done _

namespace Advisory

theorem read_written (layout : Nat → Layout) (depth : Nat) {a : Advisory} (h : a.Fits) :
    form.read.ReadsBack (a.toJson.written layout depth) a := by
  have names : form.DistinctNames := by decide
  refine RecordForm.read_written names ?_
  refine .field ((readText_quote a.ruleId).map _) ?_
  refine .field ((Range.read_written layout (depth + 1) h.start h.stop).map _) ?_
  refine .field ((readText_quote a.message).map _) ?_
  refine .field ((readText_quote a.resource).map _) ?_
  refine .field ((readText_quote a.line).map _) ?_
  refine .field ((readNat_ofNat h.offset).map _) ?_
  exact .done _

theorem parse_toJson {a : Advisory} (h : a.Fits) (depth : Nat) :
    parse (a.toJson.pretty depth) = .ok a ∧ parse a.toJson.compact = .ok a := by
  have pretty := (read_written Layout.pretty depth h).readAll isSpaces_nil isSpaces_nil
  have compact := (read_written (fun _ => Layout.compact) 0 h).readAll isSpaces_nil isSpaces_nil
  rw [List.nil_append, List.append_nil] at pretty compact
  rw [parse, parse, JsonValue.pretty_eq_written, JsonValue.compact_eq_written 0]
  exact ⟨pretty, compact⟩

/-- The advisories that a text writes as an array. -/
def parseList (t : Text) : Except JsonFault (List Advisory) :=
  Decoder.readAll (readList form.read form.shrinks_read) t

theorem parseList_listToJson {as : List Advisory} (h : ∀ a ∈ as, a.Fits) {rest : Text}
    (hrest : IsSpaces rest) : parseList (listToJson as ++ rest) = .ok as := by
  have items : ItemsReadBack Layout.pretty 0 form.read (as.map toJson) as := by
    refine List.forall₂_map_left_iff.mpr (List.forall₂_same.mpr ?_)
    exact fun a ha => read_written Layout.pretty 1 (h a ha)
  rw [parseList, listToJson, JsonValue.pretty_eq_written]
  exact (readList_written form.shrinks_read items).readAll isSpaces_nil hrest

/-! ## Advisories of a run -/

/-- No number of an advisory is larger than the text it points into is wide. -/
theorem PointsAt.fits {original : Text} {a : Advisory} {before marked after : Text}
    (h : a.PointsAt original before marked after)
    (hsize : original.width < 0x10000000000000000) : a.Fits := by
  obtain ⟨front, returns, back, hat, -, hoffset⟩ := h.inOriginal
  have whole := congrArg Text.width hat.whole
  have line : a.range.start.line ≤ front.width := by
    rw [← hat.number]
    exact Nat.le_trans List.count_le_length (Text.length_le_width front)
  have body := congrArg Text.width h.line
  simp only [Text.width_append] at whole body hoffset
  have number : a.range.start.line < 0x10000000000000000 := by omega
  constructor
  case start =>
    have column := h.start
    exact ⟨number, by omega⟩
  case stop =>
    rw [h.stop]
    have last : (before ++ marked).width < 0x10000000000000000 := by
      rw [Text.width_append]
      omega
    exact ⟨number, last⟩
  case offset => omega

end Advisory

namespace Options

variable {o : Options} {files : FileReader} {config : Config}

/-- The options with output in the given form. -/
def inForm (o : Options) (format : OutputFormat) : Options := { o with format := some format }

theorem run_inForm_of_unchecked
    (h : o.listRules = true ∨ (∃ fault, o.config files = .error fault) ∨
      ∃ name ∈ o.files, ¬files.CanRead name) (format : OutputFormat) (logging : Logging) :
    (o.inForm format).run files logging = o.run files logging := by
  have logged : (o.inForm format).logRecords files = o.logRecords files := rfl
  have same : (o.inForm format).config files = o.config files := rfl
  suffices (o.inForm format).outcome files = o.outcome files by
    rw [run, run, this, logged]
    rfl
  cases hconfig : o.config files with
  | error fault => simp only [outcome, same, hconfig]
  | ok config =>
      cases hlist : o.listRules with
      | true =>
          have hlist' : (o.inForm format).listRules = true := hlist
          simp only [outcome, same, hconfig, hlist, hlist', if_true]
          rfl
      | false =>
          have hunread : ∃ name ∈ o.files, ¬files.CanRead name := by
            simpa [hlist, hconfig] using h
          obtain ⟨-, name, fault, -, -, stops, -⟩ :=
            (o.linter config).exists_first_unreadable hunread
          rw [outcome_of_error hconfig hlist stops]
          exact outcome_of_error (o := o.inForm format) hconfig hlist stops

theorem run_inForm_of_checked (hconfig : o.config files = .ok config)
    (hlist : o.listRules = false) (hread : ∀ name ∈ o.files, files.CanRead name)
    (format : OutputFormat) (logging : Logging) :
    (o.inForm format).run files logging =
      ((o.inForm format).report (o.files.flatMap ((o.linter config).checkFile files))).after
        (o.logOf files config logging o.files) :=
  run_of_ok (o := o.inForm format) hconfig hlist hread logging

theorem fits_of_mem_found {linter : Linter} {names : List Text}
    (hsize : ∀ name ∈ names, ∀ t, files name = .ok t → t.width < 0x10000000000000000) {a : Advisory}
    (ha : a ∈ names.flatMap (linter.checkFile files)) : a.Fits := by
  obtain ⟨name, hname, hmem⟩ := List.mem_flatMap.mp ha
  rw [Linter.checkFile] at hmem
  split at hmem
  · next t ht =>
      obtain ⟨rule, -, hrule⟩ := List.mem_flatMap.mp hmem
      obtain ⟨-, before, marked, after, points, -⟩ := Rule.exists_pointsAt hrule
      exact points.fits (hsize name hname t ht)
  · exact absurd hmem List.not_mem_nil

/-- Advisories whose numbers fit into 64 bits are read back from the array that is printed of them,
and each alone from its object.  So a run that checks files prints the advisories it found in JSON
so that they can be read back, renders the same advisories in text, and ends with the same exit
code; a run that checks nothing does not depend on the form of the output. -/
theorem json_carries_advisories :
    (∀ as : List Advisory, (∀ a ∈ as, a.Fits) →
      Advisory.parseList (Advisory.listToJson as) = .ok as ∧
      ∀ a ∈ as, ∀ depth, Advisory.parse (a.toJson.pretty depth) = .ok a ∧
        Advisory.parse a.toJson.compact = .ok a) ∧
    ∀ (o : Options) (files : FileReader) (logging : Logging),
      let inText := (o.inForm .text).run files logging
      let inJson := (o.inForm .json).run files logging
      ((o.listRules = true ∨ (∃ fault, o.config files = .error fault) ∨
        ∃ name ∈ o.files, ¬files.CanRead name) → inJson = inText) ∧
      ∀ config, o.config files = .ok config → o.listRules = false →
        (∀ name ∈ o.files, ∃ t, files name = .ok t ∧ t.width < 0x10000000000000000) →
        let found := o.files.flatMap ((o.linter config).checkFile files)
        Advisory.parseList inJson.stdout = .ok found ∧
        (inText.stdout = found.flatMap fun a => a.render ++ ['\n', '\n']) ∧
        inJson.exitCode = inText.exitCode := by
  constructor
  · intro as has
    have noMore : IsSpaces [] := fun _ hc => absurd hc List.not_mem_nil
    have list := Advisory.parseList_listToJson has noMore
    rw [List.append_nil] at list
    exact ⟨list, fun a ha depth => Advisory.parse_toJson (has a ha) depth⟩
  · intro o files logging inText inJson
    constructor
    · intro hunchecked
      exact (run_inForm_of_unchecked hunchecked .json logging).trans
        (run_inForm_of_unchecked hunchecked .text logging).symm
    · intro config hconfig hlist hfiles found
      have hread : ∀ name ∈ o.files, files.CanRead name :=
        fun name hname => (hfiles name hname).imp fun _ ht => ht.1
      have hsize : ∀ name ∈ o.files, ∀ t, files name = .ok t → t.width < 0x10000000000000000 := by
        intro name hname t ht
        obtain ⟨t', ht', hwidth⟩ := hfiles name hname
        cases ht'.symm.trans ht
        exact hwidth
      let log := o.logOf files config logging o.files
      have text : inText = ((o.inForm .text).report found).after log :=
        run_inForm_of_checked hconfig hlist hread .text logging
      have json : inJson = ((o.inForm .json).report found).after log :=
        run_inForm_of_checked hconfig hlist hread .json logging
      have feed : IsSpaces ['\n'] := by simp [IsSpaces, isSpace]
      rw [text, json]
      exact ⟨Advisory.parseList_listToJson (fun _ ha => fits_of_mem_found hsize ha) feed, rfl, rfl⟩

/-- An advisory with quotes, controls and the largest numbers; a run over two files, and one in
which a file is not there. -/
theorem json_carries_advisories_controls :
    let a : Advisory := ⟨SmallIntegers.ruleId, ⟨⟨0, 9⟩, ⟨18446744073709551615, 0⟩⟩,
      SmallIntegers.message, "a\\b.tex".toList, "\"é\" \\\t\x01\x7f\u2028 3 𝛼\n".toList,
      18446744073709551615⟩
    let files : FileReader := fun name =>
      match name with
      | ['a'] => .ok "A \"cat\" has 4 legs.\n".toList
      | ['b'] => .ok "\té has 3.\n".toList
      | _ => .error .missing
    let o : List Text → Options := fun names => ⟨names, .none, .none, [], false, false, false⟩
    let both := o [['a'], ['b']]
    let lost := o [['a'], ['c']]
    (a.Fits ∧ Advisory.parseList (Advisory.listToJson [a]) = .ok [a]) ∧
    ((both.config files = .ok .usual ∧ both.listRules = false ∧
        ∀ name ∈ both.files, ∃ t, files name = .ok t ∧ t.width < 0x10000000000000000) ∧
      Advisory.parseList ((both.inForm .json).run files .plain).stdout =
        .ok (both.files.flatMap ((both.linter .usual).checkFile files))) ∧
    (∃ name ∈ lost.files, ¬files.CanRead name) ∧
      (lost.inForm .json).run files .plain = (lost.inForm .text).run files .plain := by
  intro a files o both lost
  have fits : a.Fits := ⟨⟨by decide, by decide⟩, ⟨by decide, by decide⟩, by decide⟩
  have readable : ∀ name ∈ both.files, ∃ t, files name = .ok t ∧ t.width < 0x10000000000000000 :=
    List.forall_mem_cons.mpr
      ⟨⟨_, rfl, by decide⟩, List.forall_mem_singleton.mpr ⟨_, rfl, by decide⟩⟩
  have unreadable : ∃ name ∈ lost.files, ¬files.CanRead name :=
    ⟨['c'], List.mem_cons_of_mem _ List.mem_cons_self,
      FileReader.not_canRead_iff.mpr ⟨.missing, rfl⟩⟩
  obtain ⟨lists, runs⟩ := json_carries_advisories
  have checked := (runs both files .plain).2 .usual rfl rfl readable
  have unchecked := (runs lost files .plain).1 (Or.inr (Or.inr unreadable))
  exact ⟨⟨fits, (lists [a] (List.forall_mem_singleton.mpr fits)).1⟩,
    ⟨⟨rfl, rfl, readable⟩, checked.1⟩, unreadable, unchecked⟩

end Options

end NumeralLint
