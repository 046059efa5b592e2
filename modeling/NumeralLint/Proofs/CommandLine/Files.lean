/-
A run over several files.

The linter carries nothing from one file to the next, so what it reports of
the files is what it reports of each alone, one after the other
(`Linter.checkAll_ok`).  Nothing is printed before the last file was read: a
file that cannot be read leaves nothing of what was found before it
(`Linter.exists_first_unreadable`).  What was logged before it stays, for a
record is written at once; so the message about the file need not be the first
thing the user sees (`Options.firstLine_ne_message`).
-/
import Mathlib.Data.List.Basic
import Mathlib.Data.List.TakeWhile
import NumeralLint.CommandLine.Run

namespace NumeralLint

/-- The file is there and holds a text. -/
def FileReader.CanRead (files : FileReader) (name : Text) : Prop := ∃ t, files name = .ok t

theorem FileReader.not_canRead_iff {files : FileReader} {name : Text} :
    ¬files.CanRead name ↔ ∃ fault, files name = .error fault := by
  rw [CanRead]
  cases files name with
  | error fault => exact iff_of_true nofun ⟨fault, rfl⟩
  | ok t => exact iff_of_false (not_not_intro ⟨t, rfl⟩) nofun

/-- The first line of what the user sees apart from the output. -/
def Outcome.firstLine (outcome : Outcome) : Text := outcome.stderr.takeWhile (· != '\n')

namespace Linter

variable (linter : Linter) {files : FileReader}

/-- The advisories on a file; none if it cannot be read. -/
def checkFile (files : FileReader) (name : Text) : List Advisory :=
  match files name with
  | .ok t => linter.check (.uncommented name t)
  | .error _ => []

/-- What is logged of a file; nothing if it cannot be read. -/
def recordsOf (files : FileReader) (name : Text) : List LogRecord :=
  match files name with
  | .ok t => linter.fileRecords (.uncommented name t)
  | .error _ => []

theorem checkAll_ok {names : List Text} (h : ∀ name ∈ names, files.CanRead name) :
    linter.checkAll files names = .ok (names.flatMap (linter.checkFile files)) := by
  induction names with
  | nil => rfl
  | cons name rest ih =>
      obtain ⟨⟨t, ht⟩, hrest⟩ := List.forall_mem_cons.mp h
      rw [checkAll, ht, ih hrest, List.flatMap_cons, checkFile, ht]

theorem checkRecords_ok {names : List Text} (h : ∀ name ∈ names, files.CanRead name) :
    linter.checkRecords files names = names.flatMap (linter.recordsOf files) := by
  induction names with
  | nil => rfl
  | cons name rest ih =>
      obtain ⟨⟨t, ht⟩, hrest⟩ := List.forall_mem_cons.mp h
      rw [checkRecords, ht, ih hrest, List.flatMap_cons, recordsOf, ht]

/-- If some file cannot be read, the check ends at the first one: what was logged of the files
before it is all that is logged, and the files after it are not looked at. -/
theorem exists_first_unreadable {names : List Text} (h : ∃ name ∈ names, ¬files.CanRead name) :
    ∃ before name fault after,
      (names = before ++ name :: after ∧ (∀ n ∈ before, files.CanRead n) ∧
        files name = .error fault) ∧
      linter.checkAll files names = .error (.file name fault) ∧
      linter.checkRecords files names = before.flatMap (linter.recordsOf files) := by
  induction names with
  | nil =>
      obtain ⟨name, hname, -⟩ := h
      exact absurd hname List.not_mem_nil
  | cons first rest ih =>
      by_cases hfirst : files.CanRead first
      · have later : ∃ name ∈ rest, ¬files.CanRead name := by
          obtain ⟨name, hname, hunread⟩ := h
          rcases List.mem_cons.mp hname with rfl | hrest
          · exact absurd hfirst hunread
          · exact ⟨name, hrest, hunread⟩
        obtain ⟨before, name, fault, after, ⟨rfl, hbefore, hname⟩, stops, logged⟩ := ih later
        refine ⟨first :: before, name, fault, after,
          ⟨rfl, List.forall_mem_cons.mpr ⟨hfirst, hbefore⟩, hname⟩, ?_⟩
        obtain ⟨t, ht⟩ := hfirst
        constructor
        · rw [checkAll, ht, stops]
        · rw [checkRecords, ht, logged, List.flatMap_cons, recordsOf, ht]
      · obtain ⟨fault, hfault⟩ := FileReader.not_canRead_iff.mp hfirst
        refine ⟨[], first, fault, rest, ⟨rfl, List.forall_mem_nil _, hfault⟩, ?_, ?_⟩
        · rw [checkAll, hfault]
        · rw [checkRecords, hfault, List.flatMap_nil]

end Linter

namespace Options

variable {o : Options} {files : FileReader} {config : Config}

/-- The options with one file in place of the files. -/
def only (o : Options) (name : Text) : Options := { o with files := [name] }

/-- What is written of the log of a run that checks the files `names`: the records of the
configuration and of the files, as far as the filter lets them through.  If no filter is set, these
are the warnings, and what is logged for debugging if the user asks for it. -/
def logOf (o : Options) (files : FileReader) (config : Config) (logging : Logging)
    (names : List Text) : Text :=
  let usual : LogRecord → Bool := fun record =>
    record.level = .warn ∨ o.verbose ∧ record.level = .debug
  let records := o.configRecords files ++ names.flatMap ((o.linter config).recordsOf files)
  ((records.filter (logging.filter?.getD usual)).mapIdx logging.write).flatten

theorem letsThrough_eq (o : Options) (record : LogRecord) :
    o.letsThrough record = decide (record.level = .warn ∨ o.verbose ∧ record.level = .debug) := by
  rw [letsThrough]
  cases record.level <;> cases o.verbose <;> rfl

theorem outcome_of_error (hconfig : o.config files = .ok config) (hlist : o.listRules = false)
    {fault : RunFault} (h : (o.linter config).checkAll files o.files = .error fault) :
    o.outcome files = .failure fault := by
  simp only [outcome, hconfig, hlist, h]
  rfl

/-- A run of a valid configuration that does not list the rules logs the configuration and the
files that it checks. -/
theorem run_eq_after (hconfig : o.config files = .ok config) (hlist : o.listRules = false)
    {names : List Text} (hrecords : (o.linter config).checkRecords files o.files =
      names.flatMap ((o.linter config).recordsOf files)) (logging : Logging) :
    o.run files logging = (o.outcome files).after (o.logOf files config logging names) := by
  have logged : o.logRecords files =
      o.configRecords files ++ names.flatMap ((o.linter config).recordsOf files) := by
    simp only [logRecords, hconfig, hlist, hrecords]
    rfl
  rw [run, logged, funext o.letsThrough_eq]
  rfl

theorem run_of_ok (hconfig : o.config files = .ok config) (hlist : o.listRules = false)
    (hread : ∀ name ∈ o.files, files.CanRead name) (logging : Logging) :
    o.run files logging = (o.report (o.files.flatMap ((o.linter config).checkFile files))).after
      (o.logOf files config logging o.files) := by
  have found := (o.linter config).checkAll_ok hread
  rw [run_eq_after hconfig hlist ((o.linter config).checkRecords_ok hread)]
  simp only [outcome, hconfig, hlist, found]
  rfl

theorem run_only (hconfig : o.config files = .ok config) (hlist : o.listRules = false)
    {name : Text} (h : files.CanRead name) (logging : Logging) :
    (o.only name).run files logging =
      (o.report ((o.linter config).checkFile files name)).after
        (o.logOf files config logging [name]) := by
  have alone := run_of_ok (o := o.only name) hconfig hlist (List.forall_mem_singleton.mpr h) logging
  have single : (o.only name).files.flatMap ((o.linter config).checkFile files) =
      (o.linter config).checkFile files name := List.flatMap_singleton _ name
  rw [← single]
  exact alone

theorem print_text_flatMap {α : Type} (names : List α) (foundIn : α → List Advisory) :
    OutputFormat.text.print (names.flatMap foundIn) =
      names.flatMap fun name => OutputFormat.text.print (foundIn name) :=
  List.flatMap_assoc

theorem exitCode_report (o : Options) (found : List Advisory) :
    (o.report found).exitCode = if found ≠ [] ∧ o.noFail = false then 1 else 0 := by
  cases found <;> cases h : o.noFail <;> simp [report, h]

/-- The message about a file starts with its name, on a line that ends where the name does. -/
theorem firstLine_failure {name : Text} (hname : '\n' ∉ name) (fault : FileFault) :
    (Outcome.failure (.file name fault)).firstLine = "Error: reading ".toList ++ name := by
  have noFeed : ∀ c ∈ "Error: reading ".toList ++ name, (c != '\n') = true := by
    intro c hc
    rcases List.mem_append.mp hc with hword | hc
    · have words : "Error: reading ".toList.all (· != '\n') = true := rfl
      exact List.all_eq_true.mp words c hword
    · exact bne_iff_ne.mpr fun feed => hname (feed ▸ hc)
  obtain ⟨rest, message⟩ : ∃ rest, (Outcome.failure (.file name fault)).stderr =
      ("Error: reading ".toList ++ name) ++ '\n' :: rest :=
    ⟨"\nCaused by:".toList ++ RunFault.causeLines [fault.message] ++ ['\n'], by
      show "Error: ".toList ++ ("reading ".toList ++ name) ++ "\n\nCaused by:".toList ++ _ ++ _ = _
      rw [List.append_assoc, List.append_assoc, ← List.append_assoc "Error: ".toList]
      rfl⟩
  rw [Outcome.firstLine, message, List.takeWhile_append_of_pos noFeed,
    List.takeWhile_cons_of_neg (by decide), List.append_nil]

/-- If every file can be read, a run reports what the runs over each file alone report, one after
the other in the order of the files, and repeats what it reports of a file that is named again.  So
the output in text is the outputs of those runs together, and in JSON it is one array; and the exit
code is one if anything is reported, unless that is not to count as a failure.  If some file cannot
be read, nothing is printed, the exit code is one, and the user sees what was logged before the
first such file, and then the message about it.  The message names the file in its first line, so
the first line names it if nothing was logged. -/
theorem run_files (logging : Logging) (hconfig : o.config files = .ok config)
    (hlist : o.listRules = false) :
    ((∀ name ∈ o.files, files.CanRead name) →
      let foundIn := (o.linter config).checkFile files
      let found := o.files.flatMap foundIn
      (o.run files logging = (o.report found).after (o.logOf files config logging o.files) ∧
        ∀ name ∈ o.files, (o.only name).run files logging =
          (o.report (foundIn name)).after (o.logOf files config logging [name])) ∧
      (o.format.getD .text = .text → (o.run files logging).stdout =
        o.files.flatMap fun name => ((o.only name).run files logging).stdout) ∧
      (o.format.getD .text = .json → (o.run files logging).stdout =
        Advisory.listToJson found ++ ['\n']) ∧
      (o.run files logging).exitCode = if found ≠ [] ∧ o.noFail = false then 1 else 0) ∧
    ((∃ name ∈ o.files, ¬files.CanRead name) → ∃ before name fault after,
      (o.files = before ++ name :: after ∧ (∀ n ∈ before, files.CanRead n) ∧
        files name = .error fault) ∧
      let log := o.logOf files config logging before
      o.run files logging = ⟨1, [], log ++ (RunFault.file name fault).message⟩ ∧
      (log = [] → '\n' ∉ name →
        (o.run files logging).firstLine = "Error: reading ".toList ++ name)) := by
  constructor
  · intro hread foundIn found
    have together :
        o.run files logging = (o.report found).after (o.logOf files config logging o.files) :=
      run_of_ok hconfig hlist hread logging
    have alone : ∀ name ∈ o.files, (o.only name).run files logging =
        (o.report (foundIn name)).after (o.logOf files config logging [name]) :=
      fun name hname => run_only hconfig hlist (hread name hname) logging
    refine ⟨⟨together, alone⟩, ?_, ?_, ?_⟩
    · intro htext
      have outputs : ∀ name ∈ o.files, ((o.only name).run files logging).stdout =
          OutputFormat.text.print (foundIn name) := by
        intro name hname
        rw [alone name hname, Outcome.after, report, htext]
      rw [together, Outcome.after, report, htext, print_text_flatMap]
      exact (List.flatMap_congr outputs).symm
    · intro hjson
      rw [together, Outcome.after, report, hjson]
      rfl
    · rw [together, Outcome.after, exitCode_report]
  · intro hunread
    obtain ⟨before, name, fault, after, first, stops, logged⟩ :=
      (o.linter config).exists_first_unreadable hunread
    refine ⟨before, name, fault, after, first, ?_⟩
    intro log
    have failed : o.run files logging = (Outcome.failure (.file name fault)).after log := by
      rw [run_eq_after hconfig hlist logged, outcome_of_error hconfig hlist stops]
    refine ⟨failed, fun hlog hfeed => ?_⟩
    rw [failed, hlog]
    exact firstLine_failure hfeed fault

/-- A file named twice with another one between, and a file that is not there between two others. -/
theorem run_files_repeated :
    let files : FileReader := fun name =>
      match name with
      | ['a'] => .ok "A cat has 4 legs.\n".toList
      | ['b'] => .ok "It has 30 claws.\n".toList
      | _ => .error .missing
    let o : List Text → Options := fun names => ⟨names, some .text, .none, [], false, true, false⟩
    let twice := o [['a'], ['b'], ['a']]
    let lost := o [['a'], ['c'], ['b']]
    ((twice.config files = .ok .usual ∧ twice.listRules = false) ∧
      (∀ name ∈ twice.files, files.CanRead name) ∧
      (twice.run files .plain).stdout =
        twice.files.flatMap fun name => ((twice.only name).run files .plain).stdout) ∧
    ((lost.config files = .ok .usual ∧ lost.listRules = false) ∧
      (∃ name ∈ lost.files, ¬files.CanRead name) ∧
      ∃ before name fault after,
        (lost.files = before ++ name :: after ∧ (∀ n ∈ before, files.CanRead n) ∧
          files name = .error fault) ∧
        lost.run files .plain = ⟨1, [],
          lost.logOf files .usual .plain before ++ (RunFault.file name fault).message⟩) ∧
    (lost.run files).firstLine = "Error: reading c".toList := by
  intro files o twice lost
  have readable : ∀ name ∈ twice.files, files.CanRead name := by
    have ha : files.CanRead ['a'] := ⟨_, rfl⟩
    have hb : files.CanRead ['b'] := ⟨_, rfl⟩
    exact List.forall_mem_cons.mpr
      ⟨ha, List.forall_mem_cons.mpr ⟨hb, List.forall_mem_singleton.mpr ha⟩⟩
  have unreadable : ∃ name ∈ lost.files, ¬files.CanRead name :=
    ⟨['c'], List.mem_cons_of_mem _ List.mem_cons_self,
      FileReader.not_canRead_iff.mpr ⟨.missing, rfl⟩⟩
  have configured : ∀ names, (o names).config files = .ok .usual := fun _ => rfl
  obtain ⟨-, htext, -⟩ := (run_files .plain (configured _) rfl).1 readable
  obtain ⟨before, name, fault, after, first, stops, -⟩ :=
    (run_files .plain (configured _) rfl).2 unreadable
  have named : (lost.run files).firstLine = "Error: reading c".toList := by
    obtain ⟨front, n, _, _, ⟨hfiles, -, hn⟩, -, hfirst⟩ :=
      (run_files .off (configured _) rfl).2 unreadable
    have silent : lost.logOf files .usual .off front = [] := by
      simp [logOf, Logging.off]
    have hmem : n ∈ [['a'], ['c'], ['b']] := by
      show n ∈ lost.files
      rw [hfiles]
      exact List.mem_append_right front List.mem_cons_self
    obtain rfl : n = ['c'] := by
      rcases List.mem_cons.mp hmem with rfl | hmem
      · cases hn
      · rcases List.mem_cons.mp hmem with rfl | hmem
        · rfl
        · obtain rfl := List.mem_singleton.mp hmem
          cases hn
    exact hfirst silent (by decide)
  exact ⟨⟨⟨rfl, rfl⟩, readable, htext rfl⟩, ⟨⟨rfl, rfl⟩, unreadable,
    before, name, fault, after, first, stops⟩, named⟩

/-- A stray end of a block is logged before the message about a file that is not there; and the
name of a file may have several lines. -/
theorem firstLine_ne_message :
    let files : FileReader := fun name =>
      if name = "a.tex".toList then .ok "\\end\x7bequation\x7d\n".toList else .error .missing
    let o : List Text → Options := fun names => ⟨names, .none, .none, [], false, false, false⟩
    let stray := o ["a.tex".toList, "c.tex".toList]
    let split := o ["a\nb.tex".toList]
    (stray.config files = .ok .usual ∧ stray.listRules = false ∧
      files.CanRead "a.tex".toList ∧ files "c.tex".toList = .error .missing ∧
      (stray.run files .plain).firstLine ≠ "Error: reading c.tex".toList) ∧
    (split.config files = .ok .usual ∧ split.listRules = false ∧
      files "a\nb.tex".toList = .error .missing ∧
      (split.run files).firstLine ≠ "Error: reading a\nb.tex".toList) := by
  intro files o stray split
  refine ⟨⟨rfl, rfl, ⟨_, rfl⟩, rfl, ?_⟩, rfl, rfl, rfl, ?_⟩
  · have logged : (stray.run files .plain).firstLine =
        "[warn] block end without a matching begin: \\end\x7bequation\x7d".toList := by
      decide +kernel
    rw [logged]
    decide
  · have cut : (split.run files).firstLine = "Error: reading a".toList := by decide +kernel
    rw [cut]
    decide

end Options

end NumeralLint
