/-
A run of the program, as a function of the files and the options.

Either everything that was asked for is checked, or nothing is printed: a
configuration or a file that cannot be read ends the run.  What the run logs
goes where its messages go, and before them.
-/
import NumeralLint.Advisory.Json
import NumeralLint.Advisory.Render
import NumeralLint.CommandLine.Options
import NumeralLint.Config.Json
import NumeralLint.Linter
import NumeralLint.Log

namespace NumeralLint

/-- The contents of files by their names. -/
abbrev FileReader := Text → Except FileFault Text

/-- What ends a run before its output. -/
inductive RunFault where
  /-- There is no configuration in the file of this name. -/
  | configuration (name : Text) (fault : ConfigFault)
  /-- The file of this name cannot be read. -/
  | file (name : Text) (fault : FileFault)

namespace RunFault

/-- What could not be done. -/
def attempt : RunFault → Text
  | configuration name _ => "loading configuration from ".toList ++ name
  | file name _ => "reading ".toList ++ name

/-- Why it could not be done, and why not that.  The words of JSON are left out, and with them the
cause that has no others. -/
def causes : RunFault → List Text
  | configuration _ (.unreadable fault) => [(ConfigFault.unreadable fault).message, fault.message]
  | configuration _ fault => [fault.message]
  | file _ fault => [fault.message]

/-- The causes on lines of their own, numbered if there are several. -/
def causeLines : List Text → Text
  | [cause] => "\n    ".toList ++ cause
  | causes =>
      (causes.mapIdx fun n cause => "\n    ".toList ++ Text.ofNat n ++ ": ".toList ++ cause).flatten

/-- The fault in words. -/
def message (fault : RunFault) : Text :=
  "Error: ".toList ++ fault.attempt ++ "\n\nCaused by:".toList ++ causeLines fault.causes ++ ['\n']

end RunFault

/-- What a run leaves behind. -/
structure Outcome where
  exitCode : Nat
  stdout : Text
  /-- The log records and the message for the user, apart from the output. -/
  stderr : Text
deriving DecidableEq

namespace Outcome

/-- The run was ended by something that could not be done. -/
def failure (fault : RunFault) : Outcome := ⟨1, [], fault.message⟩

/-- The outcome with what was logged before it. -/
def after (outcome : Outcome) (log : Text) : Outcome :=
  { outcome with stderr := log ++ outcome.stderr }

end Outcome

namespace Config

/-- The name of the configuration file that is used if it is there and no other is named. -/
def fileName : Text := ".texnum.json".toList

def load (files : FileReader) (name : Text) : Except ConfigFault Config :=
  match files name with
  | .error fault => .error (.unreadable fault)
  | .ok t => parse t

end Config

namespace Options

/-- The name of the configuration file to read, if there is one. -/
def configName? (o : Options) (files : FileReader) : Option Text :=
  match o.configFile with
  | some name => some name
  | .none =>
      match files Config.fileName with
      | .error .missing => .none
      | _ => some Config.fileName

/-- The configuration of a run. -/
def config (o : Options) (files : FileReader) : Except RunFault Config :=
  match o.configName? files with
  | .none => .ok .usual
  | some name =>
      match Config.load files name with
      | .ok config => .ok config
      | .error fault => .error (.configuration name fault)

/-- What is logged of the configuration: a file that is read without being named. -/
def configRecords (o : Options) (files : FileReader) : List LogRecord :=
  match o.configFile, o.configName? files with
  | .none, some name =>
      [⟨.commandLine, .debug, "using configuration from ".toList ++ name⟩]
  | _, _ => []

def linter (o : Options) (config : Config) : Linter :=
  if o.ruleIds.isEmpty then .ofConfig config else (Linter.ofConfig config).restrict o.ruleIds

end Options

namespace Linter

/-- The advisories on files in order, if all of them can be read. -/
def checkAll (linter : Linter) (files : FileReader) : List Text → Except RunFault (List Advisory)
  | [] => .ok []
  | name :: rest =>
      match files name with
      | .error fault => .error (.file name fault)
      | .ok t =>
          match linter.checkAll files rest with
          | .error fault => .error fault
          | .ok found => .ok (linter.check (.uncommented name t) ++ found)

/-- What is logged of a file that was checked: what the rules log, and how much was found. -/
def fileRecords (linter : Linter) (doc : Document) : List LogRecord :=
  let tally := Text.ofNat (linter.check doc).length
  linter.logRecords doc ++
    [⟨.commandLine, .debug, doc.resource ++ ": ".toList ++ tally ++ " advisories".toList⟩]

/-- What is logged of files in order, to the first that cannot be read. -/
def checkRecords (linter : Linter) (files : FileReader) : List Text → List LogRecord
  | [] => []
  | name :: rest =>
      match files name with
      | .error _ => []
      | .ok t => linter.fileRecords (.uncommented name t) ++ linter.checkRecords files rest

/-- The identifiers and descriptions of the rules, a line each. -/
def listing (linter : Linter) : Text :=
  linter.rules.flatMap fun rule => rule.id ++ '\t' :: rule.description ++ ['\n']

end Linter

/-- Advisories as the output of a run. -/
def OutputFormat.print : OutputFormat → List Advisory → Text
  | text, found => found.flatMap fun a => a.render ++ ['\n', '\n']
  | json, found => Advisory.listToJson found ++ ['\n']

/-- How many advisories there are, in words; nothing is said in JSON or of none. -/
def OutputFormat.tally : OutputFormat → List Advisory → Text
  | text, found =>
      if found.isEmpty then [] else Text.ofNat found.length ++ " advisories\n".toList
  | json, _ => []

namespace Options

/-- The outcome when the files were checked. -/
def report (o : Options) (found : List Advisory) : Outcome :=
  let format := o.format.getD .text
  { exitCode := if found.isEmpty || o.noFail then 0 else 1
    stdout := format.print found
    stderr := format.tally found }

/-- The outcome without what is logged. -/
def outcome (o : Options) (files : FileReader) : Outcome :=
  match o.config files with
  | .error fault => .failure fault
  | .ok config =>
      let linter := o.linter config
      if o.listRules then ⟨0, linter.listing, []⟩
      else
        match linter.checkAll files o.files with
        | .error fault => .failure fault
        | .ok found => o.report found

/-- What a run logs, in order. -/
def logRecords (o : Options) (files : FileReader) : List LogRecord :=
  o.configRecords files ++
    match o.config files with
    | .error _ => []
    | .ok config => if o.listRules then [] else (o.linter config).checkRecords files o.files

/-- The log records that are let through if no filter is set: warnings, and more if the user asks
for more. -/
def letsThrough (o : Options) (record : LogRecord) : Bool :=
  match record.level with
  | .warn => true
  | .debug => o.verbose
  | .trace => false

/-- A run.  What it logs is written while it checks, and so before any message; nothing is written
of it unless it is said how. -/
def run (o : Options) (files : FileReader) (logging : Logging := .off) : Outcome :=
  (o.outcome files).after (logging.written o.letsThrough (o.logRecords files))

end Options

end NumeralLint
