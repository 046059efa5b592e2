/-
Log records: what a check tells about its course, apart from its advisories.
-/
import NumeralLint.Text.Basic

namespace NumeralLint

/-- How much a log record matters. -/
inductive LogLevel where
  | trace
  | debug
  | warn
deriving DecidableEq

/-- The name of a level. -/
def LogLevel.name : LogLevel → String
  | trace => "trace"
  | debug => "debug"
  | warn => "warn"

/-- The part of the program that a log record comes from. -/
inductive LogOrigin where
  | blocks
  | sentences
  | tables
  | commandLine
deriving DecidableEq

/-- A message at a level. -/
structure LogRecord where
  origin : LogOrigin
  level : LogLevel
  message : Text
deriving DecidableEq

/-- How the log records of a run are written.  Both parts are set from outside the program. -/
structure Logging where
  /-- The filter that is set for the run.  If none is set, the options of the run decide. -/
  filter? : Option (LogRecord → Bool)
  /-- A record as it is written, with the end of its line, after so many others. -/
  write : Nat → LogRecord → Text

namespace Logging

/-- No record is let through. -/
def off : Logging := ⟨some fun _ => false, fun _ _ => []⟩

/-- The level and the message of each record that the options let through. -/
def plain : Logging where
  filter? := none
  write _ record := '[' :: record.level.name.toList ++ "] ".toList ++ record.message ++ ['\n']

/-- The records that are let through, written one after the other; `usual` is what the options of
the run let through. -/
def written (logging : Logging) (usual : LogRecord → Bool) (records : List LogRecord) : Text :=
  ((records.filter (logging.filter?.getD usual)).mapIdx logging.write).flatten

end Logging

end NumeralLint
