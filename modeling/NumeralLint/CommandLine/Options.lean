/-
The options of the command line.

An option that takes a value takes it from the same argument after an equals
sign, or else from the next argument.  Every option but the choice of rules
may be given once.  After two dashes all arguments are names of files.
-/
import NumeralLint.Text.Basic

namespace NumeralLint

/-- The form in which advisories are printed. -/
inductive OutputFormat where
  | text
  | json
deriving DecidableEq

/-- What the command line asks for. -/
structure Options where
  /-- The files to check, in order. -/
  files : List Text
  format : Option OutputFormat
  /-- The configuration file, if it is named. -/
  configFile : Option Text
  /-- The rules to apply; all of them if none is named. -/
  ruleIds : List Text
  /-- Whether the rules are to be listed and nothing checked. -/
  listRules : Bool
  /-- Whether advisories leave the exit code at zero. -/
  noFail : Bool
  verbose : Bool
deriving DecidableEq

namespace Options

def none : Options := ⟨[], .none, .none, [], false, false, false⟩

/-- Whether an argument is the name of an option, or of several. -/
def isOptionLike : Text → Bool
  | '-' :: _ :: _ => true
  | _ => false

/-- The name of an option and its value after an equals sign. -/
def splitValue (arg : Text) : Text × Option Text :=
  match arg.dropWhile (· != '=') with
  | [] => (arg, .none)
  | _ :: value => (arg.takeWhile (· != '='), some value)

/-- The options with a flag set.  A flag is set once. -/
def setFlag? (o : Options) (name : Text) : Option Options :=
  if name = "--list-rules".toList then
    if o.listRules then .none else some { o with listRules := true }
  else if name = "--no-fail".toList then
    if o.noFail then .none else some { o with noFail := true }
  else if name = "--verbose".toList ∨ name = ['-', 'v'] then
    if o.verbose then .none else some { o with verbose := true }
  else .none

def formatOf? (value : Text) : Option OutputFormat :=
  if value = "text".toList then some .text
  else if value = "json".toList then some .json
  else .none

/-- The options with a value set. -/
def setValue? (o : Options) (name value : Text) : Option Options :=
  if name = "--format".toList then
    if o.format.isSome then .none
    else (formatOf? value).map fun format => { o with format := some format }
  else if name = "--config".toList then
    if o.configFile.isSome || value.isEmpty then .none else some { o with configFile := some value }
  else if name = "--rule".toList then some { o with ruleIds := o.ruleIds ++ [value] }
  else .none

def takesValue (name : Text) : Bool :=
  ["--format", "--config", "--rule"].any fun known => known.toList == name

def addFile? (o : Options) (file : Text) : Option Options :=
  if file.isEmpty then .none else some { o with files := o.files ++ [file] }

def addFiles? (o : Options) : List Text → Option Options
  | [] => some o
  | file :: rest => (o.addFile? file).bind fun o' => o'.addFiles? rest

def addArguments? (o : Options) : List Text → Option Options
  | [] => some o
  | arg :: rest =>
      if arg = ['-', '-'] then o.addFiles? rest
      else if !isOptionLike arg then (o.addFile? arg).bind fun o' => o'.addArguments? rest
      else
        match splitValue arg, rest with
        | (name, some value), rest =>
            (o.setValue? name value).bind fun o' => o'.addArguments? rest
        | (name, .none), value :: rest =>
            if takesValue name then
              if isOptionLike value then .none
              else (o.setValue? name value).bind fun o' => o'.addArguments? rest
            else (o.setFlag? name).bind fun o' => o'.addArguments? (value :: rest)
        | (name, .none), [] => o.setFlag? name

/-- The options of a command line.  There must be files, unless the rules are to be listed. -/
def parse? (args : List Text) : Option Options :=
  (none.addArguments? args).filter fun o => o.listRules || !o.files.isEmpty

end Options

end NumeralLint
