/-
The program: reads the files that the command line names, runs the linter and
prints what it found.
-/
import NumeralLint.CommandLine.Run

open NumeralLint

/-- What is said about a command line that asks for nothing that can be done. -/
def usage : String :=
  "usage: [--format text|json] [--config FILE] [--rule ID] [--list-rules] [--no-fail] " ++
    "[--verbose] FILE..."

/-- Reads a file as a text. -/
def readTextFile (name : String) : IO (Except FileFault Text) := do
  try
    match String.fromUTF8? (← IO.FS.readBinFile name) with
    | some content => return .ok content.toList
    | none => return .error .notText
  catch
    | .noFileOrDirectory .. => return .error .missing
    | _ => return .error .directory

/-- Runs the program on the arguments of the command line. -/
def main (args : List String) : IO UInt32 := do
  match Options.parse? (args.map String.toList) with
  | none =>
      IO.eprintln usage
      return 2
  | some options =>
      let names := options.configFile.getD Config.fileName :: options.files
      let contents ← names.mapM fun name => do
        return (name, ← readTextFile (String.ofList name))
      let files : FileReader := fun name => (contents.lookup name).getD (.error .missing)
      let outcome := options.run files .plain
      IO.print (String.ofList outcome.stdout)
      IO.eprint (String.ofList outcome.stderr)
      return outcome.exitCode.toUInt32
