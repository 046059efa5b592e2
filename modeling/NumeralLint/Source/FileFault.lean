/-
Why a file cannot be read as a text.
-/
import NumeralLint.Text.Basic

namespace NumeralLint

/-- Why a file cannot be read. -/
inductive FileFault where
  /-- There is no such file. -/
  | missing
  /-- The name is that of a directory. -/
  | directory
  /-- The bytes of the file are no text. -/
  | notText

namespace FileFault

/-- The fault in words. -/
def message : FileFault → Text
  | missing => "No such file or directory (os error 2)".toList
  | directory => "Is a directory (os error 21)".toList
  | notText => "stream did not contain valid UTF-8".toList

end FileFault

end NumeralLint
