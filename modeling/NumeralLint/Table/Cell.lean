/-
Cells: the parts of a table row, and which of them hold a number.
-/
import NumeralLint.Text.Blank
import NumeralLint.Text.Digits
import NumeralLint.Text.Search
import NumeralLint.Text.WordChar

namespace NumeralLint

namespace Recogniser

/-! ## Rules between rows -/

/-- Reads the command `\name`, which ends at a word boundary. -/
def command (name : Text) : Recogniser := fun t =>
  (literal ('\\' :: name) t).filter fun rest => !rest.head?.any isWordChar

/-- Reads a command that draws a rule over the whole width and takes no argument. -/
def fullRule : Recogniser :=
  (command "hline".toList).orElse <| (command "toprule".toList).orElse <|
    (command "midrule".toList).orElse (command "bottomrule".toList)

/-- Reads what stands between two different brackets, brackets included. -/
def bracketed (left right : Char) : Recogniser :=
  (literal [left]).andThen <| (many (· != right)).andThen (literal [right])

/-- Reads a command that draws a rule under some columns, with its trimming and its columns. -/
def partialRule : Recogniser :=
  ((literal "\\crule".toList).orElse (literal "\\cmidrule".toList)).andThen <|
    (optional (bracketed '(' ')')).andThen <| (many isBlank).andThen (bracketed '{' '}')

/-- Reads a command that draws a rule, and the blanks around it. -/
def leadingRule : Recogniser :=
  (many isBlank).andThen <| (fullRule.orElse partialRule).andThen (many isBlank)

/-! ## A rule takes characters off the text -/

theorem reads_bracketed (left right : Char) : Reads (bracketed left right) :=
  reads_andThen (reads_literal _) (reads_andThen (reads_many _) (reads_literal _))

theorem advances_command (name : Text) : Advances (command name) := by
  intro t rest h
  exact advances_literal (by simp) (Option.filter_eq_some_iff.mp h).1

theorem advances_fullRule : Advances fullRule :=
  advances_orElse (advances_command _) <| advances_orElse (advances_command _) <|
    advances_orElse (advances_command _) (advances_command _)

theorem advances_partialRule : Advances partialRule :=
  advances_andThen
    (advances_orElse (advances_literal (by simp)) (advances_literal (by simp)))
    (reads_andThen (reads_optional (reads_bracketed _ _))
      (reads_andThen (reads_many _) (reads_bracketed _ _)))

theorem advances_leadingRule : Advances leadingRule :=
  advances_andThen_right (reads_many _) <|
    advances_andThen (advances_orElse advances_fullRule advances_partialRule) (reads_many _)

end Recogniser

namespace Text

/-- The text without the commands at its start that draw rules. -/
def dropLeadingRules (t : Text) : Text :=
  match _h : Recogniser.leadingRule t with
  | none => t
  | some rest => dropLeadingRules rest
termination_by t.length
decreasing_by exact Recogniser.advances_leadingRule _h

/-- The text with a substitute character for every escaped ampersand. -/
def maskAmpersands : Text → Text
  | [] => []
  | [c] => [c]
  | c :: d :: t =>
      if c = '\\' ∧ d = '&' then '\x1a' :: maskAmpersands t
      else c :: maskAmpersands (d :: t)

/-- The cells of the content of a row. -/
def cells (content : Text) : List Text :=
  splitAtChar '&' (maskAmpersands (dropLeadingRules content))

/-! ## Numbers in cells -/

/-- What follows the digits and point at the start of a text, if there is a digit among them. -/
def afterDecimal? (t : Text) : Option Text :=
  let whole := t.takeWhile Char.isDigit
  match t.dropWhile Char.isDigit with
  | '.' :: rest =>
      if whole.isEmpty && (rest.takeWhile Char.isDigit).isEmpty then none
      else some (rest.dropWhile Char.isDigit)
  | rest => if whole.isEmpty then none else some rest

/-- Whether a text is nothing or an exponent of ten. -/
def isExponentPart : Text → Bool
  | [] => true
  | c :: t => (c == 'e' || c == 'E') && !(dropSign t).isEmpty && (dropSign t).all Char.isDigit

/-- Whether a text is a number: a sign or none, digits with at most one point among or around
them, and an exponent or none. -/
def isNumber (t : Text) : Bool := (afterDecimal? (dropSign t)).any isExponentPart

/-- Whether a cell holds a number and nothing else. -/
def isNumericCell (cell : Text) : Bool := isNumber (trim cell)

end Text

end NumeralLint
