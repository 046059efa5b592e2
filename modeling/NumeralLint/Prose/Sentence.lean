/-
Sentences: where a line of prose is cut.

A sentence ends at a full stop, question mark or exclamation mark, together
with the marks and closing brackets that follow, when a blank or the end of
the line comes next.  A full stop after an abbreviation or after a single
capital ends nothing.
-/
import NumeralLint.Text.Blank
import NumeralLint.Text.Lowercase
import NumeralLint.Text.Uppercase

namespace NumeralLint

/-- The marks that end a sentence. -/
def isStop (c : Char) : Bool := c ∈ ['.', '?', '!']

/-- The marks that close a quotation or a bracket. -/
def isCloser (c : Char) : Bool := c ∈ ['"', '\'', ')', ']', '}']

/-- The marks that may follow the first mark of a sentence end. -/
def isEndMark (c : Char) : Bool := isStop c || isCloser c

/-- The characters before which a word begins: blanks, opening brackets and ties. -/
def isWordBreak (c : Char) : Bool := isBlank c || c ∈ ['(', '[', '{', '~']

/-- The abbreviations after which a full stop ends no sentence, in small letters and without their
final full stops. -/
structure Abbreviations where
  words : List Text

namespace Abbreviations

/-- The usual abbreviations of scholarly prose. -/
def usual : Abbreviations where
  words := ["al", "approx", "cf", "ch", "dr", "e.g", "eq", "eqs", "etc", "fig", "figs", "i.e",
    "jr", "mr", "mrs", "ms", "no", "nos", "p", "pp", "prof", "ref", "refs", "resp", "sec", "sect",
    "sr", "st", "tab", "vol", "vs", "viz"].map String.toList

/-- The abbreviations with others added. -/
def insertAll (abbr : Abbreviations) (others : List Text) : Abbreviations where
  words := abbr.words ++ others.map fun w => Text.lowercase (w.dropTrailing (· == '.'))

/-- Whether a full stop after the word belongs to the word. -/
def covers (abbr : Abbreviations) : Text → Bool
  | [c] => isUppercase c || abbr.words.contains (Text.lowercase [c])
  | word => abbr.words.contains (Text.lowercase word)

/-- Whether a full stop belongs to the word before it, given the characters before it, nearest
first. -/
def coversBefore (abbr : Abbreviations) (before : Text) : Bool :=
  abbr.covers (before.takeWhile fun c => !isWordBreak c).reverse

/-- Whether the sentence ends after a run of end marks of which the first is `mark`, given the
characters before that mark, nearest first, and the text after the run. -/
def endsSentence (abbr : Abbreviations) (before : Text) (mark : Char) (after : Text) : Bool :=
  (after.head?.all isBlank) && !(mark == '.' && abbr.coversBefore before)

/-- The parts that sentence ends cut a text into, when the characters `seen` of the first part,
nearest first, have been read. -/
def partsAfter (abbr : Abbreviations) (seen : Text) : Text → List Text
  | [] => [seen.reverse]
  | c :: t =>
      if isStop c then
        let marks := t.takeWhile isEndMark
        let part := marks.reverse ++ c :: seen
        if abbr.endsSentence seen c (t.dropWhile isEndMark) then
          part.reverse :: partsAfter abbr [] (t.dropWhile isEndMark)
        else partsAfter abbr part (t.dropWhile isEndMark)
      else partsAfter abbr (c :: seen) t
termination_by t => t.length
decreasing_by
  all_goals have := (List.dropWhile_suffix (p := isEndMark) (l := t)).length_le
  all_goals simp only [List.length_cons]
  all_goals omega

/-- The parts that sentence ends cut a text into. -/
def parts (abbr : Abbreviations) (t : Text) : List Text := abbr.partsAfter [] t

/-- The sentences of a text: its parts without the blanks around them, if anything is left. -/
def sentences (abbr : Abbreviations) (t : Text) : List Text :=
  ((abbr.parts t).map Text.trim).filter fun s => !s.isEmpty

/-- Cutting a text into parts loses nothing. -/
theorem flatten_partsAfter (abbr : Abbreviations) (seen t : Text) :
    (abbr.partsAfter seen t).flatten = seen.reverse ++ t := by
  fun_induction partsAfter abbr seen t with
  | case1 seen => simp
  | case2 seen c t _ marks part _ ih => simp [part, marks, ih]
  | case3 seen c t _ marks part _ ih => simp [part, marks, ih]
  | case4 seen c t _ ih => simp [ih]

theorem flatten_parts (abbr : Abbreviations) (t : Text) : (abbr.parts t).flatten = t :=
  flatten_partsAfter abbr [] t

end Abbreviations

end NumeralLint
