/-
Column specifications, such as `l|c|S` and `@{}lp{3cm}r`.

A specification is a sequence of specifiers, each one character, and of
groups in braces, which are arguments of the specifier before them.  It is
read from the text after its opening brace up to the brace that closes it.
-/
import NumeralLint.Text.Blank
import NumeralLint.Text.Escape

namespace NumeralLint

/-- An item of a column specification. -/
inductive ColumnItem where
  /-- A column type, a rule, or a sign that inserts material. -/
  | specifier (c : Char)
  /-- A group, with its braces. -/
  | group (text : Text)
deriving DecidableEq

namespace ColumnItem

/-- The text of an item. -/
def text : ColumnItem → Text
  | specifier c => [c]
  | group t => t

/-- The first character of an item. -/
def firstChar : ColumnItem → Char
  | specifier c => c
  | group _ => '{'

/-- Whether the item draws a rule between columns. -/
def isRule (item : ColumnItem) : Bool := item = specifier '|'

/-- Whether the item makes a column of data.  Rules and inserted material make none, and a group
belongs to the item before it. -/
def isData : ColumnItem → Bool
  | specifier c => !(c ∈ ['|', '@', '!', '>', '<'])
  | group _ => false

end ColumnItem

/-- A column specification as it was read. -/
structure ColumnSpec where
  items : List ColumnItem
  /-- The text of the specification. -/
  source : Text
  /-- The text after it: the closing brace and what follows, or nothing. -/
  rest : Text

namespace ColumnSpec

/-- Reads a specification, up to a closing brace outside every group.  A group ends at its first
unescaped closing brace, or at the end of the text.  Blanks outside groups mean nothing. -/
def read : Text → ColumnSpec
  | [] => ⟨[], [], []⟩
  | c :: t =>
      if c = '}' then ⟨[], [], c :: t⟩
      else if c = '{' then
        let body := Text.beforeAtom .groupEnd t
        let after := Text.fromAtom .groupEnd t
        let group := '{' :: body ++ after.take 1
        let spec := read (after.drop 1)
        ⟨.group group :: spec.items, group ++ spec.source, spec.rest⟩
      else
        let spec := read t
        if isBlank c then ⟨spec.items, c :: spec.source, spec.rest⟩
        else ⟨.specifier c :: spec.items, c :: spec.source, spec.rest⟩
termination_by t => t.length
decreasing_by
  · have := congrArg List.length (Text.beforeAtom_append_fromAtom .groupEnd t)
    simp only [List.length_append] at this
    simp only [List.length_drop, List.length_cons]
    omega
  · simp

/-- The specification and what follows it make up the text it was read from. -/
theorem source_append_rest (t : Text) : (read t).source ++ (read t).rest = t := by
  fun_induction read t with
  | case1 => rfl
  | case2 t => rfl
  | case3 t body after group spec _ ih =>
      simp only [List.append_assoc, group, spec, ih, List.cons_append, List.cons.injEq, true_and]
      rw [List.take_append_drop]
      exact Text.beforeAtom_append_fromAtom .groupEnd t
  | case4 c t _ _ spec _ ih => simp [spec, ih]
  | case5 c t _ _ spec _ ih => simp [spec, ih]

def size (spec : ColumnSpec) : Nat := spec.source.width

/-- The types of the data columns, in order. -/
def types (spec : ColumnSpec) : List Char :=
  (spec.items.filter ColumnItem.isData).map ColumnItem.firstChar

/-- The number of data columns. -/
def columns (spec : ColumnSpec) : Nat := spec.items.countP ColumnItem.isData

end ColumnSpec

end NumeralLint
