/-
Values that are read back where they are written.

A decoder reads a value back from a text when it finds the value at the start
of every longer text, after any blanks (`Decoder.ReadsBack`).  The one thing
that may not follow is what goes on with a number, since a number has no end
of its own (`EndsNumber`); strings, lists and records end where they say.
Layouts differ only in the blanks between the signs of JSON, so the compact
and the pretty form are read back for the same reason (`JsonValue.written`).
-/
import NumeralLint.Json.Kinds
import NumeralLint.Json.Value

namespace NumeralLint

namespace Json

/-! ## Blanks and ends -/

/-- Nothing but blanks. -/
def IsSpaces (gap : Text) : Prop := ∀ c ∈ gap, isSpace c = true

/-- The text does not go on with a number that stands before it. -/
def EndsNumber (rest : Text) : Prop :=
  ∀ c ∈ rest.head?, c.isDigit = false ∧ c ≠ '.' ∧ c ≠ 'e' ∧ c ≠ 'E'

theorem isSpaces_nil : IsSpaces [] := fun _ hc => absurd hc List.not_mem_nil

theorem skipSpace_append {gap : Text} (hgap : IsSpaces gap) {c : Char} (hc : isSpace c = false)
    (t : Text) : skipSpace (gap ++ c :: t) = c :: t := by
  rw [skipSpace, List.dropWhile_append_of_pos hgap, List.dropWhile_cons_of_neg (by simp [hc])]

theorem endsNumber_nil : EndsNumber [] := fun _ h => absurd h (by simp)

theorem endsNumber_cons {c : Char} (h : c.isDigit = false ∧ c ≠ '.' ∧ c ≠ 'e' ∧ c ≠ 'E')
    (t : Text) : EndsNumber (c :: t) := by
  intro d hd
  obtain rfl : c = d := by simpa using hd
  exact h

theorem notInNumber_of_isSpace {c : Char} (h : isSpace c = true) :
    c.isDigit = false ∧ c ≠ '.' ∧ c ≠ 'e' ∧ c ≠ 'E' := by
  simp only [isSpace, List.mem_cons, List.not_mem_nil, or_false, decide_eq_true_eq] at h
  rcases h with rfl | rfl | rfl | rfl <;> decide

theorem EndsNumber.append {gap : Text} (hgap : IsSpaces gap) {rest : Text} (h : EndsNumber rest) :
    EndsNumber (gap ++ rest) := by
  cases gap with
  | nil => exact h
  | cons c gap =>
      have hc := hgap c List.mem_cons_self
      exact endsNumber_cons (notInNumber_of_isSpace hc) (gap ++ rest)

end Json

namespace Decoder

open Json

variable {α β : Type} {d : Decoder α} {text : Text} {v : α}

/-- The decoder reads the value `v` from the text, wherever the text stands. -/
structure ReadsBack (d : Decoder α) (text : Text) (v : α) : Prop where
  /-- The text starts with neither a blank nor the end of a list. -/
  starts : ∃ c t, text = c :: t ∧ isSpace c = false ∧ c ≠ ']'
  reads : ∀ gap rest, IsSpaces gap → EndsNumber rest → d (gap ++ text ++ rest) = .ok (v, rest)

theorem ReadsBack.alone (h : d.ReadsBack text v) : d text = .ok (v, []) := by
  have read := h.reads [] [] isSpaces_nil endsNumber_nil
  rwa [List.nil_append, List.append_nil] at read

theorem ReadsBack.map (h : d.ReadsBack text v) (f : α → β) : (d.map f).ReadsBack text (f v) where
  starts := h.starts
  reads := by
    intro gap rest hgap hrest
    rw [Decoder.map, h.reads gap rest hgap hrest]

theorem ReadsBack.accept (h : d.ReadsBack text v) {f : α → Option β} {w : β} (hw : f v = some w) :
    (d.accept f).ReadsBack text w where
  starts := h.starts
  reads := by
    intro gap rest hgap hrest
    simp only [Decoder.accept, h.reads gap rest hgap hrest, hw]

end Decoder

namespace Json

/-! ## Words -/

/-- The text writes a truth value. -/
def BoolText (b : Bool) (t : Text) : Prop := t = (if b then "true" else "false").toList

theorem BoolText.readBool {b : Bool} {t : Text} (h : BoolText b t) : readBool.ReadsBack t b := by
  cases b with
  | true =>
      obtain rfl : t = 't' :: "rue".toList := h
      refine ⟨⟨'t', "rue".toList, rfl, rfl, by decide⟩, ?_⟩
      intro gap rest hgap _
      rw [List.append_assoc, List.cons_append, Json.readBool, skipSpace_append hgap rfl]
      rfl
  | false =>
      obtain rfl : t = 'f' :: "alse".toList := h
      refine ⟨⟨'f', "alse".toList, rfl, rfl, by decide⟩, ?_⟩
      intro gap rest hgap _
      rw [List.append_assoc, List.cons_append, Json.readBool, skipSpace_append hgap rfl]
      rfl

/-! ## Layouts -/

/-- The blanks in an array or an object. -/
structure Layout where
  /-- What stands before an item. -/
  before : Text
  /-- What stands between a colon and the value. -/
  between : Text
  /-- What stands after the last item. -/
  after : Text
  isSpaces_before : IsSpaces before
  isSpaces_between : IsSpaces between
  isSpaces_after : IsSpaces after

theorem isSpaces_lineBreak (depth : Nat) : IsSpaces (lineBreak depth) := by
  intro c hc
  rcases List.mem_cons.mp hc with rfl | hc
  · rfl
  · obtain rfl := List.eq_of_mem_replicate hc
    rfl

/-- No blanks. -/
def Layout.compact : Layout := ⟨[], [], [], by simp [IsSpaces], by simp [IsSpaces],
  by simp [IsSpaces]⟩

/-- Each item on a line of its own, in an array or object that starts `depth` levels in. -/
def Layout.pretty (depth : Nat) : Layout where
  before := lineBreak (depth + 1)
  between := [' ']
  after := lineBreak depth
  isSpaces_before := isSpaces_lineBreak _
  isSpaces_between := by simp [IsSpaces, isSpace]
  isSpaces_after := isSpaces_lineBreak _

/-- A field of an object, with the text of its value. -/
def Layout.field (layout : Layout) (name text : Text) : Text :=
  layout.before ++ quote name ++ ':' :: layout.between ++ text

end Json

namespace JsonValue

open Json

variable (layout : Nat → Layout)

mutual

/-- A value in a layout that may change with the depth of nesting. -/
def written (depth : Nat) : JsonValue → Text
  | null => "null".toList
  | bool b => (if b then "true" else "false").toList
  | number literal => literal
  | string t => quote t
  | array [] => ['[', ']']
  | array (v :: rest) =>
      '[' :: (layout depth).before ++ written (depth + 1) v ++ writtenMoreItems depth rest
        ++ (layout depth).after ++ [']']
  | object [] => ['{', '}']
  | object ((name, v) :: rest) =>
      '{' :: (layout depth).field name (written (depth + 1) v) ++ writtenMoreFields depth rest
        ++ (layout depth).after ++ ['}']

/-- The items of an array after the first, each behind its comma. -/
def writtenMoreItems (depth : Nat) : List JsonValue → Text
  | [] => []
  | v :: rest =>
      ',' :: (layout depth).before ++ written (depth + 1) v ++ writtenMoreItems depth rest

/-- The fields of an object after the first, each behind its comma. -/
def writtenMoreFields (depth : Nat) : List (Text × JsonValue) → Text
  | [] => []
  | (name, v) :: rest =>
      ',' :: (layout depth).field name (written (depth + 1) v) ++ writtenMoreFields depth rest

end

mutual

theorem pretty_eq_written (depth : Nat) : ∀ v, pretty depth v = written Layout.pretty depth v
  | null => rfl
  | bool _ => rfl
  | number _ => rfl
  | string _ => rfl
  | array [] => rfl
  | array (v :: rest) => by
      rw [pretty, prettyItems_eq_written depth (v :: rest), written]
      rfl
  | object [] => rfl
  | object ((name, v) :: rest) => by
      rw [pretty, prettyFields_eq_written depth ((name, v) :: rest), written]
      rfl

theorem prettyItems_eq_written (depth : Nat) : ∀ items,
    prettyItems (depth + 1) items = (writtenMoreItems Layout.pretty depth items).tail
  | [] => rfl
  | [v] => by
      rw [prettyItems, pretty_eq_written (depth + 1) v]
      simp [writtenMoreItems, Layout.pretty]
  | v :: w :: rest => by
      rw [prettyItems, pretty_eq_written (depth + 1) v, prettyItems_eq_written depth (w :: rest)]
      · simp [writtenMoreItems, Layout.pretty]
      · simp

theorem prettyFields_eq_written (depth : Nat) : ∀ fields,
    prettyFields (depth + 1) fields = (writtenMoreFields Layout.pretty depth fields).tail
  | [] => rfl
  | [(name, v)] => by
      rw [prettyFields, pretty_eq_written (depth + 1) v]
      simp [writtenMoreFields, Layout.field, Layout.pretty]
  | (name, v) :: (other, w) :: rest => by
      rw [prettyFields, pretty_eq_written (depth + 1) v,
        prettyFields_eq_written depth ((other, w) :: rest)]
      · simp [writtenMoreFields, Layout.field, Layout.pretty]
      · simp

end

mutual

theorem compact_eq_written (depth : Nat) :
    ∀ v, compact v = written (fun _ => Layout.compact) depth v
  | null => rfl
  | bool _ => rfl
  | number _ => rfl
  | string _ => rfl
  | array [] => rfl
  | array (v :: rest) => by
      rw [compact, compactItems_eq_written depth (v :: rest), written]
      simp [writtenMoreItems, Layout.compact]
  | object [] => rfl
  | object ((name, v) :: rest) => by
      rw [compact, compactFields_eq_written depth ((name, v) :: rest), written]
      simp [writtenMoreFields, Layout.compact]

theorem compactItems_eq_written (depth : Nat) : ∀ items,
    compactItems items = (writtenMoreItems (fun _ => Layout.compact) depth items).tail
  | [] => rfl
  | [v] => by
      rw [compactItems, compact_eq_written (depth + 1) v]
      simp [writtenMoreItems, Layout.compact]
  | v :: w :: rest => by
      rw [compactItems, compact_eq_written (depth + 1) v, compactItems_eq_written depth (w :: rest)]
      · simp [writtenMoreItems, Layout.compact]
      · simp

theorem compactFields_eq_written (depth : Nat) : ∀ fields,
    compactFields fields = (writtenMoreFields (fun _ => Layout.compact) depth fields).tail
  | [] => rfl
  | [(name, v)] => by
      rw [compactFields, compact_eq_written (depth + 1) v]
      simp [writtenMoreFields, Layout.field, Layout.compact]
  | (name, v) :: (other, w) :: rest => by
      rw [compactFields, compact_eq_written (depth + 1) v,
        compactFields_eq_written depth ((other, w) :: rest)]
      · simp [writtenMoreFields, Layout.field, Layout.compact]
      · simp

end

end JsonValue

end NumeralLint
