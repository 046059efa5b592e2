/-
Texts as lists of characters, and the places in them.

A place in a text is the number of UTF-8 bytes before it, so the width of
the part of the text that comes before.  No function here walks an index:
a text is cut into parts, and the places are the widths of the parts.
-/

namespace NumeralLint

/-- A text, as the characters it is made of. -/
abbrev Text := List Char

namespace Text

/-- The number of UTF-8 bytes of a text. -/
def width (t : Text) : Nat := t.foldr (fun c n => c.utf8Size + n) 0

@[simp] theorem width_nil : width [] = 0 := rfl

@[simp] theorem width_cons (c : Char) (t : Text) : width (c :: t) = c.utf8Size + width t := rfl

@[simp] theorem width_append (s t : Text) : width (s ++ t) = width s + width t := by
  induction s with
  | nil => simp
  | cons c s ih => rw [List.cons_append, width_cons, width_cons, ih, Nat.add_assoc]

/-- Only the empty text has no bytes. -/
theorem width_eq_zero {t : Text} : width t = 0 ↔ t = [] := by
  cases t with
  | nil => simp
  | cons c t =>
      have := c.utf8Size_pos
      simp only [width_cons, reduceCtorEq, iff_false]
      omega

/-- Every character has at least one byte. -/
theorem length_le_width (t : Text) : t.length ≤ t.width := by
  induction t with
  | nil => exact Nat.le_refl 0
  | cons c t ih =>
      have := c.utf8Size_pos
      rw [List.length_cons, width_cons]
      omega

/-- The text without the characters in `p` at its end. -/
def dropTrailing (p : Char → Bool) (t : Text) : Text := (t.reverse.dropWhile p).reverse

/-- The text without one `c` at its end, if it ends in one. -/
def dropFinal (c : Char) (t : Text) : Text :=
  match t.reverse with
  | [] => []
  | d :: r => if d = c then r.reverse else t

/-- The parts of a text between the characters `c`; `n` of them make `n + 1` parts. -/
def splitAtChar (c : Char) (t : Text) : List Text :=
  t.foldr (fun d parts => if d = c then [] :: parts else
    match parts with
    | [] => [[d]]
    | part :: rest => (d :: part) :: rest) [[]]

/-- The text from byte `n` on, if a character starts there or the text ends there. -/
def dropBytes? : Nat → Text → Option Text
  | 0, t => some t
  | _ + 1, [] => none
  | n + 1, c :: t => if c.utf8Size ≤ n + 1 then dropBytes? (n + 1 - c.utf8Size) t else none

/-- The first `n` bytes of the text, if a character starts after them or the text ends there. -/
def takeBytes? : Nat → Text → Option Text
  | 0, _ => some []
  | _ + 1, [] => none
  | n + 1, c :: t =>
      if c.utf8Size ≤ n + 1 then (takeBytes? (n + 1 - c.utf8Size) t).map (c :: ·) else none

/-- The part of the text between two places, if no character lies across either of them. -/
def slice? (start stop : Nat) (t : Text) : Option Text :=
  (dropBytes? start t).bind (takeBytes? (stop - start))

end Text

end NumeralLint
