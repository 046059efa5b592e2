/-
Texts joined at the end of a line.

A text of whole lines is empty or ends in a line feed.  Its last piece is
empty, so the first piece of whatever follows it is a line of its own: the
pieces of both texts together are those of the one, without that empty
piece, and those of the other.  Lines, comments and the line index follow
from this.  Positions in the second text move down by the lines of the first,
and offsets by its bytes (`LineIndex.offset_append_right`); a line past the
last stands for the end of the text in both, so no bound is needed.
-/
import NumeralLint.Proofs.Source.Lines

namespace NumeralLint

/-- The position that is `n` lines further down. -/
def Position.addLines (n : Nat) (p : Position) : Position := ⟨p.line + n, p.column⟩

namespace Text

/-- The text is empty or ends in a line feed. -/
def IsWholeLines (t : Text) : Prop := t = [] ∨ ∃ s, t = s ++ ['\n']

variable {a : Text}

/-! ## Pieces and lines -/

theorem IsWholeLines.exists_pieces (h : a.IsWholeLines) : ∃ init, a.pieces = init ++ [[]] := by
  rcases h with rfl | ⟨s, rfl⟩
  · exact ⟨[], rfl⟩
  · have hs : s.pieces = s.pieces.dropLast ++ [s.pieces.getLast (pieces_ne_nil s)] :=
      (List.dropLast_concat_getLast _).symm
    have feed : pieces ['\n'] = [[], []] := rfl
    refine ⟨s.pieces.dropLast ++ [s.pieces.getLast (pieces_ne_nil s)], ?_⟩
    rw [pieces_append hs feed]
    simp

theorem joinPieces_cons {piece : Text} {ps : List Text} (h : ps ≠ []) :
    joinPieces (piece :: ps) = piece ++ '\n' :: joinPieces ps := by
  obtain ⟨next, rest, rfl⟩ := List.exists_cons_of_ne_nil h
  rfl

theorem isWholeLines_joinPieces (init : List Text) : IsWholeLines (joinPieces (init ++ [[]])) := by
  induction init with
  | nil => exact Or.inl rfl
  | cons piece init ih =>
      rw [List.cons_append, joinPieces_cons (by simp)]
      rcases ih with h | ⟨s, h⟩
      · exact Or.inr ⟨piece, by rw [h]⟩
      · exact Or.inr ⟨piece ++ '\n' :: s, by rw [h]; simp⟩

theorem linesOfPieces_append (init : List Text) {ps : List Text} (h : ps ≠ []) :
    linesOfPieces (init ++ ps) = init.map (dropFinal '\r') ++ linesOfPieces ps := by
  induction init with
  | nil => rfl
  | cons piece init ih =>
      obtain ⟨next, rest, hmore⟩ := List.exists_cons_of_ne_nil
        (List.append_ne_nil_of_right_ne_nil init h)
      rw [List.cons_append, hmore, linesOfPieces, ← hmore, ih]
      · rfl
      · exact List.cons_ne_nil next rest

theorem lines_of_pieces {init : List Text} (h : a.pieces = init ++ [[]]) :
    a.lines = init.map (dropFinal '\r') := by
  have nothing : linesOfPieces [[]] = [] := rfl
  rw [lines, h, linesOfPieces_append init (List.cons_ne_nil _ _), nothing, List.append_nil]

theorem pieces_append_of_pieces {init : List Text} (h : a.pieces = init ++ [[]]) (b : Text) :
    (a ++ b).pieces = init ++ b.pieces := by
  obtain ⟨first, rest, hb⟩ := List.exists_cons_of_ne_nil (pieces_ne_nil b)
  rw [pieces_append h hb, hb, List.nil_append]

theorem IsWholeLines.lines_append (h : a.IsWholeLines) (b : Text) :
    (a ++ b).lines = a.lines ++ b.lines := by
  obtain ⟨init, hinit⟩ := h.exists_pieces
  rw [lines_of_pieces hinit, lines, pieces_append_of_pieces hinit,
    linesOfPieces_append init (pieces_ne_nil b)]
  rfl

/-! ## Comments -/

theorem pieces_withoutComments_of_pieces {init : List Text} (h : a.pieces = init ++ [[]]) :
    a.withoutComments.pieces = init.map uncommentPiece ++ [[]] := by
  rw [pieces_withoutComments, h, List.map_append]
  rfl

theorem IsWholeLines.withoutComments (h : a.IsWholeLines) : a.withoutComments.IsWholeLines := by
  obtain ⟨init, hinit⟩ := h.exists_pieces
  rw [← joinPieces_pieces a.withoutComments, pieces_withoutComments_of_pieces hinit]
  exact isWholeLines_joinPieces _

/-- Removing comments keeps the number of lines. -/
theorem IsWholeLines.length_lines_withoutComments (h : a.IsWholeLines) :
    a.withoutComments.lines.length = a.lines.length := by
  obtain ⟨init, hinit⟩ := h.exists_pieces
  rw [lines_of_pieces hinit, lines_of_pieces (pieces_withoutComments_of_pieces hinit)]
  simp

/-- A comment ends with its line. -/
theorem IsWholeLines.withoutComments_append (h : a.IsWholeLines) (b : Text) :
    (a ++ b).withoutComments = a.withoutComments ++ b.withoutComments := by
  obtain ⟨init, hinit⟩ := h.exists_pieces
  have together := pieces_append_of_pieces (pieces_withoutComments_of_pieces hinit)
    b.withoutComments
  have whole : (a ++ b).withoutComments.pieces = (a.withoutComments ++ b.withoutComments).pieces := by
    rw [together, pieces_withoutComments, pieces_withoutComments,
      pieces_append_of_pieces hinit, List.map_append]
  rw [← joinPieces_pieces (a ++ b).withoutComments, whole, joinPieces_pieces]

end Text

/-! ## The line index -/

namespace LineIndex

open Text

theorem linesFrom_append (start : Nat) (init rest : List Text) :
    linesFrom start (init ++ rest) =
      linesFrom start init ++ linesFrom (start + width (joinPieces (init ++ [[]]))) rest := by
  induction init generalizing start with
  | nil => rfl
  | cons piece init ih =>
      have feed : Char.utf8Size '\n' = 1 := rfl
      have size : width (joinPieces (piece :: init ++ [[]])) =
          piece.width + 1 + width (joinPieces (init ++ [[]])) := by
        rw [List.cons_append, joinPieces_cons (by simp), width_append, width_cons, feed]
        omega
      rw [List.cons_append, linesFrom, ih, size, linesFrom, List.cons_append, ← Nat.add_assoc,
        ← Nat.add_assoc]

theorem linesFrom_add (d start : Nat) (ps : List Text) :
    linesFrom (d + start) ps =
      (linesFrom start ps).map fun line => ⟨d + line.start, line.body⟩ := by
  induction ps generalizing start with
  | nil => rfl
  | cons piece rest ih =>
      rw [linesFrom, linesFrom, List.map_cons, Nat.add_assoc, Nat.add_assoc, ih, ← Nat.add_assoc]

variable {a : Text}

/-- The index of two texts has the lines of the first, and those of the second with its bytes added. -/
theorem lines_ofText_append (h : a.IsWholeLines) (b : Text) :
    (ofText (a ++ b)).lines = (ofText a).lines.take a.lines.length ++
      (ofText b).lines.map fun line => ⟨a.width + line.start, line.body⟩ := by
  obtain ⟨init, hinit⟩ := h.exists_pieces
  have whole : joinPieces (init ++ [[]]) = a := by rw [← hinit, joinPieces_pieces]
  have count : a.lines.length = (linesFrom 0 init).length := by
    rw [lines_of_pieces hinit, List.length_map, length_linesFrom]
  have split := linesFrom_append 0 init
  rw [whole, Nat.zero_add] at split
  simp only [ofText]
  rw [pieces_append_of_pieces hinit, split, hinit, split, count, List.take_left]
  exact congrArg (linesFrom 0 init ++ ·) (linesFrom_add a.width 0 b.pieces)

theorem length_lines_lt (h : a.IsWholeLines) : a.lines.length < (ofText a).lines.length := by
  obtain ⟨init, hinit⟩ := h.exists_pieces
  rw [lines_of_pieces hinit, ofText, length_linesFrom, hinit]
  simp

theorem getElem?_lines_append_left (h : a.IsWholeLines) (b : Text) {l : Nat}
    (hl : l < a.lines.length) : (ofText (a ++ b)).lines[l]? = (ofText a).lines[l]? := by
  have inside : l < ((ofText a).lines.take a.lines.length).length := by
    have := length_lines_lt h
    rw [List.length_take]
    omega
  rw [lines_ofText_append h, List.getElem?_append_left inside, List.getElem?_take_of_lt hl]

theorem getElem?_lines_append_right (h : a.IsWholeLines) (b : Text) (l : Nat) :
    (ofText (a ++ b)).lines[l + a.lines.length]? =
      (ofText b).lines[l]?.map fun line => ⟨a.width + line.start, line.body⟩ := by
  have count : ((ofText a).lines.take a.lines.length).length = a.lines.length := by
    have := length_lines_lt h
    rw [List.length_take]
    omega
  rw [lines_ofText_append h, List.getElem?_append_right (by omega), count, Nat.add_sub_cancel,
    List.getElem?_map]

/-! ## What the index says of a position -/

theorem body_append_left (h : a.IsWholeLines) (b : Text) {l : Nat} (hl : l < a.lines.length) :
    (ofText (a ++ b)).body l = (ofText a).body l := by
  rw [body, body, getElem?_lines_append_left h b hl]

theorem body_append_right (h : a.IsWholeLines) (b : Text) (l : Nat) :
    (ofText (a ++ b)).body (l + a.lines.length) = (ofText b).body l := by
  rw [body, body, getElem?_lines_append_right h]
  cases (ofText b).lines[l]? <;> rfl

theorem offset_append_left (h : a.IsWholeLines) (b : Text) {p : Position}
    (hp : p.line < a.lines.length) : (ofText (a ++ b)).offset p = (ofText a).offset p := by
  have past : a.lines.length < (ofText a).lines.length := length_lines_lt h
  have found : (ofText a).lines[p.line]? = some _ := List.getElem?_eq_getElem (hp.trans past)
  rw [offset, offset, getElem?_lines_append_left h b hp, found]

theorem offset_append_right (h : a.IsWholeLines) (b : Text) (p : Position) :
    (ofText (a ++ b)).offset (p.addLines a.lines.length) = a.width + (ofText b).offset p := by
  rw [offset, offset, Position.addLines, getElem?_lines_append_right h]
  cases (ofText b).lines[p.line]? with
  | none => exact width_append a b
  | some found => exact Nat.add_assoc _ _ _

end LineIndex

end NumeralLint
