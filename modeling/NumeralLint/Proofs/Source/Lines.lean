/-
Where the lines of a text stand in it.

`PieceAt t l front piece back` says that `piece` is line `l` of `t`, without
speaking of pieces, indices or offsets: `front` has `l` line feeds and ends in
one, `piece` has none, and `back` starts with one.  The pieces of a text, the
line index and the lines without comments are all compared with it.
-/
import NumeralLint.Proofs.Text.Trim
import NumeralLint.Source.Comments
import NumeralLint.Source.LineIndex

namespace NumeralLint

namespace Text

/-! ## Pieces -/

theorem splitAtChar_eq_splitOn (c : Char) (t : Text) : splitAtChar c t = t.splitOn c := by
  induction t with
  | nil => rfl
  | cons d t ih =>
      rw [splitAtChar, List.foldr_cons, ← splitAtChar, ih, List.splitOn_cons_eq_if_modifyHead]
      by_cases h : d = c
      · simp [h]
      · obtain ⟨part, rest, hparts⟩ := List.exists_cons_of_ne_nil (List.splitOn_ne_nil c t)
        simp [h, hparts]

theorem joinPieces_eq_intercalate (ps : List Text) : joinPieces ps = ['\n'].intercalate ps := by
  fun_induction joinPieces ps with
  | case1 => rfl
  | case2 last => simp
  | case3 piece rest hrest ih =>
      obtain ⟨next, rest, rfl⟩ := List.exists_cons_of_ne_nil (fun h => hrest h)
      rw [ih, List.intercalate_cons_cons]
      simp

theorem pieces_ne_nil (t : Text) : pieces t ≠ [] := by
  rw [pieces, splitAtChar_eq_splitOn]
  exact List.splitOn_ne_nil _ _

theorem joinPieces_pieces (t : Text) : joinPieces (pieces t) = t := by
  rw [joinPieces_eq_intercalate, pieces, splitAtChar_eq_splitOn]
  exact List.intercalate_splitOn '\n'

theorem not_mem_of_mem_splitAtChar {c : Char} {t part : Text} (h : part ∈ splitAtChar c t) :
    c ∉ part := by
  induction t generalizing part with
  | nil =>
      obtain rfl : part = [] := by simpa [splitAtChar] using h
      exact List.not_mem_nil
  | cons d t ih =>
      rw [splitAtChar_eq_splitOn, List.splitOn_cons_eq_if_modifyHead, ← splitAtChar_eq_splitOn] at h
      obtain ⟨first, rest, hparts⟩ := List.exists_cons_of_ne_nil
        (splitAtChar_eq_splitOn c t ▸ List.splitOn_ne_nil c t)
      rw [hparts] at h ih
      by_cases hd : d = c
      · simp only [hd, BEq.rfl, if_true] at h
        rcases List.mem_cons.mp h with rfl | h
        · exact List.not_mem_nil
        · exact ih h
      · simp only [beq_iff_eq, hd, if_false, List.modifyHead_cons] at h
        rcases List.mem_cons.mp h with rfl | h
        · have := ih List.mem_cons_self
          simp [this, Ne.symm hd]
        · exact ih (List.mem_cons_of_mem _ h)

theorem pieces_joinPieces {ps : List Text} (h : ∀ p ∈ ps, '\n' ∉ p) (hps : ps ≠ []) :
    pieces (joinPieces ps) = ps := by
  rw [joinPieces_eq_intercalate, pieces, splitAtChar_eq_splitOn]
  exact List.splitOn_intercalate '\n' h hps

theorem joinPieces_append (init : List Text) (last first : Text) (rest : List Text) :
    joinPieces (init ++ [last]) ++ joinPieces (first :: rest) =
      joinPieces (init ++ (last ++ first) :: rest) := by
  induction init with
  | nil => cases rest <;> simp [joinPieces]
  | cons piece init ih =>
      have more : ∀ ps : List Text, ps ≠ [] →
          joinPieces (piece :: ps) = piece ++ '\n' :: joinPieces ps := by
        intro ps hps
        cases ps with
        | nil => exact absurd rfl hps
        | cons next ps => rfl
      rw [List.cons_append, List.cons_append, more _ (by simp), more _ (by simp), ← ih]
      simp

/-- The last piece of one text and the first of another become one piece. -/
theorem pieces_append {a b last first : Text} {init rest : List Text}
    (ha : a.pieces = init ++ [last]) (hb : b.pieces = first :: rest) :
    (a ++ b).pieces = init ++ (last ++ first) :: rest := by
  have noFeeds : ∀ p ∈ init ++ (last ++ first) :: rest, '\n' ∉ p := by
    have inA : ∀ p ∈ a.pieces, '\n' ∉ p := fun _ hp => not_mem_of_mem_splitAtChar hp
    have inB : ∀ p ∈ b.pieces, '\n' ∉ p := fun _ hp => not_mem_of_mem_splitAtChar hp
    intro p hp
    simp only [ha, hb, List.mem_append, List.mem_cons, List.not_mem_nil, or_false] at inA inB hp
    rcases hp with hp | rfl | hp
    · exact inA p (Or.inl hp)
    · simp [inA last (Or.inr rfl), inB first (Or.inl rfl)]
    · exact inB p (Or.inr hp)
  have whole : a ++ b = joinPieces (init ++ (last ++ first) :: rest) := by
    rw [← joinPieces_append, ← ha, ← hb, joinPieces_pieces, joinPieces_pieces]
  rw [whole, pieces_joinPieces noFeeds (by simp)]

theorem pieces_of_noFeed {t : Text} (h : '\n' ∉ t) : t.pieces = [t] := by
  have single : ∀ p ∈ [t], '\n' ∉ p := by
    intro p hp
    rw [List.mem_singleton.mp hp]
    exact h
  exact pieces_joinPieces single (List.cons_ne_nil _ _)

theorem pieces_append_feed {first : Text} (h : '\n' ∉ first) (b : Text) :
    pieces (first ++ '\n' :: b) = first :: b.pieces := by
  have feed : pieces ('\n' :: b) = [] :: b.pieces := by
    rw [pieces, pieces, splitAtChar_eq_splitOn, splitAtChar_eq_splitOn,
      List.splitOn_cons_eq_if_modifyHead]
    rfl
  have alone : first.pieces = [] ++ [first] := pieces_of_noFeed h
  have joined := pieces_append alone feed
  rwa [List.append_nil, List.nil_append] at joined

/-- A text from its first line feed on has an empty first piece, and the other pieces of the text. -/
theorem pieces_dropWhile {t first : Text} {rest : List Text} (h : t.pieces = first :: rest) :
    pieces (t.dropWhile (· != '\n')) = [] :: rest := by
  have noFeeds : ∀ p ∈ first :: rest, '\n' ∉ p := by
    intro p hp
    exact not_mem_of_mem_splitAtChar (h ▸ hp)
  have dropped : t.dropWhile (· != '\n') = joinPieces ([] :: rest) := by
    have none : ∀ c ∈ first, (c != '\n') = true := by
      intro c hc
      exact bne_iff_ne.mpr fun heq => noFeeds first List.mem_cons_self (heq ▸ hc)
    rw [← joinPieces_pieces t, h]
    cases rest with
    | nil => exact List.dropWhile_eq_nil_iff.mpr none
    | cons next rest => exact List.dropWhile_append_of_pos none
  rw [dropped]
  refine pieces_joinPieces ?_ (List.cons_ne_nil _ _)
  intro p hp
  rcases List.mem_cons.mp hp with rfl | hp
  · exact List.not_mem_nil
  · exact noFeeds p (List.mem_cons_of_mem _ hp)

theorem pieceBody_append_pieceReturns (piece : Text) :
    piece.pieceBody ++ piece.pieceReturns = piece ∧ ∀ c ∈ piece.pieceReturns, c = '\r' := by
  obtain ⟨tail, htail, hreturns⟩ := exists_dropTrailing_append (· == '\r') piece
  have : piece.pieceReturns = tail := by
    conv => lhs; rw [pieceReturns, pieceBody]; arg 2; rw [htail]
    exact List.drop_left
  rw [this]
  exact ⟨htail.symm, fun c hc => by simpa using hreturns c hc⟩

/-! ## Lines by their places -/

/-- `piece` is line `l` of the text `t`: it stands after `front` and before `back`. -/
structure PieceAt (t : Text) (l : Nat) (front piece back : Text) : Prop where
  whole : t = front ++ piece ++ back
  number : front.count '\n' = l
  noFeed : '\n' ∉ piece
  starts : front = [] ∨ ∃ f, front = f ++ ['\n']
  ends : back = [] ∨ ∃ b, back = '\n' :: b

theorem PieceAt.succ {t first front piece back : Text} {l : Nat} (hfirst : '\n' ∉ first)
    (h : PieceAt t l front piece back) :
    PieceAt (first ++ '\n' :: t) (l + 1) (first ++ '\n' :: front) piece back where
  whole := by rw [h.whole]; simp
  number := by simp [List.count_append, List.count_eq_zero.mpr hfirst, h.number]
  noFeed := h.noFeed
  starts := by
    rcases h.starts with rfl | ⟨f, rfl⟩
    · exact Or.inr ⟨first, rfl⟩
    · exact Or.inr ⟨first ++ '\n' :: f, by simp⟩
  ends := h.ends

/-- The lines that pieces make stand in the text that the pieces make. -/
theorem exists_pieceAt_of_linesFrom {ps : List Text} (hps : ∀ p ∈ ps, '\n' ∉ p) {start l : Nat}
    {found : IndexedLine} (h : (LineIndex.linesFrom start ps)[l]? = some found) :
    ∃ front piece back, PieceAt (joinPieces ps) l front piece back ∧ ps[l]? = some piece ∧
      found.start = start + front.width ∧ found.body = piece.pieceBody := by
  induction ps generalizing start l with
  | nil => simp [LineIndex.linesFrom] at h
  | cons piece rest ih =>
      have noFeed : '\n' ∉ piece := hps piece List.mem_cons_self
      cases l with
      | zero =>
          obtain rfl : ⟨start, piece.pieceBody⟩ = found := by simpa [LineIndex.linesFrom] using h
          cases rest with
          | nil =>
              exact ⟨[], piece, [], ⟨by simp [joinPieces], rfl, noFeed, Or.inl rfl, Or.inl rfl⟩,
                rfl, rfl, rfl⟩
          | cons next rest =>
              exact ⟨[], piece, '\n' :: joinPieces (next :: rest),
                ⟨rfl, rfl, noFeed, Or.inl rfl, Or.inr ⟨_, rfl⟩⟩, rfl, rfl, rfl⟩
      | succ l =>
          have h' : (LineIndex.linesFrom (start + piece.width + 1) rest)[l]? = some found := by
            simpa [LineIndex.linesFrom] using h
          obtain ⟨front, p, back, hat, hp, hstart, hbody⟩ :=
            ih (fun p hp => hps p (List.mem_cons_of_mem _ hp)) h'
          obtain ⟨next, rest, rfl⟩ : ∃ next rest', rest = next :: rest' := by
            cases rest with
            | nil => simp [LineIndex.linesFrom] at h'
            | cons next rest => exact ⟨next, rest, rfl⟩
          refine ⟨piece ++ '\n' :: front, p, back, hat.succ noFeed, by simpa using hp, ?_, hbody⟩
          have feed : Char.utf8Size '\n' = 1 := rfl
          rw [hstart, width_append, width_cons, feed]
          omega

/-! ## Positions in a text -/

/-- The position that is reached at the end of a text. -/
def endPosition (t : Text) : Position where
  line := t.count '\n'
  column := width (t.reverse.takeWhile (· != '\n')).reverse

example : endPosition "ab\r\né".toList = ⟨1, 2⟩ := by decide

end Text

/-- The first position comes before the second in a document. -/
def Position.Before (p q : Position) : Prop :=
  p.line < q.line ∨ (p.line = q.line ∧ p.column < q.column)

instance (p q : Position) : Decidable (p.Before q) := inferInstanceAs (Decidable (_ ∨ _))

/-- The first range starts before the second. -/
def Range.StartsBefore (r r' : Range) : Prop := r.start.Before r'.start

/-- The first range ends where the second starts, or before it. -/
def Range.EndsBefore (r r' : Range) : Prop := r.stop = r'.start ∨ r.stop.Before r'.start

namespace LineIndex

open Text

theorem length_linesFrom (start : Nat) (ps : List Text) :
    (linesFrom start ps).length = ps.length := by
  induction ps generalizing start with
  | nil => rfl
  | cons piece rest ih => simp [linesFrom, ih]

theorem exists_pieceAt {t : Text} {l : Nat} {found : IndexedLine}
    (h : (ofText t).lines[l]? = some found) :
    ∃ front piece back, PieceAt t l front piece back ∧ t.pieces[l]? = some piece ∧
      found.start = front.width ∧ found.body = piece.pieceBody := by
  have noFeeds : ∀ p ∈ t.pieces, '\n' ∉ p := fun _ hp => not_mem_of_mem_splitAtChar hp
  obtain ⟨front, piece, back, hat, hp, hstart, hbody⟩ := exists_pieceAt_of_linesFrom noFeeds h
  rw [joinPieces_pieces] at hat
  exact ⟨front, piece, back, hat, hp, by simpa using hstart, hbody⟩

theorem offset_le (t : Text) (p : Position) : (ofText t).offset p ≤ t.width := by
  rw [offset]
  split
  · next found hfound =>
      obtain ⟨front, piece, back, hat, -, hstart, hbody⟩ := exists_pieceAt hfound
      have size : t.width = front.width + piece.width + back.width := by
        rw [hat.whole, width_append, width_append]
      have body : found.body.width + piece.pieceReturns.width = piece.width := by
        rw [hbody, ← width_append, (pieceBody_append_pieceReturns piece).1]
      have := Nat.min_le_right p.column found.body.width
      omega
  · exact Nat.le_refl _

end LineIndex

namespace Text

/-! ## Lines of the prepared text -/

/-- Dropping one carriage return does not show once the blanks at the end are dropped. -/
theorem trimEnd_dropFinal (t : Text) : trimEnd (dropFinal '\r' t) = trimEnd t := by
  rw [dropFinal]
  split
  · next h => rw [List.reverse_eq_nil_iff.mp h]
  · next d r h =>
      have ht : t = r.reverse ++ [d] := by
        rw [← t.reverse_reverse, h, List.reverse_cons]
      split
      · next hd =>
          rw [ht, hd]
          exact (dropTrailing_append (by simp [isBlank, blanks, CharSet.contains]) _).symm
      · rfl

theorem map_trimEnd_linesOfPieces (ps : List Text) :
    ps.map trimEnd = (linesOfPieces ps).map trimEnd ∨
      ps.map trimEnd = (linesOfPieces ps).map trimEnd ++ [[]] := by
  fun_induction linesOfPieces ps with
  | case1 => exact Or.inl rfl
  | case2 last hlast =>
      obtain rfl := List.isEmpty_iff.mp hlast
      exact Or.inr rfl
  | case3 last hlast => exact Or.inl rfl
  | case4 piece rest hrest ih =>
      rw [List.map_cons, List.map_cons, trimEnd_dropFinal]
      rcases ih with h | h
      · exact Or.inl (congrArg _ h)
      · exact Or.inr (congrArg _ h)

/-- A line is, but for blanks at its end, the piece with the same number. -/
theorem exists_piece_of_linesOfPieces {ps : List Text} {l : Nat} {line : Text}
    (h : (linesOfPieces ps)[l]? = some line) :
    ∃ piece, ps[l]? = some piece ∧ line.trimEnd = piece.trimEnd := by
  have trimmed : ((linesOfPieces ps).map trimEnd)[l]? = some line.trimEnd := by
    rw [List.getElem?_map, h]
    rfl
  have inPieces : (ps.map trimEnd)[l]? = some line.trimEnd := by
    rcases map_trimEnd_linesOfPieces ps with same | longer
    · rw [same, trimmed]
    · obtain ⟨hl, -⟩ := List.getElem?_eq_some_iff.mp trimmed
      rw [longer, List.getElem?_append_left hl, trimmed]
  rw [List.getElem?_map] at inPieces
  obtain ⟨piece, hpiece, heq⟩ := Option.map_eq_some_iff.mp inPieces
  exact ⟨piece, hpiece, heq.symm⟩

theorem isBlank_of_mem_pieceReturns {piece : Text} {c : Char} (h : c ∈ piece.pieceReturns) :
    isBlank c = true := by
  rw [(pieceBody_append_pieceReturns piece).2 c h]
  decide

theorem pieces_withoutComments (t : Text) :
    (withoutComments t).pieces = t.pieces.map uncommentPiece := by
  refine pieces_joinPieces ?_ (by simpa using pieces_ne_nil t)
  intro q hq
  obtain ⟨piece, hpiece, rfl⟩ := List.mem_map.mp hq
  have noFeed := not_mem_of_mem_splitAtChar hpiece
  obtain ⟨whole, -⟩ := pieceBody_append_pieceReturns piece
  have body := beforeAtom_append_fromAtom .commentSign (pieceBody piece)
  intro hfeed
  apply noFeed
  rw [← whole, ← body]
  rcases List.mem_append.mp hfeed with h | h
  · exact List.mem_append_left _ (List.mem_append_left _ h)
  · exact List.mem_append_right _ h

/-- A line of the text without comments starts the line of the text that has the same number, once
the blanks at its end are dropped. -/
theorem trimEnd_prefix_pieceBody {t line : Text} {l : Nat}
    (h : (withoutComments t).lines[l]? = some line) :
    ∃ piece, t.pieces[l]? = some piece ∧ line.trimEnd <+: piece.pieceBody := by
  obtain ⟨q, hq, htrim⟩ := exists_piece_of_linesOfPieces h
  rw [pieces_withoutComments, List.getElem?_map] at hq
  obtain ⟨piece, hpiece, rfl⟩ := Option.map_eq_some_iff.mp hq
  refine ⟨piece, hpiece, ?_⟩
  rw [htrim, uncommentPiece, trimEnd,
    dropTrailing_append fun _ => isBlank_of_mem_pieceReturns]
  exact (prefix_dropTrailing _ _).trans ⟨_, beforeAtom_append_fromAtom .commentSign _⟩

end Text

end NumeralLint
