/-
The line index is exact.

The index keeps the start of each line and its text without its ending, and
answers for lines and columns that do not exist as well.  All that holds of it
follows from two facts about the pieces of a text: with a line feed after each
but the last they make up the text (`joinPieces_eq_flatten`), and each line
ends before the next one starts (`pairwise_linesFrom`).  The lines that a rule
reads are numbered otherwise, without an empty last piece and with only one
carriage return taken off; they still are the lines of the index, but for
carriage returns (`exists_body_of_lines`).
-/
import NumeralLint.Proofs.Source.Lines
import NumeralLint.Proofs.Text.Slices
import NumeralLint.Source.Document

namespace NumeralLint

namespace Text

/-! ## Pieces and their endings -/

/-- What stands after the bodies of pieces in the text that they make. -/
def pieceEndings : List Text → List Text
  | [] => []
  | [last] => [last.pieceReturns]
  | piece :: rest => (piece.pieceReturns ++ ['\n']) :: pieceEndings rest

theorem length_pieceEndings (ps : List Text) : (pieceEndings ps).length = ps.length := by
  fun_induction pieceEndings ps with
  | case1 => rfl
  | case2 last => rfl
  | case3 piece rest _ ih => rw [List.length_cons, ih, List.length_cons]

theorem exists_pieceEndings {ps : List Text} (h : ps ≠ []) :
    ∃ others last, pieceEndings ps = others ++ [last] ∧ (∀ c ∈ last, c = '\r') ∧
      ∀ ending ∈ others, ∃ returns, ending = returns ++ ['\n'] ∧ ∀ c ∈ returns, c = '\r' := by
  fun_induction pieceEndings ps with
  | case1 => exact absurd rfl h
  | case2 last =>
      exact ⟨[], last.pieceReturns, rfl, (pieceBody_append_pieceReturns last).2, by simp⟩
  | case3 piece rest hrest ih =>
      obtain ⟨others, last, hends, hlast, hothers⟩ := ih fun hnil => hrest hnil
      refine ⟨(piece.pieceReturns ++ ['\n']) :: others, last, by rw [hends]; rfl, hlast, ?_⟩
      refine List.forall_mem_cons.mpr ⟨?_, hothers⟩
      exact ⟨piece.pieceReturns, rfl, (pieceBody_append_pieceReturns piece).2⟩

/-- The body of piece `l`, and nothing if there are not so many pieces. -/
def bodyAt (ps : List Text) (l : Nat) : Text := (ps[l]?.map pieceBody).getD []

theorem joinPieces_eq_flatten (ps : List Text) :
    joinPieces ps = ((pieceEndings ps).mapIdx fun l ending => bodyAt ps l ++ ending).flatten := by
  fun_induction pieceEndings ps with
  | case1 => rfl
  | case2 last => simp [joinPieces, bodyAt, (pieceBody_append_pieceReturns last).1]
  | case3 piece rest hrest ih =>
      obtain ⟨next, more, rfl⟩ := List.exists_cons_of_ne_nil fun hnil => hrest hnil
      have first : bodyAt (piece :: next :: more) 0 ++ piece.pieceReturns = piece :=
        (pieceBody_append_pieceReturns piece).1
      have later : ∀ l, bodyAt (piece :: next :: more) (l + 1) = bodyAt (next :: more) l :=
        fun _ => rfl
      rw [List.mapIdx_cons, List.flatten_cons, ← List.append_assoc, first]
      simp only [later, ← ih, joinPieces, List.append_assoc, List.singleton_append]

theorem exists_dropFinal_eq (piece : Text) :
    ∃ returns, dropFinal '\r' piece = piece.pieceBody ++ returns ∧ ∀ c ∈ returns, c = '\r' := by
  obtain ⟨whole, hreturns⟩ := pieceBody_append_pieceReturns piece
  rcases List.eq_nil_or_concat piece.pieceReturns with hnone | ⟨returns, d, hsome⟩
  · rw [hnone, List.append_nil] at whole
    refine ⟨[], ?_, by simp⟩
    rw [List.append_nil, dropFinal]
    split
    · next h => rw [whole, List.reverse_eq_nil_iff.mp h]
    · next d rest h =>
        have hpiece : piece.pieceBody = rest.reverse ++ [d] := by
          rw [whole, ← List.reverse_cons, ← h, List.reverse_reverse]
        have notReturn : (d == '\r') = false := dropTrailing_eq_concat (p := (· == '\r')) hpiece
        rw [if_neg (by simpa using notReturn), whole]
  · rw [List.concat_eq_append] at hsome
    have final : d = '\r' := hreturns d (by simp [hsome])
    have hpiece : piece = piece.pieceBody ++ returns ++ ['\r'] := by
      rw [List.append_assoc, ← final, ← hsome, whole]
    refine ⟨returns, ?_, fun c hc => hreturns c (by simp [hsome, hc])⟩
    conv => lhs; rw [hpiece]
    simp [dropFinal]

/-- A line that a rule reads is the body of the piece with its number, and carriage returns. -/
theorem exists_body_of_linesOfPieces {ps : List Text} {k : Nat} {line : Text}
    (h : (linesOfPieces ps)[k]? = some line) :
    ∃ returns, line = bodyAt ps k ++ returns ∧ k < ps.length ∧ ∀ c ∈ returns, c = '\r' := by
  fun_induction linesOfPieces ps generalizing k with
  | case1 => simp at h
  | case2 last hlast => simp at h
  | case3 last hlast =>
      obtain ⟨whole, hreturns⟩ := pieceBody_append_pieceReturns last
      cases k with
      | zero =>
          obtain rfl : last = line := by simpa using h
          exact ⟨last.pieceReturns, whole.symm, Nat.zero_lt_one, hreturns⟩
      | succ k => simp at h
  | case4 piece rest hrest ih =>
      cases k with
      | zero =>
          obtain rfl : dropFinal '\r' piece = line := by simpa using h
          obtain ⟨returns, hline, hreturns⟩ := exists_dropFinal_eq piece
          exact ⟨returns, hline, Nat.zero_lt_succ _, hreturns⟩
      | succ k =>
          obtain ⟨returns, hline, hk, hreturns⟩ := ih (by simpa using h)
          exact ⟨returns, hline, Nat.succ_lt_succ hk, hreturns⟩

end Text

namespace LineIndex

open Text

/-! ## Lines of the index -/

theorem body_ofText (t : Text) (l : Nat) : (ofText t).body l = bodyAt t.pieces l := by
  have bodies : ∀ start ps, (linesFrom start ps).map IndexedLine.body = ps.map pieceBody := by
    intro start ps
    induction ps generalizing start with
    | nil => rfl
    | cons piece rest ih => rw [linesFrom, List.map_cons, ih, List.map_cons]
  have numbered := congrArg (·[l]?) (bodies 0 t.pieces)
  simp only [List.getElem?_map] at numbered
  rw [bodyAt, ← numbered, body, ofText]
  cases (linesFrom 0 t.pieces)[l]? <;> rfl

theorem le_start_of_mem_linesFrom {start : Nat} {ps : List Text} {line : IndexedLine}
    (h : line ∈ linesFrom start ps) : start ≤ line.start := by
  induction ps generalizing start with
  | nil => exact absurd h List.not_mem_nil
  | cons piece rest ih =>
      rcases List.mem_cons.mp h with rfl | h
      · exact Nat.le_refl _
      · have later := ih h
        omega

theorem width_pieceBody_le (piece : Text) : piece.pieceBody.width ≤ piece.width := by
  have whole := congrArg width (pieceBody_append_pieceReturns piece).1
  rw [width_append] at whole
  omega

theorem pairwise_linesFrom (start : Nat) (ps : List Text) :
    (linesFrom start ps).Pairwise fun line line' => line.start + line.body.width ≤ line'.start := by
  induction ps generalizing start with
  | nil => exact List.Pairwise.nil
  | cons piece rest ih =>
      refine List.pairwise_cons.mpr ⟨?_, ih _⟩
      intro line hline
      have later := le_start_of_mem_linesFrom hline
      have size := width_pieceBody_le piece
      show start + piece.pieceBody.width ≤ line.start
      omega

/-! ## Places in the text -/

theorem offset_mono (t : Text) {p q : Position} (h : p.Before q) :
    (ofText t).offset p ≤ (ofText t).offset q := by
  cases hq : (ofText t).lines[q.line]? with
  | none =>
      have last : (ofText t).offset q = t.width := by rw [offset, hq]; rfl
      rw [last]
      exact offset_le t p
  | some line' =>
      obtain ⟨hlt, hline'⟩ := List.getElem?_eq_some_iff.mp hq
      rcases h with hbelow | ⟨hsame, hcolumn⟩
      · have hp : (ofText t).lines[p.line]? = some _ :=
          List.getElem?_eq_getElem (Nat.lt_trans hbelow hlt)
        have apart := List.pairwise_iff_getElem.mp (pairwise_linesFrom 0 t.pieces) p.line q.line
          (Nat.lt_trans hbelow hlt) hlt hbelow
        change _ ≤ (ofText t).lines[q.line].start at apart
        rw [hline'] at apart
        rw [offset, offset, hp, hq]
        dsimp only
        refine Nat.le_trans (Nat.add_le_add_left (Nat.min_le_right _ _) _) ?_
        exact Nat.le_trans apart (Nat.le_add_right _ _)
      · rw [offset, offset, hsame, hq]
        dsimp only
        omega

/-- From the offset of a position in a line on, the text has what the line has from the column
on. -/
theorem dropBytes?_offset {t after : Text} {l c : Nat} (hl : l < (ofText t).lines.length)
    (h : ((ofText t).body l).dropBytes? c = some after) :
    ∃ rest, t.dropBytes? ((ofText t).offset ⟨l, c⟩) = some (after ++ rest) := by
  obtain ⟨front, piece, back, hat, -, hstart, hbody⟩ :=
    exists_pieceAt (List.getElem?_eq_getElem hl)
  have hline : (ofText t).body l = piece.pieceBody := by
    rw [body, List.getElem?_eq_getElem hl]
    exact hbody
  rw [hline] at h
  obtain ⟨before, hparts, hcolumn⟩ := dropBytes?_eq_some_iff.mp h
  have inside : c ≤ piece.pieceBody.width := by
    rw [hparts, width_append, hcolumn]
    exact Nat.le_add_right _ _
  have place : (ofText t).offset ⟨l, c⟩ = (front ++ before).width := by
    rw [offset, List.getElem?_eq_getElem hl]
    dsimp only
    rw [hstart, hbody, Nat.min_eq_left inside, width_append, hcolumn]
  refine ⟨piece.pieceReturns ++ back, ?_⟩
  have whole : t = front ++ before ++ (after ++ (piece.pieceReturns ++ back)) := by
    rw [hat.whole]
    conv => lhs; rw [← (pieceBody_append_pieceReturns piece).1, hparts]
    simp only [List.append_assoc]
  rw [place]
  conv => lhs; rw [whole]
  exact dropBytes?_append _ _

example : (ofText "é\r\r\nb\n".toList).offset ⟨0, 9⟩ = 2 ∧
    (ofText "é\r\r\nb\n".toList).offset ⟨1, 0⟩ = 5 := by decide

/-! ## Exactness -/

/-- What the index of a text says of its lines, and of places in it. -/
structure IsExact (index : LineIndex) (t : Text) : Prop where
  /-- The lines make up the text, each with its ending: carriage returns and a line feed, but for
  the last line, which has no line feed. -/
  whole : ∃ others last, index.lines.length = others.length + 1 ∧
    t = ((others ++ [last]).mapIdx fun l ending => index.body l ++ ending).flatten ∧
    (∀ ending ∈ others, ∃ returns, ending = returns ++ ['\n'] ∧ ∀ c ∈ returns, c = '\r') ∧
    ∀ c ∈ last, c = '\r'
  /-- No part of an ending is left in a line. -/
  bare : ∀ l, '\n' ∉ index.body l ∧ ∀ s, index.body l ≠ s ++ ['\r']
  monotone : ∀ p q : Position, p.Before q → index.offset p ≤ index.offset q
  bounded : ∀ p, index.offset p ≤ t.width
  /-- At the offset of a column of a line, the text goes on with the line from that column on. -/
  sliced : ∀ l < index.lines.length, ∀ c after, (index.body l).dropBytes? c = some after →
    ∃ rest, t.dropBytes? (index.offset ⟨l, c⟩) = some (after ++ rest)

theorem isExact_ofText (t : Text) : (ofText t).IsExact t where
  whole := by
    obtain ⟨others, last, hends, hlast, hothers⟩ := exists_pieceEndings (pieces_ne_nil t)
    refine ⟨others, last, ?_, ?_, hothers, hlast⟩
    · have count := length_pieceEndings t.pieces
      rw [hends, List.length_append, List.length_singleton] at count
      rw [ofText, length_linesFrom, count]
    · have joined := joinPieces_eq_flatten t.pieces
      rw [joinPieces_pieces, hends] at joined
      simpa only [body_ofText] using joined
  bare := by
    intro l
    rw [body_ofText, bodyAt]
    cases hl : t.pieces[l]? with
    | none => exact ⟨List.not_mem_nil, by simp⟩
    | some piece =>
        have noFeed := not_mem_of_mem_splitAtChar (List.mem_of_getElem? hl)
        constructor
        · exact fun hfeed => noFeed ((prefix_dropTrailing _ _).subset hfeed)
        · intro s hs
          exact absurd (dropTrailing_eq_concat hs) (by simp)
  monotone _ _ h := offset_mono t h
  bounded p := offset_le t p
  sliced _ hl _ _ h := dropBytes?_offset hl h

end LineIndex

/-- The index of a document is exact; and in a document that is read as it is, each line that a rule
reads is the line of the index with the same number, but for carriage returns at its end. -/
theorem Document.index_isExact (doc : Document) :
    doc.index.IsExact doc.original ∧
      (doc.prepared = doc.original → ∀ k line, doc.lines[k]? = some line →
        k < doc.index.lines.length ∧
          ∃ returns, line = doc.index.body k ++ returns ∧ ∀ c ∈ returns, c = '\r') := by
  refine ⟨LineIndex.isExact_ofText doc.original, ?_⟩
  intro hsame k line hline
  rw [lines, hsame] at hline
  obtain ⟨returns, hbody, hk, hreturns⟩ := Text.exists_body_of_linesOfPieces hline
  rw [index, LineIndex.body_ofText, LineIndex.ofText, LineIndex.length_linesFrom]
  exact ⟨hk, returns, hbody, hreturns⟩

end NumeralLint
