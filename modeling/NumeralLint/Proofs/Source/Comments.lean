/-
Comments are removed line by line, and nothing else is.

A line feed is no backslash, so what is escaped in a line does not hang on the
lines before it: a text has a comment where one of its lines has one
(`exists_isUnescaped_of_joinPieces`), and a line without one stays as it is
(`uncommentPiece_of_isCommentFree`).  A text without comments is therefore left
alone, and removing comments twice is removing them once.  What a comment says
is never read: the line is cut at its first unescaped percent sign, and any
unescaped percent sign before the comment or at its start comes no earlier
(`beforeAtom_append_cons`).
-/
import Mathlib.Data.List.Forall2
import NumeralLint.Proofs.Escapes
import NumeralLint.Proofs.Source.Joining

namespace NumeralLint

namespace Text

/-- No percent sign of the text starts a comment: each has an odd number of backslashes before
it. -/
def IsCommentFree (t : Text) : Prop := ∀ before, ¬ IsUnescaped '%' t before

/-- `kept` is the line without its comment: of its body, which ends before the carriage returns at
its end, all if it has no unescaped percent sign, and else what stands before the first one; and
after it the same carriage returns. -/
def Uncommented (line kept : Text) : Prop :=
  ∃ body front returns, line = body ++ returns ∧ kept = front ++ returns ∧
    ((∀ s, body ≠ s ++ ['\r']) ∧ ∀ c ∈ returns, c = '\r') ∧ front <+: body ∧
    (IsCommentFree body ∧ front = body ∨ IsFirstUnescaped '%' body front)

/-- In the text `t` a comment follows on `front`: after an unescaped percent sign it goes on to the
ending of its line, with which `back` starts. -/
structure CommentAt (t front comment back : Text) : Prop where
  whole : t = front ++ '%' :: (comment ++ back)
  unescaped : Even (finalBackslashes front)
  inLine : '\n' ∉ comment ∧ ∀ s, comment ≠ s ++ ['\r']
  ending : ∃ returns later, back = returns ++ later ∧ (∀ c ∈ returns, c = '\r') ∧
    (later = [] ∨ ∃ b, later = '\n' :: b)

/-! ## Lines -/

theorem uncommentPiece_append {body returns : Text} (hbody : ∀ s, body ≠ s ++ ['\r'])
    (hreturns : ∀ c ∈ returns, c = '\r') :
    uncommentPiece (body ++ returns) = beforeAtom .commentSign body ++ returns := by
  have kept : pieceBody (body ++ returns) = body := by
    rw [pieceBody, dropTrailing_append fun c hc => by simp [hreturns c hc]]
    rcases List.eq_nil_or_concat body with rfl | ⟨s, c, rfl⟩
    · rfl
    · rw [List.concat_eq_append] at hbody ⊢
      have hc : (c == '\r') = false := by
        refine beq_eq_false_iff_ne.mpr ?_
        rintro rfl
        exact hbody s rfl
      exact dropTrailing_concat (p := (· == '\r')) hc s
  rw [uncommentPiece, pieceReturns, kept, List.drop_left]

theorem exists_body_append (piece : Text) :
    ∃ body returns, piece = body ++ returns ∧ (∀ s, body ≠ s ++ ['\r']) ∧
      ∀ c ∈ returns, c = '\r' := by
  obtain ⟨whole, hreturns⟩ := pieceBody_append_pieceReturns piece
  refine ⟨piece.pieceBody, piece.pieceReturns, whole.symm, ?_, hreturns⟩
  intro s hs
  exact absurd (dropTrailing_eq_concat (p := (· == '\r')) hs) (by simp)

theorem uncommented_uncommentPiece (piece : Text) : Uncommented piece (uncommentPiece piece) := by
  obtain ⟨body, returns, rfl, hbody, hreturns⟩ := exists_body_append piece
  refine ⟨body, beforeAtom .commentSign body, returns, rfl, uncommentPiece_append hbody hreturns,
    ⟨hbody, hreturns⟩, ⟨_, beforeAtom_append_fromAtom .commentSign body⟩, ?_⟩
  rcases beforeAtom_cases (c := '%') (by decide) body with ⟨hnone, hbefore, -⟩ | ⟨hfirst, -⟩
  · exact Or.inl ⟨hnone, hbefore⟩
  · exact Or.inr hfirst

theorem isCommentFree_append_iff {t returns : Text} (h : ∀ c ∈ returns, c = '\r') :
    IsCommentFree (t ++ returns) ↔ IsCommentFree t := by
  have noSign : '%' ∉ returns := fun hmem => absurd (h _ hmem) (by decide)
  simp only [IsCommentFree, isUnescaped_append_iff noSign]

theorem Uncommented.isCommentFree {line kept : Text} (h : Uncommented line kept) :
    IsCommentFree kept := by
  obtain ⟨body, front, returns, -, rfl, ⟨-, hreturns⟩, -, hfront⟩ := h
  rw [isCommentFree_append_iff hreturns]
  rcases hfront with ⟨hfree, rfl⟩ | ⟨⟨-, after, rfl⟩, hfirst⟩
  · exact hfree
  · rintro before ⟨heven, rest, rfl⟩
    have earlier := hfirst before ⟨heven, rest ++ '%' :: after, by simp⟩
    have shorter := earlier.length_le
    rw [List.length_append, List.length_cons] at shorter
    omega

theorem uncommentPiece_of_isCommentFree {piece : Text} (h : IsCommentFree piece) :
    uncommentPiece piece = piece := by
  obtain ⟨body, returns, rfl, hbody, hreturns⟩ := exists_body_append piece
  rw [uncommentPiece_append hbody hreturns]
  rcases beforeAtom_cases (c := '%') (by decide) body with ⟨-, hbefore, -⟩ | ⟨⟨hsign, -⟩, -⟩
  · exact congrArg (· ++ returns) hbefore
  · exact absurd hsign ((isCommentFree_append_iff hreturns).mp h _)

/-- Whatever follows an unescaped character, the text before it is cut where it was, or at it. -/
theorem beforeAtom_append_cons {c : Char} (hc : c ≠ '\\') {s : Text}
    (h : Even (finalBackslashes s)) (u : Text) :
    beforeAtom (.plain c) (s ++ c :: u) = beforeAtom (.plain c) s := by
  have split : atoms (s ++ c :: u) = atoms s ++ .plain c :: atoms u := by
    rw [atoms_append_of_even h, atoms_cons hc]
  by_cases hmem : .plain c ∈ atoms s
  · obtain ⟨as, bs, hatoms, hfirst⟩ := List.eq_append_cons_of_mem hmem
    rw [hatoms, List.append_assoc, List.cons_append] at split
    rw [beforeAtom_of_atoms split hfirst, beforeAtom_of_atoms hatoms hfirst]
  · rw [beforeAtom_of_atoms split hmem, beforeAtom_of_not_mem hmem, spell_atoms]

/-! ## Texts -/

theorem count_joinPieces {ps : List Text} (h : ∀ p ∈ ps, '\n' ∉ p) (hps : ps ≠ []) :
    (joinPieces ps).count '\n' + 1 = ps.length := by
  fun_induction joinPieces ps with
  | case1 => exact absurd rfl hps
  | case2 last => simp [List.count_eq_zero.mpr (h last List.mem_cons_self)]
  | case3 piece rest hrest ih =>
      have later := ih (fun p hp => h p (List.mem_cons_of_mem _ hp)) fun hnil => hrest hnil
      rw [List.count_append, List.count_eq_zero.mpr (h piece List.mem_cons_self),
        List.count_cons_self, List.length_cons, ← later]
      omega

theorem count_feeds (t : Text) : t.count '\n' + 1 = t.pieces.length := by
  have noFeeds : ∀ p ∈ t.pieces, '\n' ∉ p := fun _ hp => not_mem_of_mem_splitAtChar hp
  have joined := count_joinPieces noFeeds (pieces_ne_nil t)
  rwa [joinPieces_pieces] at joined

theorem exists_isUnescaped_of_joinPieces {c : Char} (hc : c ≠ '\n') {ps : List Text} {before : Text}
    (h : IsUnescaped c (joinPieces ps) before) :
    ∃ piece ∈ ps, ∃ front, IsUnescaped c piece front := by
  fun_induction joinPieces ps generalizing before with
  | case1 =>
      obtain ⟨-, after, hnone⟩ := h
      exact absurd hnone.symm (by simp)
  | case2 last => exact ⟨last, List.mem_cons_self, before, h⟩
  | case3 piece rest hrest ih =>
      obtain ⟨heven, after, whole⟩ := h
      rcases append_eq_append_cons whole with ⟨v, hpiece, -⟩ | ⟨v, rfl, hlater⟩
      · exact ⟨piece, List.mem_cons_self, before, heven, v, hpiece⟩
      · cases v with
        | nil => exact absurd (List.cons.inj hlater).1.symm hc
        | cons d v =>
            obtain ⟨rfl, hrest⟩ := List.cons.inj hlater
            rw [finalBackslashes_append_cons (by decide)] at heven
            obtain ⟨later, hlater, front, hfront⟩ := ih ⟨heven, after, hrest⟩
            exact ⟨later, List.mem_cons_of_mem _ hlater, front, hfront⟩

theorem isCommentFree_withoutComments (t : Text) : IsCommentFree t.withoutComments := by
  intro before h
  obtain ⟨kept, hkept, front, hfront⟩ := exists_isUnescaped_of_joinPieces (by decide) h
  obtain ⟨piece, -, rfl⟩ := List.mem_map.mp hkept
  exact (uncommented_uncommentPiece piece).isCommentFree front hfront

theorem withoutComments_withoutComments (t : Text) :
    t.withoutComments.withoutComments = t.withoutComments := by
  have stays : ∀ piece, uncommentPiece (uncommentPiece piece) = uncommentPiece piece := by
    intro piece
    exact uncommentPiece_of_isCommentFree (uncommented_uncommentPiece piece).isCommentFree
  rw [withoutComments, pieces_withoutComments, List.map_map, withoutComments]
  exact congrArg joinPieces (List.map_congr_left fun piece _ => stays piece)

/-! ## What a comment says -/

theorem finalBackslashes_joinPieces (init : List Text) (last : Text) :
    finalBackslashes (joinPieces (init ++ [last])) = finalBackslashes last := by
  induction init with
  | nil => rfl
  | cons piece init ih =>
      rw [List.cons_append, joinPieces_cons (by simp), finalBackslashes_append_cons (by decide), ih]

theorem exists_pieces_append {later : Text} (h : later = [] ∨ ∃ b, later = '\n' :: b) :
    ∃ rest, ∀ {line : Text}, '\n' ∉ line → pieces (line ++ later) = line :: rest := by
  rcases h with rfl | ⟨b, rfl⟩
  · refine ⟨[], fun {line} hline => ?_⟩
    rw [List.append_nil, pieces_of_noFeed hline]
  · exact ⟨pieces b, fun hline => pieces_append_feed hline b⟩

/-- The pieces of a text with a comment in it: the comment and the sign before it stand in one of
them, and the others do not hang on it. -/
theorem CommentAt.exists_pieces (front : Text) {back : Text}
    (hback : ∃ returns later, back = returns ++ later ∧ (∀ c ∈ returns, c = '\r') ∧
      (later = [] ∨ ∃ b, later = '\n' :: b)) :
    ∃ init last returns rest, (∀ c ∈ returns, c = '\r') ∧
      finalBackslashes last = finalBackslashes front ∧
      ∀ {t comment}, CommentAt t front comment back →
        t.pieces = init ++ (last ++ '%' :: comment ++ returns) :: rest := by
  obtain ⟨returns, later, rfl, hreturns, hlater⟩ := hback
  obtain ⟨rest, hrest⟩ := exists_pieces_append hlater
  obtain ⟨init, last, hfront⟩ : ∃ init last, front.pieces = init ++ [last] :=
    ⟨_, _, (List.dropLast_append_getLast (pieces_ne_nil front)).symm⟩
  have hlast := finalBackslashes_joinPieces init last
  rw [← hfront, joinPieces_pieces] at hlast
  refine ⟨init, last, returns, rest, hreturns, hlast.symm, fun {t comment} h => ?_⟩
  have noFeed : '\n' ∉ '%' :: (comment ++ returns) := by
    intro hmem
    rcases List.mem_cons.mp hmem with hsign | hmem
    · exact absurd hsign (by decide)
    · rcases List.mem_append.mp hmem with hmem | hmem
      · exact h.inLine.1 hmem
      · exact absurd (hreturns _ hmem) (by decide)
  have parts : t = front ++ ('%' :: (comment ++ returns) ++ later) := by simp [h.whole]
  rw [parts, pieces_append hfront (hrest noFeed)]
  simp

/-- Texts that differ in what a comment says are the same without comments. -/
theorem CommentAt.withoutComments_eq {t t' front comment comment' back : Text}
    (h : CommentAt t front comment back) (h' : CommentAt t' front comment' back) :
    t.withoutComments = t'.withoutComments := by
  obtain ⟨init, last, returns, rest, hreturns, hlast, hpieces⟩ :=
    CommentAt.exists_pieces front h.ending
  have cut : ∀ {t comment}, CommentAt t front comment back →
      uncommentPiece (last ++ '%' :: comment ++ returns) =
        beforeAtom .commentSign last ++ returns := by
    intro t comment h
    have hbody : ∀ s, last ++ '%' :: comment ≠ s ++ ['\r'] := by
      intro s hs
      have final := congrArg List.getLast? hs
      rw [List.getLast?_append_cons, List.getLast?_concat] at final
      rcases List.eq_nil_or_concat comment with rfl | ⟨u, d, rfl⟩
      · exact absurd final (by decide)
      · rw [List.concat_eq_append, ← List.cons_append, List.getLast?_concat] at final
        obtain rfl := Option.some.inj final
        exact h.inLine.2 u (List.concat_eq_append)
    rw [uncommentPiece_append hbody hreturns]
    exact congrArg (· ++ returns)
      (beforeAtom_append_cons (by decide) (hlast ▸ h.unescaped) comment)
  rw [withoutComments, withoutComments, hpieces h, hpieces h', List.map_append, List.map_append,
    List.map_cons, List.map_cons, cut h, cut h']

/-- Removing comments keeps the lines of a text, each up to its comment and with its ending; it
leaves no comment and does nothing to a text without comments; it works line by line; and what a
comment says does not matter. -/
theorem withoutComments_isProjection (t : Text) :
    (t.withoutComments.count '\n' = t.count '\n' ∧
      List.Forall₂ Uncommented t.pieces t.withoutComments.pieces) ∧
    (IsCommentFree t.withoutComments ∧ t.withoutComments.withoutComments = t.withoutComments) ∧
    (∀ a b, t = a ++ ['\n'] → (t ++ b).withoutComments = t.withoutComments ++ b.withoutComments) ∧
    ∀ front comment back, CommentAt t front comment back →
      ∀ other, (∀ c ∈ other, c ≠ '\r' ∧ c ≠ '\n') →
        (front ++ '%' :: (other ++ back)).withoutComments = t.withoutComments := by
  refine ⟨⟨?_, ?_⟩, ⟨isCommentFree_withoutComments t, withoutComments_withoutComments t⟩, ?_, ?_⟩
  · have before := count_feeds t
    have after := count_feeds t.withoutComments
    rw [pieces_withoutComments, List.length_map] at after
    omega
  · rw [pieces_withoutComments, List.forall₂_map_right_iff]
    exact List.forall₂_same.mpr fun piece _ => uncommented_uncommentPiece piece
  · rintro a b rfl
    exact IsWholeLines.withoutComments_append (Or.inr ⟨a, rfl⟩) b
  · intro front comment back h other hother
    have inLine : '\n' ∉ other ∧ ∀ s, other ≠ s ++ ['\r'] := by
      constructor
      · exact fun hfeed => (hother _ hfeed).2 rfl
      · rintro s rfl
        exact (hother '\r' (by simp)).1 rfl
    exact CommentAt.withoutComments_eq ⟨rfl, h.unescaped, inLine, h.ending⟩ h

example : withoutComments "1 \\% 2 % 3\r\r\nx%".toList = "1 \\% 2 \r\r\nx".toList := by decide

end Text

end NumeralLint
