/-
Reports that point at what they report.

A rule works on trimmed lines of the prepared text, and `MarkedIn` says where
in them a range lies: between the parts `before` and `after` of a line.
Nothing is said of columns but that they are widths, so columns need not be
added up.  Where the prepared text is the original text without its
comments, the line that a rule reads is the beginning of the original line
(`Text.trimEnd_prefix_pieceBody`), and the report points at the same text
there (`pointsAt_of_markedIn`).
-/
import NumeralLint.Advisory.Basic
import NumeralLint.Proofs.Source.Lines
import NumeralLint.Proofs.Text.Slices

namespace NumeralLint

/-- `range` is, under `place`, the range of the text `marked`, which stands after `before` and
before `after` in one of the lines. -/
def MarkedIn (place : Nat → Nat → Nat → Range) (lines : List Text) (range : Range)
    (before marked after : Text) : Prop :=
  ∃ n, lines[n]? = some (before ++ marked ++ after) ∧
    range = place n before.width (before ++ marked).width

/-- The advisory points at the text `marked` of the original text, which stands after `before` and
before `after` in its line. -/
structure Advisory.PointsAt (original : Text) (a : Advisory) (before marked after : Text) :
    Prop where
  /-- The line of the advisory is the original line, without the carriage returns at its end, and
  the offset counts the bytes before `marked`. -/
  inOriginal : ∃ front returns back,
    Text.PieceAt original a.range.start.line front (a.line ++ returns) back ∧
      (∀ c ∈ returns, c = '\r') ∧ a.offset = (front ++ before).width
  noReturn : ∀ s, a.line ≠ s ++ ['\r']
  line : a.line = before ++ marked ++ after
  start : a.range.start.column = before.width
  stop : a.range.stop = ⟨a.range.start.line, (before ++ marked).width⟩
  ordered : a.range.start.column ≤ a.range.stop.column
  bounded : a.range.stop.column ≤ a.line.width
  sliced : original.slice? a.offset (a.offset + (a.range.stop.column - a.range.start.column)) =
    some marked

/-! ## From the prepared text to the original text -/

theorem LineIndex.exists_line {t piece : Text} {n : Nat} (h : t.pieces[n]? = some piece) :
    ∃ found front back, (ofText t).lines[n]? = some found ∧
      Text.PieceAt t n front piece back ∧ found.start = front.width ∧
      found.body = piece.pieceBody := by
  obtain ⟨hn, -⟩ := List.getElem?_eq_some_iff.mp h
  have inside : n < (ofText t).lines.length := by
    rw [ofText, length_linesFrom]
    exact hn
  obtain ⟨front, piece', back, hat, hpiece, hstart, hbody⟩ :=
    exists_pieceAt (List.getElem?_eq_getElem inside)
  obtain rfl : piece = piece' := Option.some.inj (h.symm.trans hpiece)
  exact ⟨_, front, back, List.getElem?_eq_getElem inside, hat, hstart, hbody⟩

theorem Advisory.pointsAt_of_pieceAt {original front piece back before marked after : Text} {n : Nat}
    {a : Advisory} (hat : Text.PieceAt original n front piece back)
    (hbody : piece.pieceBody = before ++ marked ++ after) (hline : a.line = piece.pieceBody)
    (hrange : a.range = ⟨⟨n, before.width⟩, ⟨n, (before ++ marked).width⟩⟩)
    (hoffset : a.offset = (front ++ before).width) : a.PointsAt original before marked after := by
  obtain ⟨whole, hreturns⟩ := Text.pieceBody_append_pieceReturns piece
  have length : a.range.stop.column - a.range.start.column = marked.width := by
    rw [hrange]
    show (before ++ marked).width - before.width = marked.width
    rw [Text.width_append]
    omega
  have around : original =
      front ++ before ++ marked ++ (after ++ piece.pieceReturns ++ back) := by
    conv => lhs; rw [hat.whole, ← whole, hbody]
    simp only [List.append_assoc]
  constructor
  case inOriginal =>
    refine ⟨front, piece.pieceReturns, back, ?_, hreturns, hoffset⟩
    rw [hrange, hline, whole]
    exact hat
  case noReturn =>
    intro s hs
    rw [hline] at hs
    exact absurd (Text.dropTrailing_eq_concat hs) (by decide)
  case line => rw [hline, hbody]
  case start => rw [hrange]
  case stop => rw [hrange]
  case ordered =>
    rw [hrange]
    show before.width ≤ (before ++ marked).width
    rw [Text.width_append]
    omega
  case bounded =>
    rw [hrange, hline, hbody]
    show (before ++ marked).width ≤ (before ++ marked ++ after).width
    rw [Text.width_append (before ++ marked)]
    omega
  case sliced =>
    rw [length, hoffset]
    conv => lhs; rw [around]
    exact Text.slice?_append (front ++ before) marked _

/-- An advisory on a document without comments points at the text that its finding marks. -/
theorem exists_finding_of_advisory {resource original ruleId : Text} {findings : List Finding}
    {a : Advisory}
    (ha : a ∈ (Document.uncommented resource original).advisories ruleId findings) :
    ∃ finding ∈ findings, a.ruleId = ruleId ∧ a.message = finding.message ∧
      ∀ before marked after,
        MarkedIn (Document.uncommented resource original).originalRange
            ((Document.uncommented resource original).lines.map Text.trimEnd) finding.range
            before marked after →
          ∃ more, a.PointsAt original before marked (after ++ more) := by
  obtain ⟨finding, hfinding, rfl⟩ := List.mem_map.mp ha
  refine ⟨finding, hfinding, rfl, rfl, ?_⟩
  rintro before marked after ⟨n, hline, hrange⟩
  obtain ⟨line, hline, htrim⟩ := Option.map_eq_some_iff.mp (List.getElem?_map ▸ hline)
  obtain ⟨piece, hpiece, more, hmore⟩ := Text.trimEnd_prefix_pieceBody hline
  obtain ⟨found, front, back, hfound, hat, hstart, hbody⟩ := LineIndex.exists_line hpiece
  have body : piece.pieceBody = before ++ marked ++ (after ++ more) := by
    rw [← hmore, htrim]
    simp only [List.append_assoc]
  have column : before.width ≤ piece.pieceBody.width := by
    rw [body]
    simp only [Text.width_append]
    omega
  have start : finding.range.start = ⟨n, before.width⟩ := by
    rw [hrange]
    rfl
  refine ⟨more, Advisory.pointsAt_of_pieceAt hat body ?_ hrange ?_⟩
  · show (LineIndex.ofText original).body finding.range.start.line = piece.pieceBody
    rw [start, LineIndex.body, hfound]
    exact hbody
  · show (LineIndex.ofText original).offset finding.range.start = (front ++ before).width
    rw [start, LineIndex.offset, hfound]
    show found.start + min before.width found.body.width = _
    rw [hbody, hstart, Nat.min_eq_left column, Text.width_append]

end NumeralLint
