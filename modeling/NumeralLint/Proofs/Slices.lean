/-
Checking a document takes no slice that does not exist.

The checking path is followed here by places: comments, the lines that
reports show, sentences, numerals, specifications, rows and the parts of a
table line are all taken with `Text.part?` or `Text.dropBytes?`, which fail
outside the text, inside a character and where the places are out of order.
`Linter.check?_eq` says that the checking never fails, whatever the document,
its source map and the rules are, and that it reports what `Linter.check`
reports.  The places by themselves are collected in `Text.SafePlaces`.
-/
import NumeralLint.Linter
import NumeralLint.Proofs.Prose.Slices
import NumeralLint.Proofs.Table.Slices

namespace NumeralLint

open Text

/-! ## Comments -/

namespace Text

/-- A piece without its comment, which starts where a loop over the bytes says. -/
def uncommentPiece? (piece : Text) : Option Text :=
  let size := piece.pieceBody.width
  (piece.part? 0 size).bind fun body =>
    (piece.dropBytes? size).bind fun ending =>
      match loopPlaces .commentSign body with
      | [] => some (body ++ ending)
      | place :: _ => (body.part? 0 place).map fun kept => kept ++ ending

theorem uncommentPiece?_eq (piece : Text) :
    uncommentPiece? piece = some piece.uncommentPiece := by
  obtain ⟨whole, -⟩ := pieceBody_append_pieceReturns piece
  have body : piece.part? 0 piece.pieceBody.width = some piece.pieceBody := by
    have slice := part?_append [] piece.pieceBody piece.pieceReturns
    rw [List.nil_append, whole] at slice
    exact slice
  have ending : piece.dropBytes? piece.pieceBody.width = some piece.pieceReturns := by
    have slice := dropBytes?_append piece.pieceBody piece.pieceReturns
    rwa [whole] at slice
  rw [uncommentPiece?, uncommentPiece]
  simp only [body, ending, Option.bind_some, loopPlaces]
  have parts := beforeAtom_append_fromAtom .commentSign piece.pieceBody
  rcases bytePlaces_cases (a := .commentSign) (by decide) 0 piece.pieceBody with
    ⟨places, hbefore, -⟩ | ⟨more, rest, places, -⟩
  · rw [places, hbefore]
  · have kept : piece.pieceBody.part? 0 (0 + (piece.pieceBody.beforeAtom .commentSign).width) =
        some (piece.pieceBody.beforeAtom .commentSign) := by
      have slice := part?_append [] (piece.pieceBody.beforeAtom .commentSign)
        (piece.pieceBody.fromAtom .commentSign)
      rw [List.nil_append, parts] at slice
      rw [Nat.zero_add]
      exact slice
    rw [places]
    simp only [kept, Option.map_some]

def withoutComments? (t : Text) : Option Text := (t.pieces.mapM uncommentPiece?).map joinPieces

theorem withoutComments?_eq (t : Text) : withoutComments? t = some t.withoutComments := by
  rw [withoutComments?, mapM_eq_some fun piece _ => uncommentPiece?_eq piece]
  rfl

end Text

/-! ## Lines of the original text -/

/-- A line of the index stands, with its ending, between its start and that of the next one. -/
theorem LineIndex.exists_segment_of_linesFrom {ps : List Text} {start l : Nat}
    {found : IndexedLine} (h : (linesFrom start ps)[l]? = some found) :
    ∃ front piece ending back, joinPieces ps = front ++ (piece ++ ending) ++ back ∧
      piece ∈ ps ∧ (ending = [] ∨ ending = ['\n']) ∧
      found = ⟨start + front.width, piece.pieceBody⟩ ∧
      ((linesFrom start ps)[l + 1]?).elim (start + (joinPieces ps).width) IndexedLine.start =
        start + (front ++ (piece ++ ending)).width := by
  induction ps generalizing start l with
  | nil => simp [linesFrom] at h
  | cons piece rest ih =>
      cases l with
      | zero =>
          obtain rfl : ⟨start, piece.pieceBody⟩ = found := by simpa [linesFrom] using h
          cases rest with
          | nil =>
              exact ⟨[], piece, [], [], by simp [joinPieces], by simp, Or.inl rfl, rfl,
                by simp [linesFrom, joinPieces]⟩
          | cons next rest =>
              refine ⟨[], piece, ['\n'], joinPieces (next :: rest), by simp [joinPieces], by simp,
                Or.inr rfl, rfl, ?_⟩
              have feed : Text.width ['\n'] = 1 := rfl
              rw [List.nil_append, width_append, feed, ← Nat.add_assoc]
              rfl
      | succ l =>
          cases rest with
          | nil => simp [linesFrom] at h
          | cons next rest =>
              have later : (linesFrom (start + piece.width + 1) (next :: rest))[l]? =
                  some found := by simpa [linesFrom] using h
              obtain ⟨front, line, ending, back, hparts, hmem, hending, rfl, hnext⟩ := ih later
              have feed : Text.width ['\n'] = 1 := rfl
              have past : joinPieces (piece :: next :: rest) =
                  piece ++ ['\n'] ++ joinPieces (next :: rest) := by simp [joinPieces]
              have shift : ∀ t : Text, start + (piece ++ ['\n'] ++ t).width =
                  start + piece.width + 1 + t.width := by
                intro t
                rw [width_append, width_append, feed]
                omega
              refine ⟨piece ++ ['\n'] ++ front, line, ending, back, ?_,
                List.mem_cons_of_mem _ hmem, hending, ?_, ?_⟩
              · rw [past, hparts]
                simp only [List.append_assoc]
              · rw [shift]
              · rw [past, shift, List.append_assoc _ front, shift]
                exact hnext

theorem Text.dropTrailing_ending {piece ending : Text} (hpiece : '\n' ∉ piece)
    (hending : ending = [] ∨ ending = ['\n']) :
    dropTrailing (fun c => c == '\n' || c == '\r') (piece ++ ending) = piece.pieceBody := by
  have blank : ∀ c ∈ ending, (c == '\n' || c == '\r') = true := by
    rcases hending with rfl | rfl <;> simp
  rw [dropTrailing_append blank]
  refine dropTrailing_congr fun c hc => ?_
  have notFeed : c ≠ '\n' := fun h => hpiece (h ▸ hc)
  simp [notFeed]

namespace Document

/-- The text of an original line: the part up to the start of the next line, without its ending. -/
def originalLine? (doc : Document) (line : Nat) : Option Text :=
  match doc.index.lines[line]? with
  | none => some []
  | some found =>
      let stop := (doc.index.lines[line + 1]?).elim doc.index.size IndexedLine.start
      (doc.original.part? found.start stop).map fun t =>
        t.dropTrailing fun c => c == '\n' || c == '\r'

theorem originalLine?_eq (doc : Document) (line : Nat) :
    doc.originalLine? line = some (doc.index.body line) := by
  rw [originalLine?, LineIndex.body]
  cases hline : doc.index.lines[line]? with
  | none => rfl
  | some found =>
      obtain ⟨front, piece, ending, back, hparts, hmem, hending, rfl, hnext⟩ :=
        LineIndex.exists_segment_of_linesFrom hline
      have whole : joinPieces doc.original.pieces = doc.original := joinPieces_pieces _
      have noFeed : '\n' ∉ piece := not_mem_of_mem_splitAtChar hmem
      rw [whole] at hparts hnext
      simp only [Nat.zero_add] at hnext ⊢
      have slice : doc.original.part? front.width (front ++ (piece ++ ending)).width =
          some (piece ++ ending) := by
        conv => lhs; rw [hparts]
        exact part?_append _ _ _
      have stop : (doc.index.lines[line + 1]?).elim doc.index.size IndexedLine.start =
          (front ++ (piece ++ ending)).width := hnext
      rw [stop, slice, Option.map_some, dropTrailing_ending noFeed hending]

/-- The advisories that rule `ruleId` makes of its findings, with their lines taken as slices. -/
def advisories? (doc : Document) (ruleId : Text) (findings : List Finding) :
    Option (List Advisory) :=
  findings.mapM fun finding =>
    (doc.originalLine? finding.range.start.line).map fun line =>
      { ruleId := ruleId
        range := finding.range
        message := finding.message
        resource := doc.resource
        line := line
        offset := doc.index.offset finding.range.start }

theorem advisories?_eq (doc : Document) (ruleId : Text) (findings : List Finding) :
    doc.advisories? ruleId findings = some (doc.advisories ruleId findings) := by
  refine mapM_eq_some fun finding _ => ?_
  rw [originalLine?_eq]
  rfl

end Document

/-! ## Rules and linters -/

namespace Rule

def findings? (doc : Document) : Rule → Option (List Finding)
  | smallIntegers rule => rule.findings? doc.originalRange doc.lines
  | alignment rule => rule.findings? doc.originalRange doc.lines

def check? (doc : Document) (rule : Rule) : Option (List Advisory) :=
  (rule.findings? doc).bind (doc.advisories? rule.id)

theorem check?_eq (doc : Document) (rule : Rule) : rule.check? doc = some (rule.check doc) := by
  have found : rule.findings? doc = some (rule.findings doc) := by
    cases rule with
    | smallIntegers rule => exact rule.findings?_eq _ _
    | alignment rule => exact rule.findings?_eq _ _
  rw [check?, found, Option.bind_some, Document.advisories?_eq]
  rfl

end Rule

/-- The advisories of all rules on a document, with every slice checked. -/
def Linter.check? (linter : Linter) (doc : Document) : Option (List Advisory) :=
  (linter.rules.mapM (Rule.check? doc)).map List.flatten

theorem Linter.check?_eq (linter : Linter) (doc : Document) :
    linter.check? doc = some (linter.check doc) := by
  rw [check?, mapM_eq_some fun rule _ => rule.check?_eq doc]
  rfl

/-! ## Places -/

/-- Every place at which the text is cut, in whatever part it plays, is a boundary of it. -/
structure Text.SafePlaces (t : Text) : Prop where
  /-- The row terminators, which a loop over bytes finds, and the places after them. -/
  terminators : atomPlaces .rowTerminator 0 t.atoms = loopPlaces .rowTerminator t ∧
    ∀ p ∈ loopPlaces .rowTerminator t,
      t.IsBoundary p ∧ t.IsBoundary (p + 2) ∧ p + 2 ≤ t.width
  comments : ∀ p ∈ loopPlaces .commentSign t, t.IsBoundary p
  /-- The end of a group that starts at any opening brace. -/
  groups : ∀ s u, t = s ++ '{' :: u →
    s.width ≤ ColumnSpec.groupEnd t s.width ∧ t.IsBoundary (ColumnSpec.groupEnd t s.width)
  /-- The end of a specification at the start of the text. -/
  specification : ColumnSpec.readFrom? t 0 =
      some ((ColumnSpec.read t).items, (ColumnSpec.read t).size) ∧
    t.IsBoundary (ColumnSpec.read t).size
  numerals : ∀ n ∈ t.numerals, n.start ≤ n.stop ∧ t.IsBoundary n.start ∧ t.IsBoundary n.stop
  /-- The parts into which sentence ends cut the text. -/
  parts : ∀ (abbr : Abbreviations) before part after, abbr.parts t = before ++ part :: after →
    t.part? (width before.flatten) (width (before.flatten ++ part)) = some part
  /-- Looking back from the marks of sentence ends takes slices as well, and fails nowhere. -/
  splitting : ∀ abbr : Abbreviations, abbr.parts? t = some (abbr.parts t)
  sentences : ∀ ss, ∀ s ∈ placedSentences t ss,
    t.IsBoundary s.offset ∧ t.IsBoundary (s.offset + s.text.width)

theorem Text.safePlaces (t : Text) : t.SafePlaces where
  terminators := by
    refine ⟨(loopPlaces_eq (by decide) t).symm, ?_⟩
    intro p hp
    obtain ⟨s, u, rfl, rfl⟩ := exists_of_mem_loopPlaces (by decide) hp
    have after : width s + 2 = width (s ++ ['\\', '\\']) := by
      rw [width_append]
      rfl
    have second : IsBoundary (s ++ Atom.rowTerminator.text ++ u) (width s + 2) :=
      ⟨s ++ ['\\', '\\'], u, rfl, after.symm⟩
    exact ⟨⟨s, _, List.append_assoc _ _ _, rfl⟩, second, second.le_width⟩
  comments := by
    intro p hp
    obtain ⟨s, u, rfl, rfl⟩ := exists_of_mem_loopPlaces (by decide) hp
    exact ⟨s, _, List.append_assoc _ _ _, rfl⟩
  groups := by
    rintro s u rfl
    obtain ⟨order, -, boundary⟩ := isSome_part?_iff.mp (by
      rw [ColumnSpec.part?_groupEnd s u]
      rfl)
    exact ⟨order, boundary⟩
  specification := by
    refine ⟨ColumnSpec.readFrom?_eq [] t, (ColumnSpec.read t).source, (ColumnSpec.read t).rest,
      ?_, rfl⟩
    exact (ColumnSpec.source_append_rest t).symm
  numerals := by
    intro n hn
    exact isSome_part?_iff.mp (by rw [part?_of_mem_numerals hn]; rfl)
  parts := by
    intro abbr before part after hparts
    have whole := abbr.flatten_parts t
    rw [hparts, List.flatten_append, List.flatten_cons, ← List.append_assoc] at whole
    exact part?_eq_some_iff.mpr ⟨before.flatten, after.flatten, whole.symm, rfl, rfl⟩
  splitting abbr := abbr.parts?_eq t
  sentences := by
    intro ss s hs
    exact (isSome_part?_iff.mp (by rw [part?_of_mem_placedSentences hs]; rfl)).2

/-- Checking a document takes every slice between two boundaries in order: in every text, every
place at which the checking cuts it is a boundary; taking the comments out never fails; reading a
line by places never fails, whatever was read before, and reads what reading by parts reads; and so
the rules check every document, with any source map and any options, and report what they report. -/
theorem checking_slices_safely :
    (∀ t : Text, t.SafePlaces) ∧
    (∀ t : Text, t.withoutComments? = some t.withoutComments) ∧
    (∀ (rule : Alignment) (place : Nat → Nat → Range) (tally : TableTally) (line : Text),
      rule.readLine? place tally line = some (rule.readLine place tally line)) ∧
    ∀ (linter : Linter) (doc : Document), linter.check? doc = some (linter.check doc) :=
  ⟨Text.safePlaces, Text.withoutComments?_eq, Alignment.readLine?_eq, Linter.check?_eq⟩

end NumeralLint
