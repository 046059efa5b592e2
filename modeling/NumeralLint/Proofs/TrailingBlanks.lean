/-
Blanks at the ends of lines do not matter.

A rule reads trimmed lines, so the end of a line, be it a line feed or a
carriage return and a line feed, and the blanks before it never reach it.
Comments are removed before lines are trimmed, and there a blank may be
escaped by a backslash at the end of the text; but a blank is no percent
sign, so whether it is escaped changes nothing (`beforeAtom_append_blanks`).
A last line of nothing but blanks is a line to read if it has blanks and none
if it is empty; nothing is found in it either way.
-/
import NumeralLint.Proofs.Concatenation
import NumeralLint.Proofs.Prose.Reports
import NumeralLint.Proofs.SourceMap

namespace NumeralLint

namespace Text

/-! ## Comments -/

theorem beforeAtom_isPrefix (a : Atom) (t : Text) : beforeAtom a t <+: t :=
  ⟨fromAtom a t, beforeAtom_append_fromAtom a t⟩

/-- Blanks after a text do not change where a character that is no blank stands unescaped in it. -/
theorem beforeAtom_append_blanks {c : Char} (hc : c ≠ '\\') {blanks : Text}
    (hblanks : ∀ d ∈ blanks, isBlank d = true) (t : Text) :
    ∃ tail, beforeAtom (.plain c) (t ++ blanks) = beforeAtom (.plain c) t ++ tail ∧
      ∀ d ∈ tail, isBlank d = true := by
  have inBlanks : ∀ {u : Text}, u ⊆ blanks → ∀ d ∈ beforeAtom (.plain c) u, isBlank d = true := by
    intro u hu d hd
    exact hblanks d (hu ((beforeAtom_isPrefix _ u).subset hd))
  fun_induction beforeAtom (.plain c) t with
  | case1 => exact ⟨_, rfl, inBlanks (List.Subset.refl _)⟩
  | case2 e h =>
      obtain rfl := Atom.plain.inj h
      refine ⟨[], ?_, by simp⟩
      cases blanks with
      | nil => simp [beforeAtom]
      | cons f rest => simp [beforeAtom, hc]
  | case3 e h =>
      cases blanks with
      | nil => exact ⟨[], by simp [beforeAtom, h], by simp⟩
      | cons f rest =>
          by_cases he : e = '\\'
          · refine ⟨f :: beforeAtom (.plain c) rest, by simp [beforeAtom, he], ?_⟩
            exact List.forall_mem_cons.mpr ⟨hblanks f List.mem_cons_self,
              inBlanks (List.subset_cons_self f rest)⟩
          · refine ⟨beforeAtom (.plain c) (f :: rest), by simp [beforeAtom, he, h], ?_⟩
            exact inBlanks (List.Subset.refl _)
  | case4 d t h => exact absurd h (by simp)
  | case5 d t h ih =>
      obtain ⟨tail, htail, hall⟩ := ih
      exact ⟨tail, by simp [beforeAtom, htail], hall⟩
  | case6 e d t he h =>
      refine ⟨[], ?_, by simp⟩
      simp [beforeAtom, he, h]
  | case7 e d t he h ih =>
      obtain ⟨tail, htail, hall⟩ := ih
      refine ⟨tail, ?_, hall⟩
      rw [List.cons_append] at htail
      simp [beforeAtom, he, h, htail]

theorem trimEnd_uncommentPiece (piece : Text) :
    trimEnd (uncommentPiece piece) = trimEnd (beforeAtom .commentSign (trimEnd piece)) := by
  obtain ⟨whole, -⟩ := pieceBody_append_pieceReturns piece
  have returns : ∀ d ∈ piece.pieceReturns, isBlank d = true :=
    fun _ => isBlank_of_mem_pieceReturns
  have same : trimEnd piece = trimEnd piece.pieceBody := by
    conv => lhs; rw [← whole]
    exact trimEnd_append_blanks returns _
  obtain ⟨blanks, hbody, hblanks⟩ := exists_dropTrailing_append isBlank piece.pieceBody
  obtain ⟨tail, hbefore, htail⟩ :=
    beforeAtom_append_blanks (c := '%') (by decide) hblanks (trimEnd piece.pieceBody)
  have cut : beforeAtom .commentSign piece.pieceBody =
      beforeAtom .commentSign (trimEnd piece.pieceBody) ++ tail := by
    conv => lhs; rw [hbody]
    exact hbefore
  rw [uncommentPiece, trimEnd_append_blanks returns, cut, trimEnd_append_blanks htail, same]

theorem map_trimEnd_pieces_withoutComments {t u : Text}
    (h : t.pieces.map trimEnd = u.pieces.map trimEnd) :
    t.withoutComments.pieces.map trimEnd = u.withoutComments.pieces.map trimEnd := by
  have uncommented : ∀ v : Text, v.withoutComments.pieces.map trimEnd =
      (v.pieces.map trimEnd).map fun trimmed => trimEnd (beforeAtom .commentSign trimmed) := by
    intro v
    rw [pieces_withoutComments, List.map_map, List.map_map]
    exact List.map_congr_left fun piece _ => trimEnd_uncommentPiece piece
  rw [uncommented, uncommented, h]

end Text

/-! ## Rules -/

theorem SmallIntegers.proseFindings_nil (rule : SmallIntegers) (place : Nat → Nat → Range) :
    rule.proseFindings place [] = [] := by
  refine List.filterMap_eq_nil_iff.mpr ?_
  intro event hevent
  cases event with
  | missing text => rfl
  | strayEnd line => rfl
  | report start stop =>
      obtain ⟨before, marked, after, hline, -, -, v, hwrites, -⟩ := rule.exists_of_report hevent
      obtain ⟨hmarked, -⟩ := List.append_eq_nil_iff.mp hline.symm
      obtain ⟨-, rfl⟩ := List.append_eq_nil_iff.mp hmarked
      cases hwrites with
      | plain hne => exact absurd rfl hne

theorem SmallIntegers.findings_concat_nil (rule : SmallIntegers)
    (place : Nat → Nat → Nat → Range) (lines : List Text) :
    rule.findings place (lines ++ [[]]) = rule.findings place lines := by
  have nothing : ∀ (depth : Nat) (place : Nat → Nat → Range),
      (rule.readLine depth []).2.filterMap (Event.finding? place) = [] := by
    intro depth place
    rw [findings_readLine, proseFindings_nil, ite_self]
  have trimmed : (lines ++ [[]]).map Text.trimEnd = lines.map Text.trimEnd ++ [[]] :=
    List.map_append
  rw [findings, events, trimmed, readLines_append, List.mapIdx_append, List.flatten_append]
  refine (congrArg (_ ++ ·) ?_).trans (List.append_nil _)
  simp [readLines, nothing]

theorem Alignment.findings_concat_nil (rule : Alignment) (place : Nat → Nat → Nat → Range)
    (lines : List Text) : rule.findings place (lines ++ [[]]) = rule.findings place lines := by
  have trimmed : (lines ++ [[]]).map Text.trimEnd = lines.map Text.trimEnd ++ [[]] :=
    List.map_append
  rw [findings, events, trimmed, readLines_append, readLines, readLine_nil, List.flatten_append]
  exact congrArg (List.filterMap Event.finding?) (List.append_nil _)

namespace Rule

variable (rule : Rule)

/-- A rule reads lines without the blanks at their ends. -/
theorem preparedFindings_congr {lines lines' : List Text}
    (h : lines.map Text.trimEnd = lines'.map Text.trimEnd) :
    rule.preparedFindings lines = rule.preparedFindings lines' := by
  cases rule with
  | smallIntegers rule =>
      have events : rule.events lines = rule.events lines' := congrArg (rule.readLines 0) h
      rw [preparedFindings, preparedFindings, SmallIntegers.findings, SmallIntegers.findings, events]
  | alignment rule =>
      have events : rule.events Range.ofLine lines = rule.events Range.ofLine lines' :=
        congrArg (rule.readLines Range.ofLine 0 .idle) h
      rw [preparedFindings, preparedFindings, Alignment.findings, Alignment.findings, events]

theorem preparedFindings_concat_nil (lines : List Text) :
    rule.preparedFindings (lines ++ [[]]) = rule.preparedFindings lines := by
  cases rule with
  | smallIntegers rule => exact rule.findings_concat_nil Range.ofLine lines
  | alignment rule => exact rule.findings_concat_nil Range.ofLine lines

theorem preparedFindings_pieces (t : Text) :
    rule.preparedFindings t.pieces = rule.preparedFindings t.lines := by
  rcases Text.map_trimEnd_linesOfPieces t.pieces with h | h
  · exact rule.preparedFindings_congr h
  · have concat : t.pieces.map Text.trimEnd = (t.lines ++ [[]]).map Text.trimEnd := by
      rw [List.map_append]
      exact h
    rw [rule.preparedFindings_congr concat, rule.preparedFindings_concat_nil]

end Rule

/-! ## Reports -/

/-- What an advisory says and of which range, without the text that it was made of. -/
def Advisory.report (a : Advisory) : PreparedReport := ⟨a.ruleId, a.range, a.message⟩

namespace Linter

variable (linter : Linter)

theorem preparedReports_congr {t u : Text}
    (h : t.pieces.map Text.trimEnd = u.pieces.map Text.trimEnd) :
    linter.preparedReports t = linter.preparedReports u := by
  refine congrArg (linter.rules.flatMap ·) (funext fun rule => ?_)
  rw [← rule.preparedFindings_pieces t, ← rule.preparedFindings_pieces u,
    rule.preparedFindings_congr h]

theorem map_report_check_inPlace (resource original prepared : Text) :
    (linter.check (.inPlace resource original prepared)).map Advisory.report =
      linter.preparedReports prepared := by
  rw [check_eq_map, List.map_map]
  exact List.map_id _

/-- If two texts have the same pieces between their line feeds, but for blanks at the ends of the
pieces, a linter reports the same of both, at the same ranges and in the same order.  This holds of
the texts as they are and of the texts without their comments. -/
theorem map_report_check_congr {t u : Text}
    (h : t.pieces.map Text.trimEnd = u.pieces.map Text.trimEnd) (resource resource' : Text) :
    (linter.check (.plain resource t)).map Advisory.report =
        (linter.check (.plain resource' u)).map Advisory.report ∧
      (linter.check (.uncommented resource t)).map Advisory.report =
        (linter.check (.uncommented resource' u)).map Advisory.report := by
  have reports : ∀ resource original prepared,
      (linter.check (.inPlace resource original prepared)).map Advisory.report =
        linter.preparedReports prepared := linter.map_report_check_inPlace
  constructor
  · exact ((reports resource t t).trans (linter.preparedReports_congr h)).trans
      (reports resource' u u).symm
  · have uncommented := Text.map_trimEnd_pieces_withoutComments h
    exact ((reports resource t _).trans (linter.preparedReports_congr uncommented)).trans
      (reports resource' u _).symm

/-- A table in a text with carriage returns and in one without, with a comment, with a backslash
before the end of a line and without a feed after the last line that holds something. -/
theorem map_report_check_congr_returns :
    let linter : Linter :=
      ⟨[.smallIntegers ⟨10, Abbreviations.usual.sentences⟩, .alignment ⟨0.5, ['S']⟩]⟩
    let t : Text :=
      "1 cat % 20\\\r\n\\begin\x7btabular\x7d\x7bc\x7d\r\n2\\\\ \t\n\\end\x7btabular\x7d\\\r\n ".toList
    let u : Text :=
      "1 cat % 20\\\n\\begin\x7btabular\x7d\x7bc\x7d\n2\\\\\n\\end\x7btabular\x7d\\\n".toList
    (t.pieces.map Text.trimEnd = u.pieces.map Text.trimEnd ∧ t.lines.length ≠ u.lines.length ∧
      linter.check (.uncommented "t.tex".toList t) ≠ []) ∧
    (linter.check (.plain "t.tex".toList t)).map Advisory.report =
        (linter.check (.plain "u.tex".toList u)).map Advisory.report ∧
      (linter.check (.uncommented "t.tex".toList t)).map Advisory.report =
        (linter.check (.uncommented "u.tex".toList u)).map Advisory.report := by
  intro linter t u
  have trimmed : t.pieces.map Text.trimEnd = u.pieces.map Text.trimEnd := by decide +kernel
  refine ⟨⟨trimmed, by decide +kernel, by decide +kernel⟩, ?_⟩
  exact linter.map_report_check_congr trimmed "t.tex".toList "u.tex".toList

end Linter

end NumeralLint
