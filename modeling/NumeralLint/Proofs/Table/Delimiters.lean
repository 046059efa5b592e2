/-
Where tables begin and end in a line.

Both delimiters start with a backslash, have no other, and end with their
brace.  So neither can start inside the other, and one that is read in a text
is read alike in a longer text.
-/
import NumeralLint.Proofs.Text.Search
import NumeralLint.Table.Alignment

namespace NumeralLint

namespace Recogniser

theorem reads_delimiter {command : Text} {name : Recogniser} (h : Reads name) :
    Reads (delimiter command name) :=
  reads_andThen
    (reads_andThen (reads_literal _)
      (reads_andThen (reads_many _) (reads_andThen (reads_literal _) (reads_many _))))
    (reads_andThen h (reads_andThen (reads_many _) (reads_literal _)))

theorem reads_tableBegin : Reads tableBegin := reads_delimiter (reads_literal _)

theorem reads_tableEnd : Reads tableEnd := reads_delimiter (reads_literal _)

theorem tableBegin_append (d : Char) (t u : Text) :
    tableBegin (d :: t ++ '\\' :: u) = (tableBegin (d :: t)).map (· ++ '\\' :: u) :=
  delimiter_append (by decide) (stopsAt_literal (by decide)) d t u

theorem endsAt_tableBegin : EndsAt '}' tableBegin :=
  endsAt_delimiter (by decide) (stopsAt_literal (by decide))

theorem endsAt_tableEnd : EndsAt '}' tableEnd :=
  endsAt_delimiter (by decide) (stopsAt_literal (by decide))

theorem brace_mem_of_delimiter {command : Text} {name : Recogniser} (hname : Reads name)
    {t rest : Text} (h : delimiter command name t = some rest) : '}' ∈ t := by
  obtain ⟨u, hu, hafter⟩ := andThen_eq_some.mp h
  obtain ⟨v, hv, hend⟩ := andThen_eq_some.mp hafter
  obtain ⟨w, hw, hbrace⟩ := andThen_eq_some.mp hend
  have start : Reads (delimiterStart command) :=
    reads_andThen (reads_literal _)
      (reads_andThen (reads_many _) (reads_andThen (reads_literal _) (reads_many _)))
  have suffix : w <:+ t := ((reads_many _ hw).trans (hname hv)).trans (start hu)
  rw [literal_eq_some.mp hbrace] at suffix
  exact suffix.subset List.mem_cons_self

/-- The end of a table has one backslash, and is not the beginning of a table. -/
theorem exists_of_tableEnd {t rest : Text} (h : tableEnd t = some rest) :
    ∃ w, t = '\\' :: (w ++ rest) ∧ '\\' ∉ w ∧ tableBegin t = none := by
  cases t with
  | nil =>
      have nothing : tableEnd [] = none := rfl
      exact absurd (nothing.symm.trans h) (by simp)
  | cons d t =>
      rw [tableEnd, delimiter_cons] at h
      split at h
      · next hd =>
          obtain ⟨w, rfl⟩ := reads_delimiterTail (reads_literal _) h
          refine ⟨w, by rw [hd], ?_, ?_⟩
          · exact (stopsAt_delimiterTail (by decide) (stopsAt_literal (by decide))).not_mem h
          · obtain ⟨u, hu, -⟩ := andThen_eq_some.mp h
            rw [hd, literal_eq_some.mp hu]
            rfl
      · exact absurd h (by simp)

end Recogniser

namespace Text

theorem cut_tableBegin_append {t before after : Text}
    (h : t.cut .tableBegin = some (before, after)) (u : Text) :
    (t ++ u).cut .tableBegin = some (before, after ++ u) :=
  cut_append_of_some Recogniser.endsAt_tableBegin
    (fun _ _ => Recogniser.brace_mem_of_delimiter (Recogniser.reads_literal _)) h u

theorem cut_tableEnd_append {t before after : Text}
    (h : t.cut .tableEnd = some (before, after)) (u : Text) :
    (t ++ u).cut .tableEnd = some (before, after ++ u) :=
  cut_append_of_some Recogniser.endsAt_tableEnd
    (fun _ _ => Recogniser.brace_mem_of_delimiter (Recogniser.reads_literal _)) h u

/-- No table begins in the end of one, nor before it so that its beginning goes on in the end: the
first table that begins in the line begins in what follows that end. -/
theorem cut_tableBegin_of_cut_tableEnd {line row rest : Text}
    (hcut : line.cut .tableEnd = some (row, rest)) (hrow : row.occurs .tableBegin = false) :
    ∃ w, line = row ++ '\\' :: (w ++ rest) ∧ line.cut .tableBegin =
      (rest.cut .tableBegin).map fun found => (row ++ '\\' :: (w ++ found.1), found.2) := by
  obtain ⟨m, rfl, hend, -⟩ := cut_eq_some_iff.mp hcut
  obtain ⟨w, rfl, hw, notHere⟩ := Recogniser.exists_of_tableEnd hend
  have afterRow := cut_append (u := w ++ rest)
    (fun d t => Recogniser.tableBegin_append d t _) (occurs_eq_false.mp hrow)
  have afterEnd : cut .tableBegin (w ++ rest) =
      (cut .tableBegin rest).map fun found => (w ++ found.1, found.2) :=
    Recogniser.cut_delimiter_of_not_mem _ _ hw rest
  refine ⟨w, rfl, ?_⟩
  rw [afterRow, cut, notHere]
  simp [afterEnd, Function.comp_def]

theorem occurs_tableBegin_of_cut {line row rest : Text}
    (hcut : line.cut .tableEnd = some (row, rest)) (hrow : row.occurs .tableBegin = false) :
    line.occurs .tableBegin = rest.occurs .tableBegin := by
  obtain ⟨w, -, hbegin⟩ := cut_tableBegin_of_cut_tableEnd hcut hrow
  rw [occurs, hbegin, Option.isSome_map, occurs]

theorem suffix_of_cut_tableEnd {line row rest : Text}
    (hcut : line.cut .tableEnd = some (row, rest)) : rest <:+ line := by
  obtain ⟨piece, hline, -⟩ := cut_reads Recogniser.reads_tableEnd hcut
  exact ⟨row ++ piece, hline.symm⟩

/-- A table that begins before the end of one begins in the line, and before that end. -/
theorem exists_cut_tableBegin_of_row {line row rest : Text}
    (hcut : line.cut .tableEnd = some (row, rest)) (hrow : row.occurs .tableBegin = true) :
    ∃ before after, line.cut .tableBegin = some (before, after) ∧ before <+: row := by
  obtain ⟨piece, hline, -⟩ := cut_reads Recogniser.reads_tableEnd hcut
  obtain ⟨found, hfound⟩ := Option.isSome_iff_exists.mp hrow
  obtain ⟨other, hother, -⟩ := cut_reads Recogniser.reads_tableBegin hfound
  refine ⟨found.1, found.2 ++ (piece ++ rest), ?_, ⟨other ++ found.2, ?_⟩⟩
  · rw [hline, List.append_assoc]
    exact cut_tableBegin_append hfound _
  · rw [← List.append_assoc, ← hother]

end Text

end NumeralLint
