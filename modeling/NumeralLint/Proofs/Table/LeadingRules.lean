/-
Rules between rows, written before a row on its line.

A row is the same with and without such commands before it: the blanks they
leave at the start of its first cell are trimmed with the cell, and the
commands hold no terminator, no delimiter and no cell over several columns, so
nothing else of the line changes (`readLine_leadingRules`).

That holds of the commands that `dropLeadingRules` knows.  `\cline` is not one
of them: partial rules are looked for under the name `\crule`, which is no
command.  So a row with a `\cline` before it keeps the command in its first
cell, and no number is ever found there.
-/
import NumeralLint.Proofs.Source.LineAtoms
import NumeralLint.Proofs.Table.Cells
import NumeralLint.Proofs.Table.WholeTable

namespace NumeralLint

/-! ## Blanks before a row -/

namespace CharSet

theorem contains_eq_false_of_apart {set other : CharSet}
    (apart : ∀ range ∈ set, ∀ range' ∈ other, range.2 < range'.1 ∨ range'.2 < range.1) {c : Char}
    (h : set.contains c = true) : other.contains c = false := by
  obtain ⟨range, hrange, hc⟩ := List.any_eq_true.mp h
  refine List.any_eq_false.mpr fun range' hrange' hc' => ?_
  simp only [Bool.and_eq_true, decide_eq_true_eq] at hc hc'
  rcases apart range hrange range' hrange' with h | h <;> omega

end CharSet

theorem not_isWordChar_of_isBlank {c : Char} (h : isBlank c = true) : isWordChar c = false :=
  CharSet.contains_eq_false_of_apart (by decide +kernel) h

theorem not_isBlank_backslash : isBlank '\\' = false := by decide

namespace Text

/-! ## Cells -/

/-- Which of the cells of a row hold numbers. -/
def numericCells (t : Text) : List Bool := (splitAtChar '&' (maskAmpersands t)).map isNumericCell

theorem maskAmpersands_cons {c : Char} (h : c ≠ '\\') (t : Text) :
    maskAmpersands (c :: t) = c :: maskAmpersands t :=
  maskAmpersands_cons_of_kept fun hescaped => h hescaped.1

theorem exists_cells_cons {c : Char} {t : Text} (hc : c ≠ '&')
    (hmask : maskAmpersands (c :: t) = c :: maskAmpersands t) :
    ∃ first rest, splitAtChar '&' (maskAmpersands t) = first :: rest ∧
      splitAtChar '&' (maskAmpersands (c :: t)) = (c :: first) :: rest := by
  obtain ⟨first, rest, hparts⟩ := List.exists_cons_of_ne_nil
    (splitAtChar_eq_splitOn '&' (maskAmpersands t) ▸ List.splitOn_ne_nil '&' _)
  refine ⟨first, rest, hparts, ?_⟩
  rw [hmask, splitAtChar, List.foldr_cons, ← splitAtChar, hparts]
  simp [hc]

theorem numericCells_trimStart (t : Text) : numericCells (trimStart t) = numericCells t := by
  induction t with
  | nil => rfl
  | cons c t ih =>
      cases hc : isBlank c with
      | false => rw [trimStart_cons hc]
      | true =>
          have hb : c ≠ '\\' := by rintro rfl; exact absurd hc (by decide)
          have ha : c ≠ '&' := by rintro rfl; exact absurd hc (by decide)
          obtain ⟨first, rest, hparts, hmore⟩ := exists_cells_cons ha (maskAmpersands_cons hb t)
          have trimmed : isNumericCell (c :: first) = isNumericCell first := by
            rw [isNumericCell, isNumericCell, trim, trim, trimStart_cons_of_isBlank hc]
          rw [trimStart_cons_of_isBlank hc, ih, numericCells, numericCells, hparts, hmore]
          simp [trimmed]

theorem isNumericCell_backslash (t : Text) : isNumericCell ('\\' :: t) = false := by
  have start : trim ('\\' :: t) <+: '\\' :: t := by
    rw [trim, trimStart_cons not_isBlank_backslash]
    exact prefix_dropTrailing isBlank _
  rw [isNumericCell]
  rcases List.prefix_cons_iff.mp start with hnil | ⟨u, hu, -⟩
  · rw [hnil]
    rfl
  · rw [hu]
    rfl

/-! ## Taking commands off -/

theorem dropLeadingRules_of_some {t rest : Text} (h : Recogniser.leadingRule t = some rest) :
    dropLeadingRules t = dropLeadingRules rest := by
  rw [dropLeadingRules]
  split
  · next hnone => exact absurd (hnone.symm.trans h) (by simp)
  · next hsome =>
      rw [h] at hsome
      rw [Option.some.inj hsome]

theorem dropLeadingRules_of_none {t : Text} (h : Recogniser.leadingRule t = none) :
    dropLeadingRules t = t := by
  rw [dropLeadingRules]
  split
  · rfl
  · next hsome => exact absurd (h.symm.trans hsome) (by simp)

theorem leadingRule_trimStart (t : Text) :
    Recogniser.leadingRule (trimStart t) = Recogniser.leadingRule t := by
  have same : Recogniser.many isBlank (trimStart t) = Recogniser.many isBlank t :=
    congrArg some (trimStart_trimStart t)
  rw [Recogniser.leadingRule, Recogniser.andThen, Recogniser.andThen, same]

/-- Blanks before the commands stay where there is no command, and go with them otherwise. -/
theorem trimStart_dropLeadingRules (t : Text) :
    trimStart (dropLeadingRules (trimStart t)) = trimStart (dropLeadingRules t) := by
  cases h : Recogniser.leadingRule t with
  | none =>
      have trimmed : Recogniser.leadingRule (trimStart t) = none := by
        rw [leadingRule_trimStart, h]
      rw [dropLeadingRules_of_none h, dropLeadingRules_of_none trimmed, trimStart_trimStart]
  | some rest =>
      have trimmed : Recogniser.leadingRule (trimStart t) = some rest := by
        rw [leadingRule_trimStart, h]
      rw [dropLeadingRules_of_some h, dropLeadingRules_of_some trimmed]

end Text

/-! ## Commands that draw rules -/

/-- What stands between the brackets of an argument. -/
structure Argument (close : Char) where
  text : Text
  closed : close ∉ text
  plain : '\\' ∉ text

/-- A command that draws a rule, with its arguments. -/
inductive RuleCommand where
  | hline
  | toprule
  | midrule
  | bottomrule
  | cline (columns : Argument '}')
  | cmidrule (trim : Option (Argument ')')) (columns : Argument '}')

namespace RuleCommand

/-- What stands after the backslash of a command. -/
def body : RuleCommand → Text
  | hline => "hline".toList
  | toprule => "toprule".toList
  | midrule => "midrule".toList
  | bottomrule => "bottomrule".toList
  | cline columns => "cline".toList ++ '{' :: columns.text ++ ['}']
  | cmidrule none columns => "cmidrule".toList ++ '{' :: columns.text ++ ['}']
  | cmidrule (some trim) columns =>
      "cmidrule".toList ++ '(' :: trim.text ++ ')' :: '{' :: columns.text ++ ['}']

def text (command : RuleCommand) : Text := '\\' :: command.body

/-- Whether the command is a `\cline`, which is not looked for. -/
def isCline : RuleCommand → Bool
  | cline _ => true
  | _ => false

theorem not_mem_body (command : RuleCommand) : '\\' ∉ command.body := by
  unfold body
  cases command with
  | hline | toprule | midrule | bottomrule => simp
  | cline columns => simp [columns.plain]
  | cmidrule trim columns =>
      cases trim with
      | none => simp [columns.plain]
      | some trim => simp [trim.plain, columns.plain]

end RuleCommand

namespace Recogniser

open RuleCommand

theorem bracketed_append {left right : Char} {s : Text} (h : right ∉ s) (t : Text) :
    bracketed left right (left :: s ++ right :: t) = some t := by
  have opens : literal [left] (left :: s ++ right :: t) = some (s ++ right :: t) :=
    literal_eq_some.mpr rfl
  have inside : many (· != right) (s ++ right :: t) = some (right :: t) := by
    have kept : ∀ c ∈ s, (c != right) = true := by
      intro c hc
      exact bne_iff_ne.mpr fun heq => h (heq ▸ hc)
    exact many_eq_some.mpr ⟨s, rfl, kept, by simp⟩
  have closes : literal [right] (right :: t) = some t := literal_eq_some.mpr rfl
  exact andThen_eq_some.mpr ⟨_, opens, andThen_eq_some.mpr ⟨_, inside, closes⟩⟩

theorem command_append {name t : Text} (h : t.head?.any isWordChar = false) :
    command name ('\\' :: name ++ t) = some t := by
  have reads : literal ('\\' :: name) ('\\' :: name ++ t) = some t := literal_eq_some.mpr rfl
  rw [command, reads]
  simp [Option.filter, h]

theorem many_isBlank_cons {c : Char} (hc : isBlank c = false) (t : Text) :
    many isBlank (c :: t) = some (c :: t) := congrArg some (Text.trimStart_cons hc t)

theorem cmidrule_append (t : Text) :
    (literal "\\crule".toList).orElse (literal "\\cmidrule".toList) ("\\cmidrule".toList ++ t) =
      some t := by
  have notCrule : literal "\\crule".toList ("\\cmidrule".toList ++ t) = none := rfl
  rw [orElse_of_none notCrule]
  exact literal_eq_some.mpr rfl

theorem partialRule_cmidrule (trim : Option (Argument ')')) (columns : Argument '}') (t : Text) :
    partialRule ((cmidrule trim columns).text ++ t) = some t := by
  have columnsRead : bracketed '{' '}' ('{' :: columns.text ++ '}' :: t) = some t :=
    bracketed_append columns.closed t
  have noBlank : many isBlank ('{' :: columns.text ++ '}' :: t) =
      some ('{' :: columns.text ++ '}' :: t) := many_isBlank_cons (by decide) _
  cases trim with
  | none =>
      have whole : (cmidrule none columns).text ++ t =
          "\\cmidrule".toList ++ ('{' :: columns.text ++ '}' :: t) := by
        show '\\' :: ("cmidrule".toList ++ '{' :: columns.text ++ ['}']) ++ t = _
        simp
      have noBracket : bracketed '(' ')' ('{' :: columns.text ++ '}' :: t) = none := rfl
      have noTrim : optional (bracketed '(' ')') ('{' :: columns.text ++ '}' :: t) =
          some ('{' :: columns.text ++ '}' :: t) := optional_of_none noBracket
      rw [whole]
      exact andThen_eq_some.mpr ⟨_, cmidrule_append _, andThen_eq_some.mpr ⟨_, noTrim,
        andThen_eq_some.mpr ⟨_, noBlank, columnsRead⟩⟩⟩
  | some trim =>
      have whole : (cmidrule (some trim) columns).text ++ t = "\\cmidrule".toList ++
          ('(' :: trim.text ++ ')' :: ('{' :: columns.text ++ '}' :: t)) := by
        show '\\' :: ("cmidrule".toList ++
          '(' :: trim.text ++ ')' :: '{' :: columns.text ++ ['}']) ++ t = _
        simp
      have trimRead : optional (bracketed '(' ')')
          ('(' :: trim.text ++ ')' :: ('{' :: columns.text ++ '}' :: t)) =
            some ('{' :: columns.text ++ '}' :: t) :=
        optional_of_some (bracketed_append trim.closed _)
      rw [whole]
      exact andThen_eq_some.mpr ⟨_, cmidrule_append _, andThen_eq_some.mpr ⟨_, trimRead,
        andThen_eq_some.mpr ⟨_, noBlank, columnsRead⟩⟩⟩

theorem rule_append {command : RuleCommand} (hcline : command.isCline = false) {t : Text}
    (ht : t.head?.any isWordChar = false) :
    fullRule.orElse partialRule (command.text ++ t) = some t := by
  cases command with
  | hline => exact orElse_of_some (orElse_of_some (command_append ht))
  | toprule =>
      refine orElse_of_some ((orElse_of_none rfl).trans ?_)
      exact orElse_of_some (command_append ht)
  | midrule =>
      refine orElse_of_some ((orElse_of_none rfl).trans ((orElse_of_none rfl).trans ?_))
      exact orElse_of_some (command_append ht)
  | bottomrule =>
      refine orElse_of_some ((orElse_of_none rfl).trans ((orElse_of_none rfl).trans ?_))
      exact (orElse_of_none rfl).trans (command_append ht)
  | cline columns => exact absurd hcline (by simp [isCline])
  | cmidrule trim columns =>
      have notFull : fullRule ((cmidrule trim columns).text ++ t) = none := by
        cases trim <;> rfl
      rw [orElse_of_none notFull]
      exact partialRule_cmidrule trim columns t

theorem leadingRule_cline (columns : Argument '}') (t : Text) :
    leadingRule ((cline columns).text ++ t) = none := rfl

end Recogniser

/-- A command that draws a rule, and the blanks after it. -/
structure LeadingRule where
  command : RuleCommand
  gap : Text
  gap_ne_nil : gap ≠ []
  blank : gap.all isBlank = true

namespace LeadingRule

open Text

def text (r : LeadingRule) : Text := r.command.text ++ r.gap

theorem isBlank_of_mem_gap (r : LeadingRule) : ∀ c ∈ r.gap, isBlank c = true :=
  List.all_eq_true.mp r.blank

/-- The text of several commands, one after the other. -/
def spell (rules : List LeadingRule) : Text := rules.flatMap text

theorem spell_cons_append (r : LeadingRule) (rules : List LeadingRule) (t : Text) :
    spell (r :: rules) ++ t = r.text ++ (spell rules ++ t) := by
  rw [spell, List.flatMap_cons, List.append_assoc]
  rfl

/-! ## What becomes of the commands -/

theorem leadingRule_text {r : LeadingRule} (h : r.command.isCline = false) (t : Text) :
    Recogniser.leadingRule (r.text ++ t) = some (trimStart t) := by
  have whole : r.text ++ t = r.command.text ++ (r.gap ++ t) := List.append_assoc _ _ _
  have wordEnds : (r.gap ++ t).head?.any isWordChar = false := by
    obtain ⟨c, gap, hgap⟩ := List.exists_cons_of_ne_nil r.gap_ne_nil
    have hc := not_isWordChar_of_isBlank (r.isBlank_of_mem_gap c (by simp [hgap]))
    simp [hgap, hc]
  rw [whole]
  refine Recogniser.andThen_eq_some.mpr
    ⟨_, Recogniser.many_isBlank_cons not_isBlank_backslash _, ?_⟩
  refine Recogniser.andThen_eq_some.mpr ⟨_, Recogniser.rule_append h wordEnds, ?_⟩
  exact congrArg some (trimStart_append r.isBlank_of_mem_gap t)

/-- Commands other than `\cline` are taken off, whatever follows them. -/
theorem trimStart_dropLeadingRules_spell {rules : List LeadingRule}
    (h : ∀ r ∈ rules, r.command.isCline = false) (t : Text) :
    trimStart (dropLeadingRules (spell rules ++ t)) = trimStart (dropLeadingRules t) := by
  induction rules with
  | nil => rfl
  | cons r rules ih =>
      obtain ⟨hr, hrules⟩ := List.forall_mem_cons.mp h
      rw [spell_cons_append, dropLeadingRules_of_some (leadingRule_text hr _),
        trimStart_dropLeadingRules, ih hrules]

/-- Nothing is taken off from the first `\cline` on. -/
theorem exists_dropLeadingRules_spell {rules : List LeadingRule}
    (h : ∃ r ∈ rules, r.command.isCline = true) (t : Text) :
    ∃ u, dropLeadingRules (spell rules ++ t) = '\\' :: 'c' :: u := by
  induction rules with
  | nil => simp at h
  | cons r rules ih =>
      rw [spell_cons_append]
      cases hr : r.command.isCline with
      | true =>
          obtain ⟨columns, hcline⟩ : ∃ columns, r.command = .cline columns := by
            cases hcommand : r.command with
            | cline columns => exact ⟨columns, rfl⟩
            | hline | toprule | midrule | bottomrule | cmidrule =>
                exact absurd hr (by simp [hcommand, RuleCommand.isCline])
          rw [text, List.append_assoc, hcline,
            dropLeadingRules_of_none (Recogniser.leadingRule_cline columns _)]
          exact ⟨_, rfl⟩
      | false =>
          obtain ⟨r', hmem, hcline⟩ := h
          have later : r' ∈ rules := by
            rcases List.mem_cons.mp hmem with rfl | hmem
            · exact absurd (hr.symm.trans hcline) (by simp)
            · exact hmem
          obtain ⟨first, rest, rfl⟩ := List.exists_cons_of_ne_nil (List.ne_nil_of_mem later)
          have kept : trimStart (spell (first :: rest) ++ t) = spell (first :: rest) ++ t := by
            rw [spell_cons_append]
            exact trimStart_cons not_isBlank_backslash _
          rw [dropLeadingRules_of_some (leadingRule_text hr _), kept]
          exact ih ⟨r', later, hcline⟩

/-! ## What the commands do not hold -/

theorem backslash_not_mem_gap (r : LeadingRule) : '\\' ∉ r.gap := by
  intro h
  have blank := r.isBlank_of_mem_gap _ h
  rw [not_isBlank_backslash] at blank
  exact absurd blank (by simp)

theorem backslash_not_mem_tail (r : LeadingRule) : '\\' ∉ r.command.body ++ r.gap := by
  intro h
  rcases List.mem_append.mp h with h | h
  · exact r.command.not_mem_body h
  · exact r.backslash_not_mem_gap h

/-- The commands hold no row terminator, and escape nothing of what follows them. -/
theorem exists_atoms_spell (rules : List LeadingRule) :
    ∃ as, .rowTerminator ∉ as ∧ ∀ t, atoms (spell rules ++ t) = as ++ atoms t := by
  induction rules with
  | nil => exact ⟨[], by simp, fun t => rfl⟩
  | cons r rules ih =>
      obtain ⟨as, hfree, hatoms⟩ := ih
      refine ⟨atoms r.text ++ as, ?_, fun t => ?_⟩
      · intro hmem
        rcases List.mem_append.mp hmem with hmem | hmem
        · exact rowTerminator_not_mem r.backslash_not_mem_tail hmem
        · exact hfree hmem
      · obtain ⟨gap, d, hgap⟩ := (List.eq_nil_or_concat r.gap).resolve_left r.gap_ne_nil
        have hd : d ≠ '\\' := by
          rintro rfl
          exact r.backslash_not_mem_gap (by simp [hgap])
        have whole : r.text = r.command.text ++ gap ++ [d] := by simp [text, hgap]
        rw [spell_cons_append, List.append_assoc, ← hatoms, whole, List.append_assoc _ [d]]
        exact atoms_append_cons hd _ _

theorem terminators_spell_append (rules : List LeadingRule) (t : Text) :
    (spell rules ++ t).terminators = t.terminators := by
  obtain ⟨as, hfree, hatoms⟩ := exists_atoms_spell rules
  rw [terminators, hatoms, List.count_append, List.count_eq_zero.mpr hfree, Nat.zero_add]
  rfl

theorem rowContent_spell_append (rules : List LeadingRule) (t : Text) :
    (spell rules ++ t).rowContent = spell rules ++ t.rowContent := by
  obtain ⟨as, hfree, hatoms⟩ := exists_atoms_spell rules
  have whole : Text.spell as = spell rules := by
    have := hatoms []
    rw [List.append_nil, atoms_nil, List.append_nil] at this
    rw [← this, spell_atoms]
  rw [rowContent, rowContent, beforeAtom_eq_spell, beforeAtom_eq_spell, hatoms,
    List.takeWhile_append_of_pos (bne_of_not_mem hfree), Text.spell_append, whole]

/-! ## What is not found in the commands -/

/-- The recogniser reads nothing that starts with another character than a backslash, and no
command that draws a rule. -/
def PassesOver (r : Recogniser) : Prop :=
  (∀ c t, c ≠ '\\' → r (c :: t) = none) ∧ ∀ (command : RuleCommand) t, r (command.text ++ t) = none

theorem occurs_spell_append {r : Recogniser} (hr : PassesOver r) (rules : List LeadingRule)
    (t : Text) : occurs r (spell rules ++ t) = occurs r t := by
  induction rules with
  | nil => rfl
  | cons rule rules ih =>
      have here : r ('\\' :: (rule.command.body ++ rule.gap ++ (spell rules ++ t))) = none := by
        have none := hr.2 rule.command (rule.gap ++ (spell rules ++ t))
        rw [← List.append_assoc] at none
        exact none
      have whole : rule.text ++ (spell rules ++ t) =
          '\\' :: (rule.command.body ++ rule.gap ++ (spell rules ++ t)) := rfl
      have skipped := cut_append_of_not_mem hr.1 rule.backslash_not_mem_tail (spell rules ++ t)
      rw [spell_cons_append, whole, occurs_cons here, occurs, skipped, Option.isSome_map]
      exact ih

theorem passesOver_multicolumn : PassesOver (.literal "\\multicolumn".toList) := by
  refine ⟨fun c t hc => ?_, fun command t => ?_⟩
  · simp [Recogniser.literal, Ne.symm hc]
  · cases command with
    | hline | toprule | midrule | bottomrule | cline => rfl
    | cmidrule trim columns => cases trim <;> rfl

theorem passesOver_tableBegin : PassesOver .tableBegin := by
  refine ⟨fun c t hc => ?_, fun command t => ?_⟩
  · exact Recogniser.delimiter_of_ne _ _ c t hc
  · cases command with
    | hline | toprule | midrule | bottomrule | cline => rfl
    | cmidrule trim columns => cases trim <;> rfl

theorem passesOver_tableEnd : PassesOver .tableEnd := by
  refine ⟨fun c t hc => ?_, fun command t => ?_⟩
  · exact Recogniser.delimiter_of_ne _ _ c t hc
  · cases command with
    | hline | toprule | midrule | bottomrule | cline => rfl
    | cmidrule trim columns => cases trim <;> rfl

end LeadingRule

/-! ## Rows after commands -/

theorem TableTally.addRow_congr {cells cells' : List Text}
    (h : cells.map Text.isNumericCell = cells'.map Text.isNumericCell) (tally : TableTally) :
    tally.addRow cells = tally.addRow cells' := by
  have counted : ∀ (cells : List Text) (i : Nat), cells[i]?.any Text.isNumericCell =
      (cells.map Text.isNumericCell)[i]?.any id := by
    intro cells i
    rw [List.getElem?_map, Option.any_map]
    rfl
  simp only [addRow, counted, h]

theorem TableTally.head?_addRow {first : Text} (h : first.isNumericCell = false)
    (rest : List Text) (tally : TableTally) :
    (tally.addRow (first :: rest)).numbers.head? = tally.numbers.head? := by
  cases hnumbers : tally.numbers with
  | nil => simp [addRow, hnumbers]
  | cons count counts => simp [addRow, hnumbers, h]

namespace Alignment

open Text LeadingRule

variable {rules : List LeadingRule} {place : Nat → Nat → Range}

theorem isSpanning_spell_append (rules : List LeadingRule) (t : Text) :
    (spell rules ++ t).isSpanning = t.isSpanning := by
  rw [isSpanning, isSpanning, rowContent_spell_append,
    occurs_spell_append passesOver_multicolumn]

/-- The cells of a row hold the same numbers with commands before it. -/
theorem map_cells_spell_append (h : ∀ r ∈ rules, r.command.isCline = false) (t : Text) :
    (spell rules ++ t).rowContent.cells.map isNumericCell =
      t.rowContent.cells.map isNumericCell := by
  have trimmed := trimStart_dropLeadingRules_spell h t.rowContent
  rw [rowContent_spell_append]
  show numericCells (dropLeadingRules (spell rules ++ t.rowContent)) =
    numericCells (dropLeadingRules t.rowContent)
  rw [← numericCells_trimStart, trimmed, numericCells_trimStart]

theorem length_cells_spell_append (h : ∀ r ∈ rules, r.command.isCline = false) (t : Text) :
    (spell rules ++ t).rowContent.cells.length = t.rowContent.cells.length := by
  simpa using congrArg List.length (map_cells_spell_append h t)

theorem isTableRow_spell_append (h : ∀ r ∈ rules, r.command.isCline = false) (columns : Nat)
    (t : Text) : isTableRow columns (spell rules ++ t) = isTableRow columns t := by
  rw [isTableRow, isTableRow, terminators_spell_append, isSpanning_spell_append,
    length_cells_spell_append h]

/-- Commands before a row move what is found in it, and change nothing else of it. -/
theorem message_spell_append (h : ∀ r ∈ rules, r.command.isCline = false) (columns : Nat)
    (t : Text) :
    (bodyFinding? place columns (spell rules ++ t)).map Finding.message =
      (bodyFinding? place columns t).map Finding.message := by
  rw [bodyFinding?, bodyFinding?, terminators_spell_append, isSpanning_spell_append,
    length_cells_spell_append h]
  split
  · rfl
  · split <;> rfl

theorem exists_cells_of_cline (h : ∃ r ∈ rules, r.command.isCline = true) (t : Text) :
    ∃ first rest, (spell rules ++ t).rowContent.cells = first :: rest ∧
      first.isNumericCell = false := by
  obtain ⟨u, hkept⟩ := exists_dropLeadingRules_spell h t.rowContent
  have mask : maskAmpersands ('\\' :: 'c' :: u) = '\\' :: maskAmpersands ('c' :: u) := by
    simp [maskAmpersands]
  obtain ⟨first, rest, -, hcells⟩ := exists_cells_cons (by decide) mask
  refine ⟨'\\' :: first, rest, ?_, isNumericCell_backslash first⟩
  rw [rowContent_spell_append, cells, hkept, hcells]

/-- A row terminator ends no delimiter of a table. -/
theorem occurs_terminated {t : Text} (hbegin : t.occurs .tableBegin = false)
    (hend : t.occurs .tableEnd = false) :
    (t ++ ['\\', '\\']).occurs .tableBegin = false ∧
      (t ++ ['\\', '\\']).occurs .tableEnd = false := by
  rw [occurs_eq_false] at hbegin hend
  have extended : ∀ d t u, Recogniser.tableEnd (d :: t ++ '\\' :: u) =
      (Recogniser.tableEnd (d :: t)).map (· ++ '\\' :: u) :=
    Recogniser.delimiter_append (by decide) (Recogniser.stopsAt_literal (by decide))
  constructor
  · rw [occurs_eq_false, cut_append (fun d t => Recogniser.tableBegin_append d t _) hbegin]
    rfl
  · rw [occurs_eq_false, cut_append (fun d t => extended d t _) hend]
    rfl

theorem readLine_row (rule : Alignment) (place : Nat → Nat → Range) {tally : TableTally}
    (hopen : tally.isOpen = true) (rules : List LeadingRule) {content : Text}
    (hbegin : content.occurs .tableBegin = false) (hend : content.occurs .tableEnd = false) :
    rule.readLine place tally (spell rules ++ content ++ ['\\', '\\']) =
      readRow place 0 (spell rules ++ (content ++ ['\\', '\\'])) tally := by
  obtain ⟨noBegin, noEnd⟩ := occurs_terminated hbegin hend
  rw [List.append_assoc]
  refine rule.readLine_body place hopen ?_ ?_
  · exact (occurs_spell_append passesOver_tableBegin rules _).trans noBegin
  · exact (occurs_spell_append passesOver_tableEnd rules _).trans noEnd

/-- Commands that draw rules do not matter before a row, each of them followed by blanks, as long
as none of them is a `\cline`: reading the line with them and without them leaves the same tally
and reports the same.  With a `\cline` among them the row never counts for the first column,
whatever it holds. -/
theorem readLine_leadingRules (rule : Alignment) (place : Nat → Nat → Range) {tally : TableTally}
    (hopen : tally.isOpen = true) (rules : List LeadingRule) {content : Text}
    (hbegin : content.occurs .tableBegin = false) (hend : content.occurs .tableEnd = false) :
    let bare := rule.readLine place tally (content ++ ['\\', '\\'])
    let ruled := rule.readLine place tally (spell rules ++ content ++ ['\\', '\\'])
    ((∀ r ∈ rules, r.command.isCline = false) → ruled.1 = bare.1 ∧
      (ruled.2.filterMap Event.finding?).map Finding.message =
        (bare.2.filterMap Event.finding?).map Finding.message) ∧
    ((∃ r ∈ rules, r.command.isCline = true) →
      ruled.1.numbers.head? = tally.numbers.head?) := by
  intro bare ruled
  have hbare : bare = readRow place 0 (content ++ ['\\', '\\']) tally :=
    rule.readLine_row place hopen [] hbegin hend
  have hruled : ruled = readRow place 0 (spell rules ++ (content ++ ['\\', '\\'])) tally :=
    rule.readLine_row place hopen rules hbegin hend
  rw [hbare, hruled]
  generalize content ++ ['\\', '\\'] = row
  obtain ⟨bareTally, bareFound⟩ := readRow_line place row tally
  obtain ⟨ruledTally, ruledFound⟩ := readRow_line place (spell rules ++ row) tally
  constructor
  · intro h
    refine ⟨?_, ?_⟩
    · rw [ruledTally, bareTally, isTableRow_spell_append h,
        tally.addRow_congr (map_cells_spell_append h row)]
    · rw [ruledFound, bareFound, ← Option.toList_map, ← Option.toList_map,
        message_spell_append h]
  · intro h
    obtain ⟨first, rest, hcells, hnumber⟩ := exists_cells_of_cline h row
    rw [ruledTally, hcells]
    split
    · exact tally.head?_addRow hnumber rest
    · rfl

/-- The table of one column, with an `\hline` and a trimmed `\cmidrule` before a row, and with a
`\cline`. -/
theorem readLine_leadingRules_column :
    let rule : Alignment := ⟨usualThreshold, usualAlignedTypes⟩
    let place := fun _ _ : Nat => Range.origin
    let tally := (rule.readLine place .idle "\\begin\x7btabular\x7d\x7bc\x7d".toList).1
    let columns : Argument '}' := ⟨['1', '-', '1'], by decide, by decide⟩
    let trim : Argument ')' := ⟨['l', 'r'], by decide, by decide⟩
    let rules : List LeadingRule := [⟨.hline, [' '], by decide, by decide⟩,
      ⟨.cmidrule (some trim) columns, ['\t', ' '], by decide, by decide⟩]
    let clines : List LeadingRule := [⟨.cline columns, [' '], by decide, by decide⟩]
    let row := "1 \\\\".toList
    tally.isOpen = true ∧
      (rule.readLine place tally (spell rules ++ row)).1 = (rule.readLine place tally row).1 ∧
      (rule.readLine place tally row).1.numbers = [1] ∧
      (rule.readLine place tally (spell clines ++ row)).1.numbers.head? = some 0 := by
  intro rule place tally columns trim rules clines row
  have hopen : tally.isOpen = true := by decide +kernel
  have noBegin : Text.occurs .tableBegin ['1', ' '] = false := by decide
  have noEnd : Text.occurs .tableEnd ['1', ' '] = false := by decide
  obtain ⟨same, -⟩ := readLine_leadingRules rule place hopen rules noBegin noEnd
  obtain ⟨-, kept⟩ := readLine_leadingRules rule place hopen clines noBegin noEnd
  have zero : tally.numbers.head? = some 0 := by decide +kernel
  exact ⟨hopen, (same (by decide)).1, by decide +kernel, (kept (by decide)).trans zero⟩

/-- A number after a `\cline` is not counted: the command is not taken off. -/
theorem readLine_cline_number :
    let rule : Alignment := ⟨usualThreshold, usualAlignedTypes⟩
    let place := fun _ _ : Nat => Range.origin
    let tally := (rule.readLine place .idle "\\begin\x7btabular\x7d\x7bc\x7d".toList).1
    let cline : LeadingRule :=
      ⟨.cline ⟨['1', '-', '1'], by decide, by decide⟩, [' '], by decide, by decide⟩
    let row := "1 \\\\".toList
    tally.isOpen = true ∧ spell [cline] = "\\cline\x7b1-1\x7d ".toList ∧
      (rule.readLine place tally row).1.numbers = [1] ∧
      (rule.readLine place tally (spell [cline] ++ row)).1.numbers = [0] := by
  intro rule place tally cline row
  exact ⟨by decide +kernel, by decide +kernel, by decide +kernel, by decide +kernel⟩

end Alignment

end NumeralLint
