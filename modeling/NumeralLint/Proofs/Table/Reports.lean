/-
What the rule on tables reports.

A table is reported when it is left, at the place where its column
specification was found, which is as a rule another line.  So it is kept as
an invariant that the range waiting in the tally of an open table is one at
which the table may be reported (`TableTally.Waiting`).  `Reading.Sound` says
this and that all findings so far are right; one line keeps it
(`sound_readLine`), and so do all the lines of a text (`sound_readLines`).
-/
import NumeralLint.Proofs.Source.Pointing
import NumeralLint.Proofs.Table.Delimiters
import NumeralLint.Proofs.Table.Reading

namespace NumeralLint

namespace Alignment

/-- `Says message before marked after`: what a message of the rule says of the text `marked`, which
stands after `before` and before `after` in its line. -/
inductive Says : Text → Text → Text → Text → Prop
  | severalRows {before after : Text} : Says severalRowsMessage before ['\\', '\\'] after
  /-- The content of a row, up to its terminator. -/
  | cellCount {before marked after : Text} : marked.terminators = 0 →
      Says cellCountMessage before marked ('\\' :: '\\' :: after)
  /-- A whole column specification, after the brace that opens it. -/
  | align {before marked after : Text} : (ColumnSpec.read marked).size = marked.width →
      Says alignMessage (before ++ ['{']) marked after

/-- What a message says does not hang on what follows later in the line. -/
theorem Says.append {message before marked after : Text} (h : Says message before marked after)
    (more : Text) : Says message before marked (after ++ more) := by
  cases h with
  | severalRows => exact .severalRows
  | cellCount hrow => exact .cellCount hrow
  | align hspec => exact .align hspec

/-- The finding marks a text in one of the lines of which its message is right. -/
def IsRight (place : Nat → Nat → Nat → Range) (lines : List Text) (finding : Finding) : Prop :=
  ∃ before marked after, MarkedIn place lines finding.range before marked after ∧
    Says finding.message before marked after

/-- If a table is open, it may be reported at the range that waits in the tally. -/
def Waiting (place : Nat → Nat → Nat → Range) (lines : List Text) (tally : TableTally) : Prop :=
  tally.isOpen = true → IsRight place lines ⟨tally.anchor, alignMessage⟩

/-- All findings of the reading are right, and the range that waits is one to report at. -/
structure Reading.Sound (place : Nat → Nat → Nat → Range) (lines : List Text)
    (reading : Reading) : Prop where
  found : ∀ event ∈ reading.2, ∀ finding, event.finding? = some finding →
    IsRight place lines finding
  waiting : Waiting place lines reading.1

/-! ## A line -/

section Line

variable {place : Nat → Nat → Nat → Range} {lines : List Text}

theorem waiting_idle : Waiting place lines .idle := fun h => absurd h Bool.false_ne_true

theorem Reading.Sound.quiet {tally : TableTally} {events : List Event}
    (hquiet : ∀ event ∈ events, event.finding? = none) (hwaiting : Waiting place lines tally) :
    Reading.Sound place lines (tally, events) := by
  refine ⟨?_, hwaiting⟩
  intro event hevent finding hfinding
  rw [hquiet event hevent] at hfinding
  exact absurd hfinding (by simp)

theorem Reading.Sound.andThen {reading : Reading} {next : TableTally → Reading}
    (h : reading.Sound place lines)
    (hnext : Waiting place lines reading.1 → (next reading.1).Sound place lines) :
    (reading.andThen next).Sound place lines := by
  obtain ⟨later, waiting⟩ := hnext h.waiting
  refine ⟨?_, waiting⟩
  intro event hevent
  rcases List.mem_append.mp hevent with hevent | hevent
  · exact h.found event hevent
  · exact later event hevent

theorem sound_readRow {n : Nat} {line front segment back : Text} {tally : TableTally}
    (hline : lines[n]? = some line) (hparts : line = front ++ segment ++ back)
    (hwaiting : Waiting place lines tally) :
    (readRow (place n) front.width segment tally).Sound place lines := by
  have reading := rowReading_readRow (place n) front.width segment tally
  generalize readRow (place n) front.width segment tally = outcome at reading
  cases reading with
  | none count => exact .quiet (by simp) hwaiting
  | several count =>
      have hsome : segment.terminators ≠ 0 := by omega
      obtain ⟨rest, whole, -⟩ := Text.eq_rowContent_append hsome
      refine ⟨?_, hwaiting⟩
      intro event hevent finding hfinding
      obtain rfl := List.mem_singleton.mp hevent
      obtain rfl := Option.some.inj hfinding
      refine ⟨front ++ segment.rowContent, ['\\', '\\'], rest ++ back, ⟨n, ?_, ?_⟩, .severalRows⟩
      · rw [hline, hparts]
        conv => lhs; rw [whole]
        simp
      · have two : Text.width ['\\', '\\'] = 2 := rfl
        rw [Text.width_append (front ++ _), Text.width_append, two]
  | spanning count spans => exact .quiet (by simp [Event.finding?]) hwaiting
  | counted count spans cells => exact .quiet (by simp) hwaiting
  | wrong count spans cells =>
      have hsome : segment.terminators ≠ 0 := by omega
      obtain ⟨rest, whole, content⟩ := Text.eq_rowContent_append hsome
      refine ⟨?_, hwaiting⟩
      intro event hevent finding hfinding
      obtain rfl := List.mem_singleton.mp hevent
      obtain rfl := Option.some.inj hfinding
      refine ⟨front, segment.rowContent, '\\' :: '\\' :: (rest ++ back), ⟨n, ?_, ?_⟩,
        .cellCount content⟩
      · rw [hline, hparts]
        conv => lhs; rw [whole]
        simp
      · rw [Text.width_append]

theorem sound_leaveTable (rule : Alignment) {tally : TableTally}
    (h : IsRight place lines ⟨tally.anchor, alignMessage⟩) :
    (rule.leaveTable tally).Sound place lines := by
  refine ⟨?_, waiting_idle⟩
  intro event hevent finding hfinding
  obtain rfl := List.mem_singleton.mp hevent
  rw [Event.finding?] at hfinding
  split at hfinding
  · exact Option.some.inj hfinding ▸ h
  · exact absurd hfinding (by simp)

variable (rule : Alignment)

theorem sound_readRow_leaveTable {n : Nat} {line front segment back : Text} {tally : TableTally}
    (hline : lines[n]? = some line) (hparts : line = front ++ segment ++ back)
    (hopen : tally.isOpen = true) (hwaiting : Waiting place lines tally) :
    ((readRow (place n) front.width segment tally).andThen rule.leaveTable).Sound place lines := by
  refine (sound_readRow hline hparts hwaiting).andThen ?_
  intro later
  exact sound_leaveTable rule (later (by rw [isOpen_readRow, hopen]))

theorem sound_readInside {n : Nat} {line front t : Text} {tally : TableTally}
    (hline : lines[n]? = some line) (hfront : line = front ++ t) (hopen : tally.isOpen = true)
    (hwaiting : Waiting place lines tally) :
    (rule.readInside (place n) front.width t tally).Sound place lines := by
  rw [readInside]
  split
  · have parts : line = front ++ t ++ [] := by rw [hfront, List.append_nil]
    exact sound_readRow hline parts hwaiting
  · next row after hcut =>
      obtain ⟨piece, rfl, -⟩ := Text.cut_reads Recogniser.reads_tableEnd hcut
      have parts : line = front ++ row ++ (piece ++ after) := by
        rw [hfront]
        simp only [List.append_assoc]
      exact rule.sound_readRow_leaveTable hline parts hopen hwaiting

/-- The beginning of a table and what follows it: the range of the specification begins to wait. -/
theorem sound_enterTable {n : Nat} {line front t : Text} {tally : TableTally}
    (hline : lines[n]? = some line) (hfront : line = front ++ t)
    (hwaiting : Waiting place lines tally) :
    (rule.enterTable (place n) line t tally).Sound place lines := by
  rw [enterTable]
  split
  · exact .quiet (by simp [Event.finding?]) hwaiting
  · next inner hinner =>
      obtain ⟨middle, rfl⟩ := Recogniser.exists_specOpening hinner
      have whole := ColumnSpec.source_append_rest inner
      have again := ColumnSpec.read_source inner
      generalize ColumnSpec.read inner = spec at whole again
      have upTo : line = front ++ middle ++ ['{'] ++ inner := by
        rw [hfront]
        simp
      have inside : line = front ++ middle ++ ['{'] ++ spec.source ++ spec.rest.take 1 ++
          spec.rest.drop 1 := by
        rw [List.append_assoc _ (List.take 1 _), List.take_append_drop,
          List.append_assoc _ spec.source, whole]
        exact upTo
      have start : line.columnOf inner = (front ++ middle ++ ['{']).width := by
        rw [upTo]
        exact Text.columnOf_append _ _
      have column : line.columnOf (spec.rest.drop 1) =
          (front ++ middle ++ ['{'] ++ spec.source ++ spec.rest.take 1).width := by
        rw [inside]
        exact Text.columnOf_append _ _
      have anchor : IsRight place lines ⟨place n (line.columnOf inner)
          (line.columnOf inner + spec.size), alignMessage⟩ := by
        refine ⟨front ++ middle ++ ['{'], spec.source, spec.rest, ⟨n, ?_, ?_⟩, .align ?_⟩
        · rw [hline, upTo, List.append_assoc _ spec.source, whole]
        · rw [start, Text.width_append _ spec.source]
          rfl
        · rw [again]
          rfl
      refine Reading.Sound.andThen ?_ ?_
      · exact .quiet (by simp [Event.finding?]) fun _ => anchor
      · intro waiting
        rw [column]
        exact rule.sound_readInside hline inside rfl waiting

theorem sound_readOutside {n : Nat} {line front t : Text} {tally : TableTally}
    (hline : lines[n]? = some line) (hfront : line = front ++ t)
    (hwaiting : Waiting place lines tally) :
    (rule.readOutside (place n) line t tally).Sound place lines := by
  rw [readOutside]
  split
  · exact .quiet (by simp) hwaiting
  · next before after hcut =>
      obtain ⟨piece, rfl, -⟩ := Text.cut_reads Recogniser.reads_tableBegin hcut
      have parts : line = front ++ before ++ piece ++ after := by
        rw [hfront]
        simp only [List.append_assoc]
      exact rule.sound_enterTable hline parts hwaiting

/-- One line keeps the findings right and the waiting range one to report at. -/
theorem sound_readLine {n : Nat} {line : Text} {tally : TableTally}
    (hline : lines[n]? = some line) (hwaiting : Waiting place lines tally) :
    (rule.readLine (place n) tally line).Sound place lines := by
  rw [readLine]
  split
  · next hopen =>
      split
      · next row rest hclosing =>
          obtain ⟨hcut, -⟩ := Option.filter_eq_some_iff.mp hclosing
          obtain ⟨piece, whole, -⟩ := Text.cut_reads Recogniser.reads_tableEnd hcut
          have parts : line = [] ++ row ++ (piece ++ rest) := by
            rw [whole]
            simp
          have closed := rule.sound_readRow_leaveTable hline parts hopen hwaiting
          exact closed.andThen (rule.sound_readOutside hline whole)
      · split
        · have parts : line = [] ++ line ++ [] := by simp
          exact sound_readRow hline parts hwaiting
        · next before after hcut =>
            obtain ⟨piece, whole, -⟩ := Text.cut_reads Recogniser.reads_tableBegin hcut
            have givenUp : Reading.Sound place lines (.idle, [.nested]) :=
              .quiet (by simp [Event.finding?]) waiting_idle
            exact givenUp.andThen (rule.sound_enterTable hline whole)
  · have parts : line = [] ++ line := rfl
    exact rule.sound_readOutside hline parts hwaiting

/-! ## A text -/

theorem sound_readLines {first : Nat} {tally : TableTally} {rest : List Text}
    (hrest : ∀ i line, rest[i]? = some line → lines[first + i]? = some line)
    (hwaiting : Waiting place lines tally) :
    ∀ events ∈ (rule.readLines place first tally rest).2, ∀ event ∈ events,
      ∀ finding, event.finding? = some finding → IsRight place lines finding := by
  induction rest generalizing first tally with
  | nil => simp [readLines]
  | cons line rest ih =>
      have step := rule.sound_readLine (hrest 0 line rfl) hwaiting
      intro events hevents
      rcases List.mem_cons.mp hevents with rfl | hevents
      · exact step.found
      · refine ih ?_ step.waiting events hevents
        intro i l hl
        rw [Nat.add_assoc, Nat.add_comm 1]
        exact hrest (i + 1) l hl

end Line

/-- Every finding of the rule marks a text of which its message is right. -/
theorem isRight_of_mem_findings {rule : Alignment} {place : Nat → Nat → Nat → Range}
    {lines : List Text} {finding : Finding} (h : finding ∈ rule.findings place lines) :
    IsRight place (lines.map Text.trimEnd) finding := by
  obtain ⟨event, hevent, hfinding⟩ := List.mem_filterMap.mp h
  obtain ⟨events, hevents, hevent⟩ := List.mem_flatten.mp hevent
  refine rule.sound_readLines ?_ waiting_idle events hevents event hevent finding hfinding
  intro i line hline
  rwa [Nat.zero_add]

end Alignment

end NumeralLint
