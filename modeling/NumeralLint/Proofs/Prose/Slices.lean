/-
The rule on small integers, read by places.

As for tables (`Alignment.readLine?`), the functions here take every sentence
and every numeral as a slice between the places that were found for it, and
never fail: sentences are looked for from the end of the one before, so the
cursor is always the width of what has been passed.
-/
import NumeralLint.Proofs.Prose.Reports

namespace NumeralLint

/-- What never fails on the members of a list never fails on the list. -/
theorem mapM_eq_some {α β : Type} {f : α → Option β} {g : α → β} {l : List α}
    (h : ∀ x ∈ l, f x = some (g x)) : l.mapM f = some (l.map g) := by
  induction l with
  | nil => rfl
  | cons x l ih =>
      obtain ⟨hx, hl⟩ := List.forall_mem_cons.mp h
      rw [List.mapM_cons, hx, ih hl]
      rfl

/-! ## Numerals -/

namespace Text

/-- A numeral of a text is the part of the text between its places. -/
theorem part?_of_mem_numerals {t : Text} {n : Numeral} (h : n ∈ t.numerals) :
    t.part? n.start n.stop = some n.text := by
  obtain ⟨before, after, whole, hstart, -⟩ := NumeralScan.mem_numerals h
  refine part?_eq_some_iff.mpr ⟨before, after, whole, ?_, ?_⟩
  · rw [hstart, Nat.zero_add]
  · rw [Numeral.stop, hstart, Nat.zero_add, width_append]

/-- The numerals of a text, each taken as a slice. -/
def numerals? (t : Text) : Option (List Numeral) :=
  t.numerals.mapM fun n => (t.part? n.start n.stop).map fun text => ⟨text, n.start⟩

theorem numerals?_eq (t : Text) : t.numerals? = some t.numerals := by
  have each : ∀ n ∈ t.numerals,
      ((t.part? n.start n.stop).map fun text => (⟨text, n.start⟩ : Numeral)) = some (id n) := by
    intro n hn
    rw [part?_of_mem_numerals hn]
    rfl
  rw [numerals?, mapM_eq_some each, List.map_id]

end Text

/-! ## Sentence ends -/

open Text

namespace Abbreviations

/-- The parts that sentence ends cut a text into, by places: the part that is being read begins at
`start`, and what is left of the text begins at `place`.  What stands before a mark is a slice, and
so is every part. -/
def partsFrom? (abbr : Abbreviations) (text : Text) (start place : Nat) :
    Text → Option (List Text)
  | [] => (text.dropBytes? start).map fun part => [part]
  | c :: t =>
      if isStop c then
        let rest := t.dropWhile isEndMark
        let stop := place + (width [c] + width (t.takeWhile isEndMark))
        (text.part? start place).bind fun before =>
          if abbr.endsSentence before.reverse c rest then
            (text.part? start stop).bind fun part =>
              (partsFrom? abbr text stop stop rest).map (part :: ·)
          else partsFrom? abbr text start stop rest
      else partsFrom? abbr text start (place + width [c]) t
termination_by t => t.length
decreasing_by
  all_goals have := (List.dropWhile_suffix (p := isEndMark) (l := t)).length_le
  all_goals simp only [List.length_cons]
  all_goals omega

def parts? (abbr : Abbreviations) (t : Text) : Option (List Text) := abbr.partsFrom? t 0 0 t

/-- The places are widths of beginnings of the text, of which `front` is in the parts before and
`seen` has been read of the part. -/
theorem partsFrom?_eq (abbr : Abbreviations) (front seen t : Text) :
    abbr.partsFrom? (front ++ seen.reverse ++ t) front.width (front ++ seen.reverse).width t =
      some (abbr.partsAfter seen t) := by
  -- A mark that is read and those that follow it stand at the end of the part.
  have whole : ∀ (front seen t : Text) (c : Char), front ++ seen.reverse ++ c :: t =
      front ++ ((t.takeWhile isEndMark).reverse ++ c :: seen).reverse ++ t.dropWhile isEndMark := by
    intro front seen t c
    simp
  have stop : ∀ (front seen marks : Text) (c : Char),
      (front ++ seen.reverse).width + (width [c] + width marks) =
        (front ++ (marks.reverse ++ c :: seen).reverse).width := by
    intro front seen marks c
    rw [← width_append, ← width_append]
    simp
  fun_induction partsAfter abbr seen t generalizing front with
  | case1 seen => rw [partsFrom?, List.append_nil, dropBytes?_append, Option.map_some]
  | case2 seen c t hstop marks part hends ih =>
      have later := ih (front ++ part.reverse)
      rw [List.reverse_nil, List.append_nil] at later
      rw [partsFrom?, if_pos hstop, part?_append, Option.bind_some, List.reverse_reverse,
        if_pos hends, stop, whole front seen t c, part?_append, Option.bind_some, later,
        Option.map_some]
  | case3 seen c t hstop marks part hends ih =>
      rw [partsFrom?, if_pos hstop, part?_append, Option.bind_some, List.reverse_reverse,
        if_neg hends, stop, whole front seen t c]
      exact ih front
  | case4 seen c t hstop ih =>
      have read := ih front
      rw [List.reverse_cons, ← List.append_assoc, List.append_assoc _ [c],
        width_append _ [c]] at read
      rw [partsFrom?, if_neg hstop]
      exact read

theorem parts?_eq (abbr : Abbreviations) (t : Text) : abbr.parts? t = some (abbr.parts t) :=
  abbr.partsFrom?_eq [] [] t

end Abbreviations

/-! ## Sentences -/

/-- Looks for sentences in a line, one after the other, from the place `cursor` on. -/
def placeAll? (line : Text) (cursor : Nat) : List Text → Option (List Placement)
  | [] => some []
  | s :: ss =>
      if s.isEmpty then placeAll? line cursor ss
      else
        (line.dropBytes? cursor).bind fun rest =>
          match rest.cut (.literal s) with
          | none => (placeAll? line cursor ss).map fun later => .missing s :: later
          | some (before, _) =>
              let offset := cursor + before.width
              let stop := offset + s.width
              (line.part? offset stop).bind fun text =>
                (placeAll? line stop ss).map fun later => .found ⟨text, offset⟩ :: later

theorem placeAll?_eq (front rest : Text) (ss : List Text) :
    placeAll? (front ++ rest) front.width ss = some (placeAll front.width rest ss) := by
  induction ss generalizing front rest with
  | nil => rfl
  | cons s ss ih =>
      rw [placeAll?, placeAll]
      split
      · exact ih front rest
      · rw [dropBytes?_append, Option.bind_some]
        cases hcut : rest.cut (.literal s) with
        | none => simp only [ih front rest, Option.map_some]
        | some found =>
            have whole : front ++ rest = front ++ found.1 ++ s ++ found.2 := by
              rw [cut_literal_eq_some hcut]
              simp only [List.append_assoc]
            have offset : front.width + found.1.width = (front ++ found.1).width :=
              (width_append _ _).symm
            have stop : (front ++ found.1).width + s.width = (front ++ found.1 ++ s).width :=
              (width_append _ _).symm
            simp only [offset, stop, whole, part?_append, Option.bind_some,
              ih (front ++ found.1 ++ s) found.2, Option.map_some]

/-- A sentence that is found is the part of the line between its places. -/
theorem part?_of_mem_placedSentences {line : Text} {sentences : List Text} {s : PlacedSentence}
    (h : s ∈ placedSentences line sentences) :
    line.part? s.offset (s.offset + s.text.width) = some s.text := by
  obtain ⟨placement, hplacement, hs⟩ := List.mem_filterMap.mp h
  cases placement with
  | missing text => exact absurd hs (by simp [Placement.sentence?])
  | found found =>
      obtain rfl := Option.some.inj hs
      obtain ⟨before, after, whole, hoffset⟩ := exists_of_found hplacement
      refine part?_eq_some_iff.mpr ⟨before, after, whole, ?_, ?_⟩
      · rw [hoffset, Nat.zero_add]
      · rw [hoffset, Nat.zero_add, width_append]

namespace SmallIntegers

variable (rule : SmallIntegers)

/-- The numeral at which a sentence is reported, with the numerals taken as slices. -/
def offendingIn? (sentence : Text) : Option (Option Numeral) :=
  sentence.numerals?.map fun found => if found.all rule.isSmall then found.head? else none

/-- What a sentence leads to, with its numerals taken as slices. -/
def sentenceEventIn? : Placement → Option (Option Event)
  | .missing text => some (some (.missing text))
  | .found s =>
      (rule.offendingIn? s.text).map fun offending =>
        offending.map fun n => .report (s.offset + n.start) (s.offset + n.stop)

theorem sentenceEventIn?_eq (placement : Placement) :
    rule.sentenceEventIn? placement = some (rule.sentenceEvent? placement) := by
  cases placement with
  | missing text => rfl
  | found s =>
      rw [sentenceEventIn?, offendingIn?, numerals?_eq]
      rfl

def proseEvents? (line : Text) : Option (List Event) :=
  (placeAll? line 0 (rule.sentences line)).bind fun placements =>
    (placements.mapM rule.sentenceEventIn?).map fun events => events.filterMap id

theorem proseEvents?_eq (line : Text) :
    rule.proseEvents? line = some (rule.proseEvents line) := by
  have placed : placeAll? line 0 (rule.sentences line) =
      some (placeAll 0 line (rule.sentences line)) := placeAll?_eq [] line _
  rw [proseEvents?, placed, Option.bind_some,
    mapM_eq_some fun placement _ => rule.sentenceEventIn?_eq placement, Option.map_some,
    List.filterMap_map]
  rfl

def readLine? (depth : Nat) (line : Text) : Option (Nat × List Event) :=
  let inner := depthInside depth line
  (if inner = 0 then rule.proseEvents? line else some []).map fun events =>
    (depthAfter inner line, events ++ (if isStrayEnd inner line then [.strayEnd line] else []))

theorem readLine?_eq (depth : Nat) (line : Text) :
    rule.readLine? depth line = some (rule.readLine depth line) := by
  rw [readLine?, readLine, proseEvents?_eq]
  by_cases h : depthInside depth line = 0
  · simp only [h, if_true, Option.map_some]
  · simp only [h, if_false, Option.map_some]

def readLines? (depth : Nat) : List Text → Option (List (List Event))
  | [] => some []
  | line :: rest =>
      (rule.readLine? depth line).bind fun reading =>
        (readLines? reading.1 rest).map fun later => reading.2 :: later

theorem readLines?_eq (depth : Nat) (lines : List Text) :
    rule.readLines? depth lines = some (rule.readLines depth lines) := by
  induction lines generalizing depth with
  | nil => rfl
  | cons line rest ih =>
      rw [readLines?, readLine?_eq, Option.bind_some, ih]
      rfl

def findings? (place : Nat → Nat → Nat → Range) (lines : List Text) : Option (List Finding) :=
  (rule.readLines? 0 (lines.map trimEnd)).map fun events =>
    (events.mapIdx fun n es => es.filterMap (Event.finding? (place n))).flatten

theorem findings?_eq (place : Nat → Nat → Nat → Range) (lines : List Text) :
    rule.findings? place lines = some (rule.findings place lines) := by
  rw [findings?, readLines?_eq]
  rfl

end SmallIntegers

end NumeralLint
