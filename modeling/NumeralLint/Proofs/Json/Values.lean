/-
Values as they may be written, and passing over them.

An array or an object holds items with commas between them, and blanks may
stand around every item (`Encloses`).  The items of an object are its fields.
With strings and numbers as they are written elsewhere, that makes up the
values of JSON (`IsValue`), nested to any depth.

The pass over a value keeps a list of what is open.  For every value it comes
out where it went in: with the same list, right behind the value
(`IsValue.skips`).  The induction is on how the value is built, for every list
and whatever follows; arrays and objects need one argument (`skipRest_items`),
since they differ only in what an item is.
-/
import NumeralLint.Proofs.Json.Numbers
import NumeralLint.Proofs.Json.Strings

namespace NumeralLint

namespace Json

/-! ## Arrays and objects -/

/-- Items with commas between them and blanks around each of them. -/
inductive ItemsText : List Text → Text → Prop
  | last {before item after : Text} : IsSpaces before → IsSpaces after →
      ItemsText [item] (before ++ (item ++ after))
  | more {before item after t : Text} {items : List Text} : IsSpaces before → IsSpaces after →
      ItemsText items t → ItemsText (item :: items) (before ++ (item ++ (after ++ ',' :: t)))

def Nest.opening : Nest → Char
  | array => '['
  | object => '\x7b'

/-- An array or an object with these items. -/
inductive Encloses (nest : Nest) : List Text → Text → Prop
  | none {gap : Text} : IsSpaces gap → Encloses nest [] (nest.opening :: (gap ++ [nest.closing]))
  | some {items : List Text} {t : Text} : ItemsText items t →
      Encloses nest items (nest.opening :: (t ++ [nest.closing]))

/-- A field of an object, of which the text of the key is in the relation `Key` to what stands for
the key. -/
inductive MemberText {κ : Type} (Key : κ → Text → Prop) : κ × Text → Text → Prop
  | mk {k : κ} {key gap between value : Text} : Key k key → IsSpaces gap → IsSpaces between →
      MemberText Key (k, value) (key ++ (gap ++ ':' :: (between ++ value)))

/-- An object with these fields, each a key and the text of a value. -/
def ObjectText {κ : Type} (Key : κ → Text → Prop) (members : List (κ × Text)) (t : Text) : Prop :=
  ∃ items, List.Forall₂ (MemberText Key) members items ∧ Encloses .object items t

/-- The text is a JSON value. -/
inductive IsValue : Text → Prop
  | null : IsValue "null".toList
  | true : IsValue "true".toList
  | false : IsValue "false".toList
  | number {t : Text} : t ∈ Pattern.jsonNumber.matches' → IsValue t
  | string {t : Text} : IsString t → IsValue t
  | array {items : List Text} {t : Text} : Encloses .array items t →
      (∀ item ∈ items, IsValue item) → IsValue t
  | object {members : List (Unit × Text)} {t : Text} : ObjectText (fun _ => IsString) members t →
      (∀ m ∈ members, IsValue m.2) → IsValue t

variable {nest : Nest} {outer : List Nest} {items : List Text} {t u rest : Text} {c : Char}

/-- Items start with the first of them, after blanks. -/
theorem ItemsText.exists_first (h : ItemsText items t) :
    ∃ gap first others more, items = first :: others ∧ t = gap ++ (first ++ more) ∧
      IsSpaces gap ∧ ItemsText (first :: others) (first ++ more) := by
  cases h with
  | @last before item after hbefore hafter =>
      exact ⟨before, item, [], after, rfl, rfl, hbefore, .last isSpaces_nil hafter⟩
  | @more before item after t others hbefore hafter hmore =>
      exact ⟨before, item, others, after ++ ',' :: t, rfl, rfl, hbefore,
        .more isSpaces_nil hafter hmore⟩

/-- What stands behind an item ends a number. -/
theorem endsNumber_comma {after : Text} (h : IsSpaces after) (t : Text) :
    EndsNumber (after ++ ',' :: t) := EndsNumber.append h (endsNumber_cons (by decide) t)

theorem endsNumber_closing (nest : Nest) {after : Text} (h : IsSpaces after) (t : Text) :
    EndsNumber (after ++ nest.closing :: t) := by
  refine EndsNumber.append h (endsNumber_cons ?_ t)
  cases nest <;> decide

theorem not_isSpace_closing (nest : Nest) : isSpace nest.closing = false := by
  cases nest <;> decide

theorem Encloses.starts (h : Encloses nest items t) :
    ∃ c u, t = c :: u ∧ isSpace c = false ∧ c ≠ ']' := by
  have opening : isSpace nest.opening = false ∧ nest.opening ≠ ']' := by
    cases nest <;> decide
  cases h with
  | none => exact ⟨nest.opening, _, rfl, opening⟩
  | some => exact ⟨nest.opening, _, rfl, opening⟩

/-! ## Steps of the pass -/

theorem skipRest_firstItem_close (h : skipSpace t = nest.closing :: u) :
    skipRest (.firstItem nest) outer t = skipRest .separator outer u := by
  rw [skipRest]
  split
  · next hs => rw [h] at hs; cases hs
  · next hs => rw [h] at hs; cases hs; exact if_pos rfl

theorem skipRest_firstItem (h : skipSpace t = c :: u) (hc : c ≠ nest.closing) :
    skipRest (.firstItem nest) outer t = skipRest (.item nest) (nest :: outer) (c :: u) := by
  rw [skipRest]
  split
  · next hs => rw [h] at hs; cases hs
  · next hs => rw [h] at hs; cases hs; exact if_neg hc

theorem skipRest_key (h : skipKey t = .ok ((), rest)) :
    skipRest .key outer t = skipRest .value outer rest := by
  rw [skipRest]
  split
  · next hs => rw [h] at hs; cases hs
  · next hs => rw [h] at hs; cases hs; rfl

theorem skipRest_opening (h : skipSpace t = nest.opening :: u) :
    skipRest .value outer t = skipRest (.firstItem nest) outer u := by
  conv_lhs => rw [skipRest]
  split
  · next hs => rw [h] at hs; cases hs
  · next hs =>
      rw [h] at hs
      cases hs
      cases nest with
      | array => exact if_pos rfl
      | object => exact (if_neg (by decide)).trans (if_pos rfl)

theorem skipRest_scalar (h : skipSpace t = c :: u) (hc : c ≠ '[' ∧ c ≠ '\x7b')
    (hskip : skipScalar (c :: u) = .ok ((), rest)) :
    skipRest .value outer t = skipRest .separator outer rest := by
  rw [skipRest]
  split
  · next hs => rw [h] at hs; cases hs
  · next hs =>
      rw [h] at hs
      cases hs
      rw [if_neg hc.1, if_neg hc.2]
      split
      · next hfault => rw [hskip] at hfault; cases hfault
      · next hskip' => rw [hskip] at hskip'; cases hskip'; rfl

theorem skipRest_comma (h : skipSpace t = ',' :: u) :
    skipRest .separator (nest :: outer) t = skipRest (.item nest) (nest :: outer) u := by
  rw [skipRest]
  split
  · next hs => rw [h] at hs; cases hs
  · next hs => rw [h] at hs; cases hs; exact if_pos rfl

theorem skipRest_close (h : skipSpace t = nest.closing :: u) :
    skipRest .separator (nest :: outer) t = skipRest .separator outer u := by
  have notComma : nest.closing ≠ ',' := by
    cases nest <;> decide
  rw [skipRest]
  split
  · next hs => rw [h] at hs; cases hs
  · next hs => rw [h] at hs; cases hs; exact (if_neg notComma).trans (if_pos rfl)

/-! ## The whole pass -/

/-- The text is passed over as an item, wherever it stands. -/
structure SkipsItem (nest : Nest) (item : Text) : Prop where
  /-- An item starts with neither a blank nor the end of what it is in. -/
  starts : ∃ c t, item = c :: t ∧ isSpace c = false ∧ c ≠ nest.closing
  skips : ∀ outer gap rest, IsSpaces gap → EndsNumber rest →
    skipRest (.item nest) (nest :: outer) (gap ++ (item ++ rest)) =
      skipRest .separator (nest :: outer) rest

theorem skipRest_items (h : ItemsText items t) (hitems : ∀ item ∈ items, SkipsItem nest item)
    (outer : List Nest) (rest : Text) :
    skipRest (.item nest) (nest :: outer) (t ++ nest.closing :: rest) =
      skipRest .separator outer rest := by
  induction h with
  | @last before item after hbefore hafter =>
      have skipped := (hitems item List.mem_cons_self).skips outer before
        (after ++ nest.closing :: rest) hbefore (endsNumber_closing nest hafter rest)
      rw [List.append_assoc, List.append_assoc, skipped]
      exact skipRest_close (skipSpace_append hafter (not_isSpace_closing nest) rest)
  | @more before item after t items hbefore hafter _ ih =>
      have skipped := (hitems item List.mem_cons_self).skips outer before
        (after ++ ',' :: (t ++ nest.closing :: rest)) hbefore (endsNumber_comma hafter _)
      have comma : skipSpace (after ++ ',' :: (t ++ nest.closing :: rest)) =
          ',' :: (t ++ nest.closing :: rest) := skipSpace_append hafter rfl _
      rw [List.append_assoc, List.append_assoc, List.append_assoc, List.cons_append, skipped,
        skipRest_comma comma]
      exact ih fun item hitem => hitems item (List.mem_cons_of_mem _ hitem)

theorem skipRest_encloses (h : Encloses nest items t) (hitems : ∀ item ∈ items, SkipsItem nest item)
    {gap : Text} (hgap : IsSpaces gap) (outer : List Nest) (rest : Text) :
    skipRest .value outer (gap ++ (t ++ rest)) = skipRest .separator outer rest := by
  have opened : ∀ inside, skipSpace (gap ++ nest.opening :: inside) = nest.opening :: inside := by
    intro inside
    refine skipSpace_append hgap ?_ inside
    cases nest <;> rfl
  cases h with
  | @none gap' hgap' =>
      rw [List.cons_append, skipRest_opening (opened _), List.append_assoc]
      exact skipRest_firstItem_close (skipSpace_append hgap' (not_isSpace_closing nest) rest)
  | @some _ t hmore =>
      obtain ⟨gap', first, others, more, rfl, rfl, hgap', htrimmed⟩ := hmore.exists_first
      obtain ⟨c, u, rfl, notSpace, notEnd⟩ := (hitems first List.mem_cons_self).starts
      have skipped := skipRest_items htrimmed hitems outer rest
      have front : skipSpace (gap' ++ (c :: (u ++ (more ++ nest.closing :: rest)))) =
          c :: (u ++ (more ++ nest.closing :: rest)) := skipSpace_append hgap' notSpace _
      rw [List.cons_append, skipRest_opening (opened _)]
      simp only [List.append_assoc, List.cons_append, List.nil_append] at skipped ⊢
      rw [skipRest_firstItem front notEnd]
      exact skipped

theorem skipKey_append {key gap : Text} (hkey : IsString key) {before : Text}
    (hbefore : IsSpaces before) (hgap : IsSpaces gap) (rest : Text) :
    skipKey (before ++ (key ++ (gap ++ ':' :: rest))) = .ok ((), rest) := by
  obtain ⟨u, heq, hskip⟩ := hkey.skipString (gap ++ ':' :: rest)
  rw [heq, skipKey, skipSpace_append hbefore rfl]
  simp only [if_true, hskip]
  rw [skipSpace_append hgap rfl]
  rfl

/-- A value is passed over wherever it stands, whatever is open. -/
structure Skips (t : Text) : Prop where
  starts : ∃ c u, t = c :: u ∧ isSpace c = false ∧ c ≠ ']'
  skips : ∀ outer gap rest, IsSpaces gap → EndsNumber rest →
    skipRest .value outer (gap ++ (t ++ rest)) = skipRest .separator outer rest

theorem Skips.item (h : Skips t) : SkipsItem .array t where
  starts := h.starts
  skips := fun outer => h.skips (.array :: outer)

theorem Skips.member {m : Unit × Text} {item : Text} (h : Skips m.2)
    (hitem : MemberText (fun _ => IsString) m item) : SkipsItem .object item := by
  cases hitem with
  | @mk k key gap between value hkey hgap hbetween =>
      constructor
      case starts =>
        obtain ⟨parts, -, rfl⟩ := hkey
        exact ⟨'"', _, rfl, rfl, by decide⟩
      case skips =>
        intro outer before rest hbefore hrest
        have keyed := skipKey_append hkey hbefore hgap (between ++ (value ++ rest))
        simp only [List.append_assoc, List.cons_append]
        show skipRest .key _ _ = _
        rw [skipRest_key keyed]
        exact h.skips _ between rest hbetween hrest

theorem skipsItem_of_members {members : List (Unit × Text)}
    (h : List.Forall₂ (MemberText fun _ => IsString) members items)
    (hvalues : ∀ m ∈ members, Skips m.2) : ∀ item ∈ items, SkipsItem .object item := by
  induction h with
  | nil => exact fun _ hitem => absurd hitem List.not_mem_nil
  | cons hmember _ ih =>
      obtain ⟨hvalue, hmore⟩ := List.forall_mem_cons.mp hvalues
      exact List.forall_mem_cons.mpr ⟨hvalue.member hmember, ih hmore⟩

theorem skips_scalar
    (hstart : ∃ c u, t = c :: u ∧ isSpace c = false ∧ c ≠ ']' ∧ c ≠ '[' ∧ c ≠ '\x7b')
    (hskip : ∀ rest, EndsNumber rest → skipScalar (t ++ rest) = .ok ((), rest)) : Skips t := by
  obtain ⟨c, u, rfl, notSpace, notEnd, notOpening⟩ := hstart
  refine ⟨⟨c, u, rfl, notSpace, notEnd⟩, ?_⟩
  intro outer gap rest hgap hrest
  rw [List.cons_append]
  exact skipRest_scalar (skipSpace_append hgap notSpace _) notOpening (hskip rest hrest)

theorem IsValue.skips (h : IsValue t) : Skips t := by
  induction h with
  | null => exact skips_scalar ⟨'n', _, rfl, by decide⟩ fun _ _ => rfl
  | true => exact skips_scalar ⟨'t', _, rfl, by decide⟩ fun _ _ => rfl
  | false => exact skips_scalar ⟨'f', _, rfl, by decide⟩ fun _ _ => rfl
  | @number t hnumber =>
      refine skips_scalar ?_ fun _ => skipScalar_number hnumber
      obtain ⟨c, u, rfl, rfl | hdigit⟩ := startsNumber_of_mem_jsonNumber hnumber
      · exact ⟨'-', u, rfl, by decide⟩
      · obtain ⟨d, v, heq, notSpace, notEnd⟩ := StartsNumber.starts ⟨c, u, rfl, Or.inr hdigit⟩
        obtain ⟨rfl, rfl⟩ := List.cons.inj heq
        refine ⟨c, u, rfl, notSpace, notEnd, ?_, ?_⟩
        all_goals
          rintro rfl
          exact absurd hdigit (by decide)
  | @string t hstring =>
      refine skips_scalar ?_ fun rest _ => ?_
      · obtain ⟨parts, -, rfl⟩ := hstring
        exact ⟨'"', _, rfl, by decide⟩
      · obtain ⟨u, heq, hskip⟩ := hstring.skipString rest
        rw [heq]
        exact hskip
  | @array items t hencloses _ ih =>
      refine ⟨?_, fun outer gap rest hgap _ => ?_⟩
      · exact hencloses.starts
      · exact skipRest_encloses hencloses (fun item hitem => (ih item hitem).item) hgap outer rest
  | @object members t hobject _ ih =>
      obtain ⟨items, hmembers, hencloses⟩ := hobject
      have skipped := skipsItem_of_members hmembers ih
      refine ⟨?_, fun outer gap rest hgap _ => ?_⟩
      · exact hencloses.starts
      · exact skipRest_encloses hencloses skipped hgap outer rest

theorem IsValue.skipValue (h : IsValue t) {gap : Text} (hgap : IsSpaces gap)
    (hrest : EndsNumber rest) : skipValue (gap ++ (t ++ rest)) = .ok ((), rest) := by
  rw [Json.skipValue, h.skips.skips [] gap rest hgap hrest, skipRest]

end Json

end NumeralLint
