/-
Lists and records that are read from what they are written as.

A list is read back when its items are.  A record is read from an object as
far as its fields are: each field of the object is looked up by its name among
those of the record, and one that is not there is passed over.  The fields of
an object lead from the initial record to the one that is read
(`RecordForm.Leads`), keeping the names that were seen.  An object that has all
the fields in their order is a case of this (`RecordForm.Fills`), and so is
every record that the library writes (`RecordForm.read_written`).
-/
import Mathlib.Data.List.DropRight
import Mathlib.Data.List.Forall2
import NumeralLint.Json.Record
import NumeralLint.Proofs.Json.Values

namespace NumeralLint

open Json Decoder

variable {layout : Nat → Layout} {depth : Nat}

/-! ## Lists -/

namespace Json

variable {α : Type} {item : Decoder α} (h : Shrinks item)

theorem readMoreItems_close (done : List α) {t rest : Text} (ht : skipSpace t = ']' :: rest) :
    readMoreItems item h done t = .ok (done.reverse, rest) := by
  rw [readMoreItems]
  split
  · next hs => rw [ht] at hs; cases hs
  · next hs => rw [ht] at hs; cases hs; rfl

theorem readMoreItems_comma (done : List α) {t u rest : Text} {v : α}
    (ht : skipSpace t = ',' :: u) (hv : item u = .ok (v, rest)) :
    readMoreItems item h done t = readMoreItems item h (v :: done) rest := by
  rw [readMoreItems]
  split
  · next hs => rw [ht] at hs; cases hs
  · next hs =>
      rw [ht] at hs
      cases hs
      rw [if_neg (by decide), if_pos rfl]
      split
      · next hfault => rw [hv] at hfault; cases hfault
      · next hread => rw [hv] at hread; cases hread; rfl

theorem exists_read_items {items : List Text} {values : List α} {t : Text}
    (htext : ItemsText items t) (hitems : List.Forall₂ item.ReadsBack items values)
    (done : List α) (rest : Text) :
    ∃ v rest', item (t ++ ']' :: rest) = .ok (v, rest') ∧
      readMoreItems item h (v :: done) rest' = .ok (done.reverse ++ values, rest) := by
  induction htext generalizing values done with
  | @last before text after hbefore hafter =>
      cases hitems with
      | @cons _ v _ _ hv hnil =>
          cases hnil
          have read := hv.reads before (after ++ ']' :: rest) hbefore
            (endsNumber_closing .array hafter rest)
          have closed := skipSpace_append hafter (c := ']') rfl rest
          refine ⟨v, after ++ ']' :: rest, ?_, ?_⟩
          · rw [← read]
            simp only [List.append_assoc]
          · rw [readMoreItems_close h _ closed, List.reverse_cons]
  | @more before text after t items hbefore hafter _ ih =>
      cases hitems with
      | @cons _ v _ values hv hmore =>
          have read := hv.reads before (after ++ ',' :: (t ++ ']' :: rest)) hbefore
            (endsNumber_comma hafter _)
          have comma := skipSpace_append hafter (c := ',') rfl (t ++ ']' :: rest)
          obtain ⟨w, rest', hw, hrest'⟩ := ih hmore (v :: done)
          refine ⟨v, after ++ ',' :: (t ++ ']' :: rest), ?_, ?_⟩
          · rw [← read]
            simp only [List.append_assoc, List.cons_append]
          · rw [readMoreItems_comma h _ comma hw, hrest', List.reverse_cons, List.append_assoc,
              List.singleton_append]

theorem readList_encloses {items : List Text} {values : List α} {t : Text}
    (htext : Encloses .array items t) (hitems : List.Forall₂ item.ReadsBack items values) :
    (readList item h).ReadsBack t values := by
  cases htext with
  | @none inside hinside =>
      cases hitems
      refine ⟨⟨'[', _, rfl, rfl, by decide⟩, ?_⟩
      intro gap rest hgap _
      have closed := skipSpace_append hinside (c := ']') rfl rest
      rw [List.append_assoc, List.cons_append, readList, skipSpace_append hgap rfl,
        List.append_assoc]
      show readItems item h (inside ++ ']' :: rest) = _
      rw [readItems, closed]
      rfl
  | @some _ t hmore =>
      refine ⟨⟨'[', _, rfl, rfl, by decide⟩, ?_⟩
      intro gap rest hgap _
      obtain ⟨gap', first, others, more, rfl, rfl, hgap', htrimmed⟩ := hmore.exists_first
      obtain ⟨w, rest', hw, hrest'⟩ := exists_read_items h htrimmed hitems [] rest
      have starts : ∃ c u, first = c :: u ∧ isSpace c = false ∧ c ≠ ']' := by
        cases hitems with
        | cons hv _ => exact hv.starts
      obtain ⟨c, u, rfl, notSpace, notEnd⟩ := starts
      have front := skipSpace_append hgap' notSpace (u ++ (more ++ ']' :: rest))
      simp only [List.append_assoc, List.cons_append, List.nil_append] at hw ⊢
      rw [readList, skipSpace_append hgap rfl]
      show readItems item h (gap' ++ c :: (u ++ (more ++ ']' :: rest))) = _
      rw [readItems, front]
      simp only [if_neg notEnd, hw]
      exact hrest'

end Json

/-! ## Records -/

namespace RecordForm

variable {σ : Type} (form : RecordForm σ)

/-- No two fields of the form have one name. -/
def DistinctNames : Prop := (form.fields.map Field.name).Nodup

instance : Decidable form.DistinctNames :=
  inferInstanceAs (Decidable (form.fields.map Field.name).Nodup)

/-- The fields of an object lead from one record to another.  Each is read into the record if the
form has a field of its name that was not seen before, and passed over if it has none. -/
inductive Leads : List Text → σ → List (Text × Text) → List Text → σ → Prop
  | done {seen : List Text} {s : σ} : Leads seen s [] seen s
  | known {seen seen' : List Text} {s s' s'' : σ} {field : Field σ} {text : Text}
      {members : List (Text × Text)} : field ∈ form.fields → field.name ∉ seen →
      (field.read s).ReadsBack text s' → Leads (field.name :: seen) s' members seen' s'' →
      Leads seen s ((field.name, text) :: members) seen' s''
  | other {seen seen' : List Text} {s s' : σ} {name text : Text} {members : List (Text × Text)} :
      name ∉ form.fields.map Field.name → IsValue text → Leads seen s members seen' s' →
      Leads seen s ((name, text) :: members) seen' s'

variable {form}

theorem find?_name (hnames : form.DistinctNames) {field : Field σ} (hfield : field ∈ form.fields) :
    form.fields.find? (fun f => f.name == field.name) = some field := by
  obtain ⟨past, todo, hfields⟩ := List.append_of_mem hfield
  have others : ∀ f ∈ past, f.name ≠ field.name := by
    intro f hf
    rw [DistinctNames, hfields, List.map_append, List.map_cons] at hnames
    exact (List.nodup_append.mp hnames).2.2 _ (List.mem_map_of_mem hf) _ List.mem_cons_self
  have absent : past.find? (fun f => f.name == field.name) = none :=
    List.find?_eq_none.mpr fun f hf => by simpa using others f hf
  rw [hfields, List.find?_append, absent, Option.none_or, List.find?_cons_of_pos (by simp)]

theorem find?_other {name : Text} (h : name ∉ form.fields.map Field.name) :
    form.fields.find? (fun f => f.name == name) = none := by
  refine List.find?_eq_none.mpr ?_
  intro f hf heq
  exact h (List.mem_map.mpr ⟨f, hf, by simpa using heq⟩)

/-! ### One field of an object -/

theorem readColon_append {gap : Text} (hgap : IsSpaces gap) (rest : Text) :
    readColon (gap ++ ':' :: rest) = .ok ((), rest) := by
  rw [readColon, skipSpace_append hgap rfl]
  exact if_pos rfl

theorem readMember_key {seen : List Text} {s : σ} {name key before : Text}
    (hkey : StringText name key) (hbefore : IsSpaces before) (rest : Text) :
    form.readMember seen s (before ++ (key ++ rest)) = form.readMemberValue seen s name rest := by
  obtain ⟨u, heq, hread⟩ := hkey.exists_append rest
  rw [readMember, heq, skipSpace_append hbefore rfl]
  simp only [if_true, hread]

theorem readMember_known (hnames : form.DistinctNames) {seen : List Text} {s s' : σ}
    {field : Field σ} {text item before rest : Text} (hfield : field ∈ form.fields)
    (hseen : field.name ∉ seen) (hread : (field.read s).ReadsBack text s')
    (hitem : MemberText StringText (field.name, text) item) (hbefore : IsSpaces before)
    (hrest : EndsNumber rest) :
    form.readMember seen s (before ++ (item ++ rest)) = .ok ((field.name :: seen, s'), rest) := by
  cases hitem with
  | @mk _ key gap between _ hkey hgap hbetween =>
      have value := hread.reads between rest hbetween hrest
      have unseen : ¬ seen.contains field.name = true := by simpa using hseen
      have colon := readColon_append hgap (between ++ (text ++ rest))
      simp only [List.append_assoc, List.cons_append] at value ⊢
      rw [readMember_key hkey hbefore, readMemberValue, find?_name hnames hfield]
      simp only [if_neg unseen, colon]
      rw [Decoder.map, value]

theorem readMember_other {seen : List Text} {s : σ} {name text item before rest : Text}
    (hname : name ∉ form.fields.map Field.name) (hvalue : IsValue text)
    (hitem : MemberText StringText (name, text) item) (hbefore : IsSpaces before)
    (hrest : EndsNumber rest) :
    form.readMember seen s (before ++ (item ++ rest)) = .ok ((seen, s), rest) := by
  cases hitem with
  | @mk _ key gap between _ hkey hgap hbetween =>
      have colon := readColon_append hgap (between ++ (text ++ rest))
      simp only [List.append_assoc, List.cons_append]
      rw [readMember_key hkey hbefore, readMemberValue, find?_other hname]
      simp only [colon]
      rw [Decoder.map, hvalue.skipValue hbetween hrest]

/-! ### All fields of an object -/

theorem readMoreMembers_close {seen : List Text} {s : σ} {t rest : Text}
    (ht : skipSpace t = '}' :: rest) :
    form.readMoreMembers seen s t = form.finish seen s rest := by
  rw [readMoreMembers]
  split
  · next hs => rw [ht] at hs; cases hs
  · next hs => rw [ht] at hs; cases hs; rfl

theorem readMoreMembers_comma {seen seen' : List Text} {s s' : σ} {t u rest : Text}
    (ht : skipSpace t = ',' :: u) (hm : form.readMember seen s u = .ok ((seen', s'), rest)) :
    form.readMoreMembers seen s t = form.readMoreMembers seen' s' rest := by
  rw [readMoreMembers]
  split
  · next hs => rw [ht] at hs; cases hs
  · next hs =>
      rw [ht] at hs
      cases hs
      rw [if_neg (by decide), if_pos rfl]
      split
      · next hfault => rw [hm] at hfault; cases hfault
      · next hread => rw [hm] at hread; cases hread; rfl

theorem readMembers_of_readMember {t rest : Text} {seen : List Text} {s : σ}
    (hm : form.readMember [] form.initial t = .ok ((seen, s), rest)) :
    form.readMembers t = form.readMoreMembers seen s rest := by
  have first : form.readMember [] form.initial (skipSpace t) = .ok ((seen, s), rest) := by
    rwa [readMember, skipSpace, skipSpace, List.dropWhile_idempotent]
  rw [readMembers]
  split
  · next hs => rw [hs] at first; cases first
  · next c u hs =>
      rw [hs] at first
      have notEnd : c ≠ '}' := by
        rintro rfl
        cases first
      simp only [if_neg notEnd, first]

/-- What leads from a record to another by the first field of an object is what its reader does,
and the others do the rest. -/
theorem Leads.exists_readMember (hnames : form.DistinctNames) {seen seen' : List Text} {s s' : σ}
    {m : Text × Text} {members : List (Text × Text)}
    (h : form.Leads seen s (m :: members) seen' s') :
    ∃ seen₁ s₁, form.Leads seen₁ s₁ members seen' s' ∧
      ∀ {item before rest : Text}, MemberText StringText m item → IsSpaces before →
        EndsNumber rest → form.readMember seen s (before ++ (item ++ rest)) = .ok ((seen₁, s₁), rest) := by
  cases h with
  | known hfield hseen hread hmore =>
      exact ⟨_, _, hmore, fun hitem hbefore hrest =>
        readMember_known hnames hfield hseen hread hitem hbefore hrest⟩
  | other hname hvalue hmore =>
      exact ⟨_, _, hmore, fun hitem hbefore hrest =>
        readMember_other hname hvalue hitem hbefore hrest⟩

theorem exists_read_members (hnames : form.DistinctNames) {items : List Text}
    {members : List (Text × Text)} {t : Text} (htext : ItemsText items t)
    (hitems : List.Forall₂ (MemberText StringText) members items) {seen seen' : List Text}
    {s s' : σ} (h : form.Leads seen s members seen' s') (rest : Text) :
    ∃ seen₁ s₁ rest₁, form.readMember seen s (t ++ '}' :: rest) = .ok ((seen₁, s₁), rest₁) ∧
      form.readMoreMembers seen₁ s₁ rest₁ = form.finish seen' s' rest := by
  induction htext generalizing members seen s with
  | @last before item after hbefore hafter =>
      cases hitems with
      | cons hm hnil =>
          cases hnil
          obtain ⟨seen₁, s₁, hmore, hread⟩ := h.exists_readMember hnames
          cases hmore
          refine ⟨seen', s', after ++ '}' :: rest, ?_, ?_⟩
          · have read := hread hm hbefore (endsNumber_closing .object hafter rest)
            simp only [List.append_assoc]
            exact read
          · exact readMoreMembers_close (skipSpace_append hafter rfl rest)
  | @more before item after t items hbefore hafter _ ih =>
      cases hitems with
      | cons hm hothers =>
          obtain ⟨seen₁, s₁, hmore, hread⟩ := h.exists_readMember hnames
          obtain ⟨seen₂, s₂, rest₂, hnext, hrest⟩ := ih hothers hmore
          refine ⟨seen₁, s₁, after ++ ',' :: (t ++ '}' :: rest), ?_, ?_⟩
          · rw [← hread hm hbefore (endsNumber_comma hafter _)]
            simp only [List.append_assoc, List.cons_append]
          · rw [readMoreMembers_comma (skipSpace_append hafter rfl _) hnext, hrest]

/-- An object is read as the record that its fields lead to, if that is complete. -/
theorem read_object (hnames : form.DistinctNames) {members : List (Text × Text)} {t : Text}
    (htext : ObjectText StringText members t) {seen : List Text} {s : σ}
    (h : form.Leads [] form.initial members seen s)
    (hfinish : ∀ rest, form.finish seen s rest = .ok (s, rest)) : form.read.ReadsBack t s := by
  obtain ⟨items, hitems, hencloses⟩ := htext
  refine ⟨hencloses.starts, ?_⟩
  intro gap rest hgap _
  cases hencloses with
  | @none inside hinside =>
      cases hitems
      cases h
      rw [List.append_assoc, List.cons_append, read, Nest.opening, skipSpace_append hgap rfl,
        List.append_assoc]
      show form.readMembers (inside ++ '}' :: rest) = _
      rw [readMembers, skipSpace_append hinside rfl]
      exact (if_pos rfl).trans (hfinish rest)
  | @some _ t hmore =>
      obtain ⟨seen₁, s₁, rest₁, hread, hrest⟩ := exists_read_members hnames hmore hitems h rest
      rw [List.append_assoc, List.cons_append, read, Nest.opening, skipSpace_append hgap rfl,
        List.append_assoc]
      show form.readMembers (t ++ '}' :: rest) = _
      rw [readMembers_of_readMember hread, hrest, hfinish]

end RecordForm

/-! ## What the library writes -/

namespace Json

theorem itemsText_layout (blanks : Layout) (first : Text) (others : List Text) :
    ItemsText (first :: others) (blanks.before ++ (first
      ++ ((others.flatMap fun item => ',' :: (blanks.before ++ item)) ++ blanks.after))) := by
  induction others generalizing first with
  | nil => exact .last blanks.isSpaces_before blanks.isSpaces_after
  | cons second others ih =>
      have text := @ItemsText.more _ first _ _ _ blanks.isSpaces_before isSpaces_nil (ih second)
      simpa only [List.flatMap_cons, List.append_assoc, List.cons_append, List.nil_append]
        using text

/-- The fields of an object as its items. -/
def Layout.member (blanks : Layout) (m : Text × Text) : Text :=
  quote m.1 ++ ':' :: (blanks.between ++ m.2)

theorem memberText_member (blanks : Layout) (m : Text × Text) :
    MemberText StringText m (blanks.member m) :=
  .mk (stringText_quote m.1) isSpaces_nil blanks.isSpaces_between

theorem writtenMoreItems_eq (values : List JsonValue) :
    JsonValue.writtenMoreItems layout depth values =
      (values.map (JsonValue.written layout (depth + 1))).flatMap fun item =>
        ',' :: ((layout depth).before ++ item) := by
  induction values with
  | nil => rfl
  | cons v values ih =>
      rw [JsonValue.writtenMoreItems, ih]
      simp

theorem writtenMoreFields_eq (members : List (Text × JsonValue)) :
    JsonValue.writtenMoreFields layout depth members =
      ((members.map (Prod.map id (JsonValue.written layout (depth + 1)))).map
        (layout depth).member).flatMap fun item => ',' :: ((layout depth).before ++ item) := by
  induction members with
  | nil => rfl
  | cons m members ih =>
      rw [JsonValue.writtenMoreFields, ih]
      simp [Layout.field, Layout.member]

theorem encloses_written_array (layout : Nat → Layout) (depth : Nat) (values : List JsonValue) :
    Encloses .array (values.map (JsonValue.written layout (depth + 1)))
      ((JsonValue.array values).written layout depth) := by
  cases values with
  | nil => exact .none isSpaces_nil
  | cons v values =>
      have items := itemsText_layout (layout depth) (v.written layout (depth + 1))
        (values.map (JsonValue.written layout (depth + 1)))
      have text := @Encloses.some .array _ _ items
      rw [← writtenMoreItems_eq] at text
      simp only [List.append_assoc] at text
      simp only [JsonValue.written, List.append_assoc, List.cons_append]
      exact text

theorem objectText_written (layout : Nat → Layout) (depth : Nat)
    (members : List (Text × JsonValue)) :
    ObjectText StringText (members.map (Prod.map id (JsonValue.written layout (depth + 1))))
      ((JsonValue.object members).written layout depth) := by
  refine ⟨(members.map (Prod.map id (JsonValue.written layout (depth + 1)))).map
    (layout depth).member, ?_, ?_⟩
  · refine List.forall₂_map_right_iff.mpr (List.forall₂_same.mpr ?_)
    exact fun m _ => memberText_member (layout depth) m
  · cases members with
    | nil => exact .none isSpaces_nil
    | cons m members =>
        have items := itemsText_layout (layout depth)
          ((layout depth).member (Prod.map id (JsonValue.written layout (depth + 1)) m))
          ((members.map (Prod.map id (JsonValue.written layout (depth + 1)))).map
            (layout depth).member)
        have text := @Encloses.some .object _ _ items
        rw [← writtenMoreFields_eq] at text
        simp only [Layout.member, Prod.map, List.append_assoc, List.cons_append] at text
        simp only [JsonValue.written, Layout.field, List.append_assoc, List.cons_append]
        exact text

/-- Each of the values, one level further in, is read back as an item. -/
def ItemsReadBack {α : Type} (layout : Nat → Layout) (depth : Nat) (item : Decoder α)
    (values : List JsonValue) (items : List α) : Prop :=
  List.Forall₂ (fun value v => item.ReadsBack (value.written layout (depth + 1)) v) values items

theorem readList_written {α : Type} {item : Decoder α} (h : Shrinks item)
    {values : List JsonValue} {items : List α}
    (hitems : ItemsReadBack layout depth item values items) :
    (readList item h).ReadsBack ((JsonValue.array values).written layout depth) items := by
  refine readList_encloses h (encloses_written_array layout depth values) ?_
  exact List.forall₂_map_left_iff.mpr hitems

end Json

namespace RecordForm

variable {σ : Type} {form : RecordForm σ}

/-- The fields are read back, one after the other, and lead from the first record to the second. -/
inductive Fills (value : JsonValue → Text) :
    List (Field σ) → List (Text × JsonValue) → σ → σ → Prop
  | done (s : σ) : Fills value [] [] s s
  | field {field : Field σ} {v : JsonValue} {fields : List (Field σ)}
      {members : List (Text × JsonValue)} {s s' s'' : σ} :
      (field.read s).ReadsBack (value v) s' → Fills value fields members s' s'' →
        Fills value (field :: fields) ((field.name, v) :: members) s s''

theorem not_seen (hnames : form.DistinctNames) {past todo : List (Field σ)} {field : Field σ}
    (hfields : form.fields = past ++ field :: todo) :
    field.name ∉ (past.map Field.name).reverse := by
  rw [DistinctNames, hfields, List.map_append, List.map_cons] at hnames
  intro seen
  exact (List.nodup_append.mp hnames).2.2 _ (List.mem_reverse.mp seen) _ List.mem_cons_self rfl

/-- The fields `past` have been seen, and the others follow in their order. -/
theorem Fills.leads (hnames : form.DistinctNames) {value : JsonValue → Text}
    {past todo : List (Field σ)} (hfields : form.fields = past ++ todo)
    {members : List (Text × JsonValue)} {s s' : σ} (h : Fills value todo members s s') :
    form.Leads (past.map Field.name).reverse s (members.map (Prod.map id value))
      (form.fields.map Field.name).reverse s' := by
  induction h generalizing past with
  | done s =>
      rw [hfields, List.append_nil]
      exact .done
  | @field field v todo members s s' s'' hread _ ih =>
      have more := @ih (past ++ [field]) (by rw [hfields, List.append_assoc, List.singleton_append])
      rw [List.map_append, List.reverse_append] at more
      have hfield : field ∈ form.fields := hfields ▸ List.mem_append_right _ List.mem_cons_self
      exact .known hfield (not_seen hnames hfields) hread more

/-- When all fields have been seen, the record is complete. -/
theorem finish_of_seen (form : RecordForm σ) (s : σ) (t : Text) :
    form.finish (form.fields.map Field.name).reverse s t = .ok (s, t) := by
  have all : form.fields.any (fun field =>
      !(form.fields.map Field.name).reverse.contains field.name) = false := by
    rw [List.any_eq_false]
    intro field hfield
    simpa using ⟨field, hfield, rfl⟩
  rw [finish, all, Bool.and_false]
  rfl

theorem read_written (hnames : form.DistinctNames) {members : List (Text × JsonValue)} {v : σ}
    (h : Fills (JsonValue.written layout (depth + 1)) form.fields members form.initial v) :
    form.read.ReadsBack ((JsonValue.object members).written layout depth) v := by
  have leads := @Fills.leads _ form hnames _ [] _ rfl _ _ _ h
  exact read_object hnames (objectText_written layout depth members) leads (form.finish_of_seen v)

end RecordForm

namespace Decoder

/-- A text that is read back is read as a whole, with blanks around it. -/
theorem ReadsBack.readAll {α : Type} {d : Decoder α} {text : Text} {v : α}
    (h : d.ReadsBack text v) {gap rest : Text} (hgap : IsSpaces gap) (hrest : IsSpaces rest) :
    d.readAll (gap ++ text ++ rest) = .ok v := by
  have read := h.reads gap rest hgap (by simpa using EndsNumber.append hrest endsNumber_nil)
  have blank : skipSpace rest = [] := List.dropWhile_eq_nil_iff.mpr hrest
  rw [Decoder.readAll, read]
  simp [blank]

end Decoder

end NumeralLint
