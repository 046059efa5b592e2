/-
Records that are read from objects with their fields in any order.

An object gives a field by the only field of its name (`Json.Gives`), or it
leaves the field out.  What it gives changes the record, and if changes of
different fields do not get in each other's way (`RecordForm.Independent`),
only the fields that are given matter and not the order in which they stand, nor
what stands between them: the record that is read is the initial one with all
changes made in the order of the form (`RecordForm.read_anyOrder`).

The proof is by induction on the fields of the object.  One that is known is
taken out of the changes that are left, where it may be made before the others
(`RecordForm.made_first`).
-/
import NumeralLint.Proofs.Json.Records

namespace NumeralLint

open Json Decoder

namespace Json

variable {α β : Type} {members : List (Text × Text)} {name text : Text}

/-- How an object gives a field: by its only field of that name, of which the text is in the
relation `Writes` to the value, or not at all. -/
def Gives (members : List (Text × Text)) (name : Text) (Writes : α → Text → Prop) :
    Option α → Prop
  | none => ∀ m ∈ members, m.1 ≠ name
  | some v => ∃ text, members.filter (fun m => m.1 == name) = [(name, text)] ∧ Writes v text

variable {Writes : α → Text → Prop} {given : Option α}

theorem Gives.map (h : Gives members name Writes given) {Writes' : β → Text → Prop} {f : α → β}
    (hf : ∀ v text, Writes v text → Writes' (f v) text) :
    Gives members name Writes' (given.map f) := by
  cases given with
  | none => exact h
  | some v =>
      obtain ⟨text, honly, htext⟩ := h
      exact ⟨text, honly, hf v text htext⟩

theorem Gives.eq_none (h : Gives [] name Writes given) : given = none := by
  cases given with
  | none => rfl
  | some v =>
      obtain ⟨text, honly, -⟩ := h
      exact absurd honly (List.cons_ne_nil _ _).symm

theorem Gives.of_cons_ne {m : Text × Text} (h : Gives (m :: members) name Writes given)
    (hm : m.1 ≠ name) : Gives members name Writes given := by
  cases given with
  | none => exact fun m' hm' => h m' (List.mem_cons_of_mem m hm')
  | some v =>
      obtain ⟨text, honly, htext⟩ := h
      rw [List.filter_cons_of_neg (by simpa using hm)] at honly
      exact ⟨text, honly, htext⟩

theorem Gives.of_cons_self (h : Gives ((name, text) :: members) name Writes given) :
    (∃ v, given = some v ∧ Writes v text) ∧ ∀ m ∈ members, m.1 ≠ name := by
  cases given with
  | none => exact absurd rfl (h (name, text) List.mem_cons_self)
  | some v =>
      obtain ⟨text', honly, htext⟩ := h
      rw [List.filter_cons_of_pos (by simp)] at honly
      obtain ⟨hfirst, hothers⟩ := List.cons.inj honly
      obtain ⟨-, rfl⟩ := Prod.mk.inj hfirst
      refine ⟨⟨v, rfl, htext⟩, ?_⟩
      intro m hm hname
      exact List.filter_eq_nil_iff.mp hothers m hm (by simpa using hname)

end Json

variable {σ : Type}

/-- Read from the text, the field makes the change `f` to every record. -/
def Field.Sets (field : Field σ) (f : σ → σ) (text : Text) : Prop :=
  ∀ s, (field.read s).ReadsBack text (f s)

theorem Field.sets_ofDecoder {α : Type} {name text : Text} {d : Decoder α} (h : d.Shrinks)
    {set : σ → α → σ} {v : α} (hread : d.ReadsBack text v) :
    (Field.ofDecoder name d h set).Sets (set · v) text :=
  fun s => hread.map (set s)

namespace RecordForm

/-- Fields of a record, each with the change that is made through it, if there is one. -/
abbrev Changes (σ : Type) := List (Field σ × Option (σ → σ))

/-- The record with the changes made, one after the other. -/
def made (changes : Changes σ) (s : σ) : σ := changes.foldl (fun s change => change.2.getD id s) s

/-- Any two changes may be made in either order. -/
def Independent (changes : Changes σ) : Prop :=
  changes.Pairwise fun p q => ∀ f ∈ p.2, ∀ g ∈ q.2, ∀ s, f (g s) = g (f s)

theorem made_eq_self {changes : Changes σ} (h : ∀ p ∈ changes, p.2 = none) (s : σ) :
    made changes s = s := by
  induction changes with
  | nil => rfl
  | cons p changes ih =>
      obtain ⟨hp, hmore⟩ := List.forall_mem_cons.mp h
      rw [made, List.foldl_cons, hp]
      exact ih hmore

/-- A change that may change places with the others may be made before them. -/
theorem made_comm {changes : Changes σ} {f : σ → σ}
    (h : ∀ p ∈ changes, ∀ g ∈ p.2, ∀ s, g (f s) = f (g s)) (s : σ) :
    made changes (f s) = f (made changes s) := by
  induction changes generalizing s with
  | nil => rfl
  | cons p changes ih =>
      obtain ⟨hp, hmore⟩ := List.forall_mem_cons.mp h
      have first : p.2.getD id (f s) = f (p.2.getD id s) := by
        cases hchange : p.2 with
        | none => rfl
        | some g => exact hp g hchange s
      show made changes (p.2.getD id (f s)) = f (made changes (p.2.getD id s))
      rw [first]
      exact ih hmore _

theorem made_first {past todo : Changes σ} {field : Field σ} {f : σ → σ}
    (h : Independent (past ++ (field, some f) :: todo)) (s : σ) :
    made (past ++ todo) (f s) = made (past ++ (field, some f) :: todo) s := by
  have before : ∀ p ∈ past, ∀ g ∈ p.2, ∀ s, g (f s) = f (g s) := by
    intro p hp g hg
    exact (List.pairwise_append.mp h).2.2 p hp _ List.mem_cons_self g hg f rfl
  have split : ∀ changes s, made (past ++ changes) s = made changes (made past s) :=
    fun changes s => List.foldl_append
  rw [split, split, made_comm before]
  rfl

theorem apart_map {α β : Type} {set : σ → α → σ} {set' : σ → β → σ}
    (h : ∀ s v w, set (set' s w) v = set' (set s v) w) (given : Option α) (given' : Option β) :
    ∀ f ∈ given.map fun v s => set s v, ∀ g ∈ given'.map fun w s => set' s w,
      ∀ s, f (g s) = g (f s) := by
  intro f hf g hg s
  obtain ⟨v, -, rfl⟩ := Option.mem_map.mp hf
  obtain ⟨w, -, rfl⟩ := Option.mem_map.mp hg
  exact h s v w

/-! ## Reading in any order -/

variable {form : RecordForm σ}

/-- The fields of an object make the changes: each of them through a field that was not seen
before, and what has no name of the form's is a value at least. -/
structure Makes (form : RecordForm σ) (seen : List Text) (members : List (Text × Text))
    (changes : Changes σ) : Prop where
  fields : ∀ p ∈ changes, p.1 ∈ form.fields
  distinct : (changes.map fun p => p.1.name).Nodup
  unseen : ∀ p ∈ changes, p.1.name ∉ seen
  gives : ∀ p ∈ changes, Gives members p.1.name p.1.Sets p.2
  others : ∀ m ∈ members, (∀ p ∈ changes, p.1.name ≠ m.1) →
    m.1 ∉ form.fields.map Field.name ∧ IsValue m.2
  independent : Independent changes

variable {seen : List Text} {members : List (Text × Text)} {changes : Changes σ} {m : Text × Text}

theorem Makes.of_other (h : form.Makes seen (m :: members) changes)
    (hm : ∀ p ∈ changes, p.1.name ≠ m.1) : form.Makes seen members changes where
  fields := h.fields
  distinct := h.distinct
  unseen := h.unseen
  gives := fun p hp => (h.gives p hp).of_cons_ne (hm p hp).symm
  others := fun m' hm' => h.others m' (List.mem_cons_of_mem m hm')
  independent := h.independent

/-- The change of the first field is made, and the other fields make the other changes. -/
theorem Makes.of_known {past todo : Changes σ} {field : Field σ} {u : Option (σ → σ)} {text : Text}
    (h : form.Makes seen ((field.name, text) :: members) (past ++ (field, u) :: todo)) :
    (∃ f, u = some f ∧ field.Sets f text) ∧
      form.Makes (field.name :: seen) members (past ++ todo) := by
  obtain ⟨hgiven, habsent⟩ :=
    (h.gives (field, u) (List.mem_append_right past List.mem_cons_self)).of_cons_self
  have left : (past ++ todo).Sublist (past ++ (field, u) :: todo) :=
    (List.sublist_cons_self (field, u) todo).append_left past
  have apart : ∀ p ∈ past ++ todo, p.1.name ≠ field.name := by
    intro p hp
    have distinct := h.distinct
    rw [List.map_append, List.map_cons, List.nodup_middle, List.nodup_cons] at distinct
    intro heq
    refine distinct.1 ?_
    rw [← List.map_append, ← heq]
    exact List.mem_map_of_mem hp
  refine ⟨hgiven, ?_⟩
  constructor
  case fields => exact fun p hp => h.fields p (left.subset hp)
  case distinct => exact h.distinct.sublist (left.map _)
  case unseen =>
    intro p hp hmem
    rcases List.mem_cons.mp hmem with heq | hseen
    · exact apart p hp heq
    · exact h.unseen p (left.subset hp) hseen
  case gives =>
    exact fun p hp => (h.gives p (left.subset hp)).of_cons_ne (apart p hp).symm
  case others =>
    intro m hm hnone
    refine h.others m (List.mem_cons_of_mem _ hm) ?_
    intro p hp heq
    rcases List.mem_append.mp hp with hpast | hrest
    · exact hnone p (List.mem_append_left _ hpast) heq
    rcases List.mem_cons.mp hrest with rfl | htodo
    · exact habsent m hm heq.symm
    · exact hnone p (List.mem_append_right _ htodo) heq
  case independent => exact h.independent.sublist left

theorem Makes.leads (h : form.Makes seen members changes) (s : σ) :
    ∃ seen', form.Leads seen s members seen' (made changes s) := by
  induction members generalizing seen changes s with
  | nil =>
      have unchanged : made changes s = s := made_eq_self (fun p hp => (h.gives p hp).eq_none) s
      refine ⟨seen, ?_⟩
      rw [unchanged]
      exact .done
  | cons m members ih =>
      by_cases hknown : ∃ p ∈ changes, p.1.name = m.1
      -- The change of a known field is made now, which comes to the same as making it in its place.
      · obtain ⟨⟨field, u⟩, hp, hname⟩ := hknown
        obtain ⟨past, todo, rfl⟩ := List.append_of_mem hp
        obtain ⟨name, text⟩ := m
        obtain rfl : field.name = name := hname
        obtain ⟨⟨f, rfl, hset⟩, hmore⟩ := h.of_known
        obtain ⟨seen', hleads⟩ := ih hmore (f s)
        rw [made_first h.independent] at hleads
        exact ⟨seen', .known (h.fields _ hp) (h.unseen _ hp) (hset s) hleads⟩
      · have hnone : ∀ p ∈ changes, p.1.name ≠ m.1 := fun p hp heq => hknown ⟨p, hp, heq⟩
        obtain ⟨hname, hvalue⟩ := h.others m List.mem_cons_self hnone
        obtain ⟨seen', hleads⟩ := ih (h.of_other hnone) s
        exact ⟨seen', .other hname hvalue hleads⟩

/-- An object with any of the fields in any order, and with others that are values, is read as the
initial record with the changes that the fields make. -/
theorem read_anyOrder (hnames : form.DistinctNames) (hcomplete : form.complete = false) {t : Text}
    (htext : ObjectText StringText members t) (hfields : changes.map Prod.fst = form.fields)
    (hgives : ∀ p ∈ changes, Gives members p.1.name p.1.Sets p.2)
    (hothers : ∀ m ∈ members, m.1 ∉ form.fields.map Field.name → IsValue m.2)
    (hindependent : Independent changes) :
    form.read.ReadsBack t (made changes form.initial) := by
  have makes : form.Makes [] members changes := by
    constructor
    case fields => exact fun p hp => hfields ▸ List.mem_map_of_mem hp
    case distinct =>
      rw [DistinctNames, ← hfields, List.map_map] at hnames
      exact hnames
    case unseen => exact fun _ _ => List.not_mem_nil
    case gives => exact hgives
    case others =>
      intro m hm hnone
      have unknown : m.1 ∉ form.fields.map Field.name := by
        rw [← hfields, List.map_map]
        intro hmem
        obtain ⟨p, hp, heq⟩ := List.mem_map.mp hmem
        exact hnone p hp heq
      exact ⟨unknown, hothers m hm unknown⟩
    case independent => exact hindependent
  obtain ⟨seen, hleads⟩ := makes.leads form.initial
  refine read_object hnames htext hleads ?_
  intro rest
  rw [finish, hcomplete]
  rfl

end RecordForm

end NumeralLint
