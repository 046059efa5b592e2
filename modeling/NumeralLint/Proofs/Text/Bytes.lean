/-
Texts as bytes, and loops over bytes that step over escaped ones.

A loop over the bytes of a text that passes a backslash together with one
byte after it may land inside a character, since the character after a
backslash can have several bytes.  That does no harm where the loop looks for
characters of ASCII: the other bytes of a character are all large
(`large_of_mem_encode`), so they are passed one at a time until the next
character starts, and the loop meets just the atoms of the text
(`bytePlaces_utf8`).
-/
import NumeralLint.Proofs.Text.Escape

namespace NumeralLint

namespace Text

/-! ## Bytes of characters -/

/-- The bytes of a text in UTF-8. -/
def utf8 (t : Text) : List UInt8 := t.flatMap String.utf8EncodeChar

@[simp] theorem utf8_nil : utf8 [] = [] := rfl

@[simp] theorem utf8_cons (c : Char) (t : Text) :
    utf8 (c :: t) = String.utf8EncodeChar c ++ utf8 t := by
  simp [utf8]

@[simp] theorem utf8_append (s t : Text) : utf8 (s ++ t) = utf8 s ++ utf8 t := by
  simp [utf8]

theorem length_utf8 (t : Text) : (utf8 t).length = width t := by
  induction t with
  | nil => rfl
  | cons c t ih => rw [utf8_cons, List.length_append, String.length_utf8EncodeChar, ih, width_cons]

theorem drop_utf8 (s t : Text) : (utf8 (s ++ t)).drop s.width = utf8 t := by
  rw [utf8_append, ← length_utf8, List.drop_left]

/-- The byte of a character of ASCII. -/
def asciiByte (c : Char) : UInt8 := UInt8.ofNat c.toNat

def IsAscii (c : Char) : Prop := c.toNat < 128

instance (c : Char) : Decidable (IsAscii c) := inferInstanceAs (Decidable (_ < _))

theorem encode_of_isAscii {c : Char} (h : IsAscii c) : String.utf8EncodeChar c = [asciiByte c] := by
  have small : c.val.toNat ≤ 127 := Nat.lt_succ_iff.mp h
  simp only [String.utf8EncodeChar, if_pos small]
  rfl

/-- Every byte of a character outside ASCII is large. -/
theorem large_of_mem_encode {c : Char} (h : ¬IsAscii c) {b : UInt8}
    (hb : b ∈ String.utf8EncodeChar c) : 128 ≤ b.toNat := by
  have large : ¬c.val.toNat ≤ 127 := fun hle => h (Nat.lt_succ_of_le hle)
  rw [String.utf8EncodeChar, if_neg large] at hb
  split at hb
  · simp only [List.mem_cons, List.not_mem_nil, or_false] at hb
    rcases hb with rfl | rfl <;> simp only [UInt8.toNat_ofNat'] <;> omega
  split at hb
  · simp only [List.mem_cons, List.not_mem_nil, or_false] at hb
    rcases hb with rfl | rfl | rfl <;> simp only [UInt8.toNat_ofNat'] <;> omega
  · simp only [List.mem_cons, List.not_mem_nil, or_false] at hb
    rcases hb with rfl | rfl | rfl | rfl <;> simp only [UInt8.toNat_ofNat'] <;> omega

theorem asciiByte_inj {c d : Char} (hc : IsAscii c) (hd : IsAscii d) :
    asciiByte c = asciiByte d ↔ c = d := by
  constructor
  · intro h
    have same := congrArg UInt8.toNat h
    simp only [asciiByte, UInt8.toNat_ofNat'] at same
    have hc' : c.toNat < 128 := hc
    have hd' : d.toNat < 128 := hd
    exact Char.toNat_inj.mp (by omega)
  · rintro rfl
    rfl

theorem toNat_asciiByte {c : Char} (h : IsAscii c) : (asciiByte c).toNat = c.toNat := by
  have h' : c.toNat < 128 := h
  rw [asciiByte, UInt8.toNat_ofNat']
  omega

/-! ## Loops over bytes -/

/-- The byte of a backslash. -/
def backslash : UInt8 := asciiByte '\\'

/-- The places, counted from `place` on, where a loop over bytes meets the bytes `hit`.  The loop
steps over one byte, or over a backslash with the byte after it. -/
def bytePlaces (hit : List UInt8) (place : Nat) : List UInt8 → List Nat
  | [] => []
  | [b] => if [b] = hit then [place] else []
  | b :: d :: bytes =>
      if b = backslash then
        if [b, d] = hit then place :: bytePlaces hit (place + 2) bytes
        else bytePlaces hit (place + 2) bytes
      else if [b] = hit then place :: bytePlaces hit (place + 1) (d :: bytes)
      else bytePlaces hit (place + 1) (d :: bytes)

variable {hit : List UInt8}

theorem bytePlaces_cons {b : UInt8} (hb : b ≠ backslash) (place : Nat) (bytes : List UInt8) :
    bytePlaces hit place (b :: bytes) =
      if [b] = hit then place :: bytePlaces hit (place + 1) bytes
      else bytePlaces hit (place + 1) bytes := by
  cases bytes with
  | nil => rfl
  | cons d bytes => rw [bytePlaces, if_neg hb]

theorem bytePlaces_backslash (place : Nat) (d : UInt8) (bytes : List UInt8) :
    bytePlaces hit place (backslash :: d :: bytes) =
      if [backslash, d] = hit then place :: bytePlaces hit (place + 2) bytes
      else bytePlaces hit (place + 2) bytes := by
  rw [bytePlaces, if_pos rfl]

theorem ne_backslash_of_large {b : UInt8} (hb : 128 ≤ b.toNat) : b ≠ backslash := by
  rintro rfl
  exact absurd hb (by decide)

/-- A loop for small bytes passes the large ones. -/
theorem bytePlaces_large (hhit : ∀ b ∈ hit, b.toNat < 128) {large : List UInt8}
    (hlarge : ∀ b ∈ large, 128 ≤ b.toNat) (place : Nat) (bytes : List UInt8) :
    bytePlaces hit place (large ++ bytes) = bytePlaces hit (place + large.length) bytes := by
  induction large generalizing place with
  | nil => rfl
  | cons b large ih =>
      obtain ⟨hb, hmore⟩ := List.forall_mem_cons.mp hlarge
      have noHit : [b] ≠ hit := by
        rintro rfl
        exact absurd (hhit b List.mem_cons_self) (by omega)
      rw [List.cons_append, bytePlaces_cons (ne_backslash_of_large hb), if_neg noHit, ih hmore,
        List.length_cons, Nat.add_assoc, Nat.add_comm 1]

theorem le_of_mem_bytePlaces {bytes : List UInt8} {place p : Nat}
    (h : p ∈ bytePlaces hit place bytes) : place ≤ p := by
  fun_induction bytePlaces hit place bytes with
  | case1 => exact absurd h List.not_mem_nil
  | case2 => exact Nat.le_of_eq (List.mem_singleton.mp h).symm
  | case3 => exact absurd h List.not_mem_nil
  | case4 place d bytes _ ih | case6 place b d bytes _ _ ih =>
      rcases List.mem_cons.mp h with rfl | h
      · exact Nat.le_refl _
      · have := ih h
        omega
  | case5 place d bytes _ ih | case7 place b d bytes _ _ ih =>
      have := ih h
      omega

/-! ## The atoms that a loop meets -/

/-- The character of the atom, escaped or not, is one of ASCII. -/
def AtomIsAscii : Atom → Prop
  | .plain c => IsAscii c
  | .escaped c => IsAscii c

instance : (a : Atom) → Decidable (AtomIsAscii a)
  | .plain c => inferInstanceAs (Decidable (IsAscii c))
  | .escaped c => inferInstanceAs (Decidable (IsAscii c))

variable {a : Atom}

theorem isAscii_backslash : IsAscii '\\' := by decide

theorem small_of_mem_utf8 (ha : AtomIsAscii a) : ∀ b ∈ utf8 a.text, b.toNat < 128 := by
  have ascii : ∀ c ∈ a.text, IsAscii c := by
    intro c hc
    cases a with
    | plain d =>
        obtain rfl := List.mem_singleton.mp hc
        exact ha
    | escaped d =>
        rcases List.mem_cons.mp hc with rfl | hc
        · exact isAscii_backslash
        · obtain rfl := List.mem_singleton.mp hc
          exact ha
  intro b hb
  obtain ⟨c, hc, hmem⟩ := List.mem_flatMap.mp hb
  rw [encode_of_isAscii (ascii c hc)] at hmem
  obtain rfl := List.mem_singleton.mp hmem
  rw [toNat_asciiByte (ascii c hc)]
  exact ascii c hc

theorem utf8_plain_eq_iff (ha : AtomIsAscii a) {c : Char} (hc : IsAscii c) :
    [asciiByte c] = utf8 a.text ↔ Atom.plain c = a := by
  cases a with
  | plain d =>
      have hd : IsAscii d := ha
      simp [Atom.text, encode_of_isAscii hd, asciiByte_inj hc hd]
  | escaped d =>
      have hd : IsAscii d := ha
      simp [Atom.text, encode_of_isAscii hd, encode_of_isAscii isAscii_backslash]

theorem utf8_escaped_eq_iff (ha : AtomIsAscii a) {c : Char} (hc : IsAscii c) :
    [backslash, asciiByte c] = utf8 a.text ↔ Atom.escaped c = a := by
  cases a with
  | plain d =>
      have hd : IsAscii d := ha
      simp [Atom.text, encode_of_isAscii hd]
  | escaped d =>
      have hd : IsAscii d := ha
      simp [Atom.text, encode_of_isAscii hd, encode_of_isAscii isAscii_backslash,
        asciiByte_inj hc hd, backslash]

/-- An atom of ASCII is not a character of another kind, and does not escape one. -/
theorem ne_of_not_isAscii (ha : AtomIsAscii a) {c : Char} (hc : ¬IsAscii c) :
    Atom.plain c ≠ a ∧ Atom.escaped c ≠ a := by
  constructor <;> rintro rfl <;> exact hc ha

/-- A character that is not a backslash is passed, whatever its bytes are. -/
theorem bytePlaces_utf8_cons (ha : AtomIsAscii a) {c : Char} (hc : c ≠ '\\') (place : Nat)
    (t : Text) : bytePlaces (utf8 a.text) place (utf8 (c :: t)) =
      if Atom.plain c = a then place :: bytePlaces (utf8 a.text) (place + c.utf8Size) (utf8 t)
      else bytePlaces (utf8 a.text) (place + c.utf8Size) (utf8 t) := by
  rw [utf8_cons, ← String.length_utf8EncodeChar]
  by_cases hascii : IsAscii c
  · have notBackslash : asciiByte c ≠ backslash :=
      fun h => hc ((asciiByte_inj hascii (by decide)).mp h)
    rw [encode_of_isAscii hascii, List.singleton_append, bytePlaces_cons notBackslash]
    simp only [utf8_plain_eq_iff ha hascii, List.length_singleton]
  · rw [if_neg (ne_of_not_isAscii ha hascii).1]
    exact bytePlaces_large (small_of_mem_utf8 ha) (fun _ hb => large_of_mem_encode hascii hb)
      place _

/-- A backslash is passed with the first byte of the character after it; the other bytes of the
character are large. -/
theorem bytePlaces_utf8_escaped (ha : AtomIsAscii a) (c : Char) (place : Nat) (t : Text) :
    bytePlaces (utf8 a.text) place (utf8 ('\\' :: c :: t)) =
      if Atom.escaped c = a then
        place :: bytePlaces (utf8 a.text) (place + (1 + c.utf8Size)) (utf8 t)
      else bytePlaces (utf8 a.text) (place + (1 + c.utf8Size)) (utf8 t) := by
  have sign : String.utf8EncodeChar '\\' = [backslash] := rfl
  rw [utf8_cons, utf8_cons, sign, List.singleton_append, ← String.length_utf8EncodeChar]
  by_cases hascii : IsAscii c
  · rw [encode_of_isAscii hascii, List.singleton_append, bytePlaces_backslash]
    simp only [utf8_escaped_eq_iff ha hascii, List.length_singleton]
  · rw [if_neg (ne_of_not_isAscii ha hascii).2]
    have large : ∀ b ∈ String.utf8EncodeChar c, 128 ≤ b.toNat :=
      fun _ hb => large_of_mem_encode hascii hb
    cases hbytes : String.utf8EncodeChar c with
    | nil => exact absurd hbytes String.utf8EncodeChar_ne_nil
    | cons b bytes =>
        rw [hbytes] at large
        obtain ⟨hb, hmore⟩ := List.forall_mem_cons.mp large
        have noHit : [backslash, b] ≠ utf8 a.text := by
          intro h
          have := small_of_mem_utf8 ha b (h ▸ by simp)
          omega
        have length : place + 2 + bytes.length = place + (1 + (b :: bytes).length) := by
          rw [List.length_cons]
          omega
        rw [List.cons_append, bytePlaces_backslash, if_neg noHit,
          bytePlaces_large (small_of_mem_utf8 ha) hmore, length]

/-- A loop over the bytes of a text meets an atom of ASCII just where it is among the atoms. -/
theorem bytePlaces_utf8 (ha : AtomIsAscii a) (place : Nat) (t : Text) :
    bytePlaces (utf8 a.text) place (utf8 t) = atomPlaces a place (atoms t) := by
  fun_induction atoms t generalizing place with
  | case1 => rfl
  | case2 c =>
      by_cases hc : c = '\\'
      · subst hc
        have last := utf8_plain_eq_iff ha (c := '\\') (by decide)
        show (if [asciiByte '\\'] = utf8 a.text then [place] else []) = _
        simp only [last, atomPlaces]
      · rw [bytePlaces_utf8_cons ha hc, utf8_nil, bytePlaces, atomPlaces, atomPlaces]
  | case3 d t ih =>
      rw [bytePlaces_utf8_escaped ha, ih, atomPlaces]
      rfl
  | case4 c d t hc ih =>
      rw [bytePlaces_utf8_cons ha hc, ih, atomPlaces]
      rfl

/-- The places where a loop over the bytes of a text meets an atom. -/
def loopPlaces (a : Atom) (t : Text) : List Nat := bytePlaces (utf8 a.text) 0 (utf8 t)

theorem loopPlaces_eq (ha : AtomIsAscii a) (t : Text) :
    loopPlaces a t = atomPlaces a 0 (atoms t) :=
  bytePlaces_utf8 ha 0 t

/-- The loop passes the first byte of a letter with the backslash, and the second one by itself. -/
example : loopPlaces .rowTerminator "\\é\\\\ü\\".toList = [3] := by decide

/-- A loop that stops at an atom of ASCII stops where the text before the first one ends, or at the
end of the text. -/
theorem bytePlaces_cases (ha : AtomIsAscii a) (place : Nat) (t : Text) :
    (bytePlaces (utf8 a.text) place (utf8 t) = [] ∧ beforeAtom a t = t ∧ fromAtom a t = []) ∨
      ∃ more rest, bytePlaces (utf8 a.text) place (utf8 t) =
        (place + (beforeAtom a t).width) :: more ∧ fromAtom a t = a.text ++ rest := by
  rw [bytePlaces_utf8 ha]
  rcases atoms_split a t with h | ⟨as, bs, hsplit, hfirst, -⟩
  · exact Or.inl ⟨atomPlaces_of_not_mem h place, beforeAtom_of_not_mem h, fromAtom_of_not_mem h⟩
  · have places := atomPlaces_append hfirst place bs
    rw [← hsplit, ← beforeAtom_of_atoms hsplit hfirst] at places
    exact Or.inr ⟨_, _, places, fromAtom_of_atoms hsplit hfirst⟩

theorem exists_of_mem_atomPlaces {as : List Atom} {place p : Nat}
    (h : p ∈ atomPlaces a place as) :
    ∃ before after, as = before ++ a :: after ∧ p = place + width (spell before) := by
  induction as generalizing place with
  | nil => exact absurd h List.not_mem_nil
  | cons b as ih =>
      have later : p ∈ atomPlaces a (place + width b.text) as →
          ∃ before after, b :: as = before ++ a :: after ∧ p = place + width (spell before) := by
        intro hlater
        obtain ⟨before, after, rfl, rfl⟩ := ih hlater
        refine ⟨b :: before, after, rfl, ?_⟩
        rw [spell_cons, width_append, Nat.add_assoc]
      rw [atomPlaces] at h
      split at h
      · next hb =>
          rcases List.mem_cons.mp h with rfl | h
          · exact ⟨[], as, by rw [hb]; rfl, rfl⟩
          · exact later h
      · exact later h

/-- Where a loop meets an atom of ASCII, the atom stands in the text. -/
theorem exists_of_mem_loopPlaces (ha : AtomIsAscii a) {t : Text} {p : Nat}
    (h : p ∈ loopPlaces a t) : ∃ s u, t = s ++ a.text ++ u ∧ p = width s := by
  rw [loopPlaces_eq ha] at h
  obtain ⟨before, after, hatoms, rfl⟩ := exists_of_mem_atomPlaces h
  refine ⟨spell before, spell after, ?_, Nat.zero_add _⟩
  conv => lhs; rw [← spell_atoms t, hatoms]
  rw [spell_append, spell_cons, List.append_assoc]

end Text

end NumeralLint
