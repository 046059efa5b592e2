/-
Reading JSON: decoders, and the parts that every value is made of.

A decoder reads a value at the start of a text and answers with it and with
the text after it, or with the first fault from the left.  There are three
kinds of fault: the text is not JSON, or it is JSON of another kind than was
asked for, or it ends too early.
-/
import NumeralLint.Text.Basic

namespace NumeralLint

/-- Why a text cannot be read as the value that was asked for. -/
inductive JsonFault where
  /-- The text is not JSON. -/
  | malformed
  /-- The text is JSON, but not of the kind that was asked for. -/
  | unfit
  /-- The text ends inside a value. -/
  | cutOff
deriving DecidableEq

/-- Reads a value at the start of a text, and answers with it and the text after it. -/
abbrev Decoder (α : Type) := Text → Except JsonFault (α × Text)

namespace Decoder

/-- Reads a value and changes it. -/
def map {α β : Type} (f : α → β) (d : Decoder α) : Decoder β := fun t =>
  match d t with
  | .error fault => .error fault
  | .ok (v, rest) => .ok (f v, rest)

/-- Reads a value and accepts it only if `f` does. -/
def accept {α β : Type} (f : α → Option β) (d : Decoder α) : Decoder β := fun t =>
  match d t with
  | .error fault => .error fault
  | .ok (v, rest) =>
      match f v with
      | none => .error .unfit
      | some w => .ok (w, rest)

/-- What the decoder leaves is never longer than what it was given. -/
def Shrinks {α : Type} (d : Decoder α) : Prop :=
  ∀ ⦃t v rest⦄, d t = .ok (v, rest) → rest.length ≤ t.length

theorem shrinks_map {α β : Type} {f : α → β} {d : Decoder α} (h : Shrinks d) :
    Shrinks (d.map f) := by
  intro t v rest heq
  unfold map at heq
  split at heq
  · simp at heq
  · rename_i w r hd
    cases heq
    exact h hd

theorem shrinks_accept {α β : Type} {f : α → Option β} {d : Decoder α} (h : Shrinks d) :
    Shrinks (d.accept f) := by
  intro t v rest heq
  unfold accept at heq
  split at heq
  · simp at heq
  · rename_i w r hd
    split at heq
    · simp at heq
    · cases heq
      exact h hd

end Decoder

namespace Json

/-- The blanks that may stand between the signs of JSON. -/
def isSpace (c : Char) : Bool := c ∈ [' ', '\t', '\n', '\r']

def skipSpace (t : Text) : Text := t.dropWhile isSpace

theorem length_skipSpace_le (t : Text) : (skipSpace t).length ≤ t.length :=
  (List.dropWhile_suffix isSpace).length_le

theorem length_lt_of_skipSpace {t u : Text} {c : Char} (h : skipSpace t = c :: u) :
    u.length < t.length := by
  have := length_skipSpace_le t
  rw [h, List.length_cons] at this
  exact this

/-! ## Words -/

def readWord : Text → Decoder Unit
  | [], t => .ok ((), t)
  | _ :: _, [] => .error .cutOff
  | c :: word, d :: t => if c = d then readWord word t else .error .malformed

theorem shrinks_readWord (word : Text) : Decoder.Shrinks (readWord word) := by
  intro t v rest h
  induction word generalizing t with
  | nil => cases h; exact Nat.le_refl _
  | cons c word ih =>
      cases t with
      | nil => simp [readWord] at h
      | cons d t =>
          simp only [readWord] at h
          split at h
          · exact Nat.le_succ_of_le (ih h)
          · simp at h

/-! ## Strings

The strings here are read after their opening quote. -/

def hexValue? (c : Char) : Option Nat :=
  if c.isDigit then some (c.toNat - '0'.toNat)
  else if 'a' ≤ c ∧ c ≤ 'f' then some (c.toNat - 'a'.toNat + 10)
  else if 'A' ≤ c ∧ c ≤ 'F' then some (c.toNat - 'A'.toNat + 10)
  else none

/-- Reads the four hexadecimal digits of a code unit.  The text ends too early when it has fewer
than four bytes. -/
def readUnit : Decoder Nat
  | a :: b :: c :: d :: t =>
      match hexValue? a, hexValue? b, hexValue? c, hexValue? d with
      | some w, some x, some y, some z => .ok (((w * 16 + x) * 16 + y) * 16 + z, t)
      | _, _, _, _ => .error .malformed
  | t => .error (if Text.width t < 4 then .cutOff else .malformed)

/-- Whether a code unit is the first of a surrogate pair. -/
def isLeading (unit : Nat) : Bool := 0xd800 ≤ unit && unit ≤ 0xdbff

/-- Whether a code unit is the second of a surrogate pair. -/
def isTrailing (unit : Nat) : Bool := 0xdc00 ≤ unit && unit ≤ 0xdfff

def pairChar (leading trailing : Nat) : Char :=
  Char.ofNat (0x10000 + (leading - 0xd800) * 0x400 + (trailing - 0xdc00))

/-- Reads the character that code units write, after the first `\u`. -/
def readCodeUnits : Decoder Char := fun t =>
  match readUnit t with
  | .error fault => .error fault
  | .ok (unit, rest) =>
      if isLeading unit then
        match readWord ['\\', 'u'] rest with
        | .error fault => .error fault
        | .ok (_, rest) =>
            match readUnit rest with
            | .error fault => .error fault
            | .ok (second, rest) =>
                if isTrailing second then .ok (pairChar unit second, rest) else .error .malformed
      else if isTrailing unit then .error .malformed
      else .ok (Char.ofNat unit, rest)

/-- The character that a letter after a backslash stands for. -/
def escapedChar? (c : Char) : Option Char :=
  match c with
  | '"' => some '"'
  | '\\' => some '\\'
  | '/' => some '/'
  | 'b' => some '\x08'
  | 'f' => some '\x0c'
  | 'n' => some '\n'
  | 'r' => some '\r'
  | 't' => some '\t'
  | _ => none

/-- Reads the character that an escape stands for, after the backslash. -/
def readEscape : Decoder Char
  | [] => .error .cutOff
  | c :: t =>
      if c = 'u' then readCodeUnits t
      else
        match escapedChar? c with
        | some d => .ok (d, t)
        | none => .error .malformed

theorem shrinks_readUnit : Decoder.Shrinks readUnit := by
  intro t v rest h
  unfold readUnit at h
  split at h
  · split at h
    · cases h
      exact Nat.le_add_right _ 4
    · cases h
  · cases h

theorem shrinks_readCodeUnits : Decoder.Shrinks readCodeUnits := by
  intro t v rest h
  simp only [readCodeUnits] at h
  split at h
  · simp at h
  · rename_i unit r hu
    have h₁ := shrinks_readUnit hu
    split at h
    · split at h
      · simp at h
      · rename_i r' hw
        have h₂ := shrinks_readWord _ hw
        split at h
        · simp at h
        · rename_i second r'' hs
          have h₃ := shrinks_readUnit hs
          split at h
          · simp only [Except.ok.injEq, Prod.mk.injEq] at h
            rw [← h.2]
            omega
          · simp at h
    · split at h
      · simp at h
      · cases h
        exact h₁

theorem shrinks_readEscape : Decoder.Shrinks readEscape := by
  intro t v rest h
  cases t with
  | nil => simp [readEscape] at h
  | cons c t =>
      simp only [readEscape] at h
      split at h
      · exact Nat.le_succ_of_le (shrinks_readCodeUnits h)
      · split at h
        · cases h
          simp
        · simp at h

/-- Reads the rest of a string, after the characters `done`, nearest first. -/
def readStringAfter (done : Text) : Decoder Text
  | [] => .error .cutOff
  | c :: t =>
      if c = '"' then .ok (done.reverse, t)
      else if c = '\\' then
        match _h : readEscape t with
        | .error fault => .error fault
        | .ok (d, rest) => readStringAfter (d :: done) rest
      else if c.toNat < 0x20 then .error .malformed
      else readStringAfter (c :: done) t
termination_by t => t.length
decreasing_by
  · have := shrinks_readEscape _h
    simp only [List.length_cons]
    omega
  · simp

/-- Reads a string, after its opening quote. -/
def readString : Decoder Text := readStringAfter []

theorem shrinks_readStringAfter (done : Text) : Decoder.Shrinks (readStringAfter done) := by
  intro t v rest h
  fun_induction readStringAfter done t with
  | case1 => simp at h
  | case2 => cases h; simp
  | case3 => simp at h
  | case4 done t d r hd _ ih =>
      have := shrinks_readEscape hd
      have := ih h
      simp only [List.length_cons]
      omega
  | case5 => simp at h
  | case6 done c t _ _ _ ih =>
      have := ih h
      simp only [List.length_cons]
      omega

theorem shrinks_readString : Decoder.Shrinks readString := shrinks_readStringAfter []

end Json

end NumeralLint
