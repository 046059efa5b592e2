/-
Strings as they may be written.

A character stands in a string as itself, as a letter behind a backslash, or
as its code units in hexadecimal digits: one unit, or the two of a surrogate
pair (`CharText`).  Whichever is chosen, the character is read, and what the
writer chooses is one of them (`charText_escapeChar`).  Strings that are passed
over need not be texts: the units in them may be any (`StringPart`).
-/
import NumeralLint.Json.Skip
import NumeralLint.Proofs.Json.ReadBack

namespace NumeralLint

open Decoder

namespace Json

variable {c : Char} {n : Nat} {t u rest : Text}

/-! ## Code units -/

/-- Four hexadecimal digits, in letters of either size, for a code unit. -/
inductive UnitText : Nat → Text → Prop
  | digits {a b c d : Char} {w x y z : Nat} : hexValue? a = some w → hexValue? b = some x →
      hexValue? c = some y → hexValue? d = some z →
      UnitText (((w * 16 + x) * 16 + y) * 16 + z) [a, b, c, d]

theorem readUnit_unitText (h : UnitText n u) (rest : Text) :
    readUnit (u ++ rest) = .ok (n, rest) := by
  cases h with
  | digits ha hb hc hd => simp only [List.cons_append, List.nil_append, readUnit, ha, hb, hc, hd]

theorem hexValue?_hexDigit : ∀ n < 16, hexValue? (hexDigit n) = some n := by decide

theorem unitText_control (h : n < 0x20) :
    UnitText n ['0', '0', hexDigit (n / 16), hexDigit (n % 16)] := by
  have zero : hexValue? '0' = some 0 := rfl
  have high := hexValue?_hexDigit (n / 16) (by omega)
  have low := hexValue?_hexDigit (n % 16) (by omega)
  have value : ((0 * 16 + 0) * 16 + n / 16) * 16 + n % 16 = n := by omega
  have unit := UnitText.digits zero zero high low
  rwa [value] at unit

/-! ## Characters -/

/-- What may stand for a character in a string. -/
inductive CharText : Char → Text → Prop
  | plain {c : Char} : c ≠ '"' → c ≠ '\\' → 0x20 ≤ c.toNat → CharText c [c]
  | letter {c l : Char} : escapedChar? l = some c → CharText c ['\\', l]
  | unit {c : Char} {u : Text} : UnitText c.toNat u → CharText c ('\\' :: 'u' :: u)
  | pair {c : Char} {leading trailing : Text} : 0x10000 ≤ c.toNat →
      UnitText (0xd800 + (c.toNat - 0x10000) / 0x400) leading →
      UnitText (0xdc00 + (c.toNat - 0x10000) % 0x400) trailing →
      CharText c ('\\' :: 'u' :: leading ++ '\\' :: 'u' :: trailing)

theorem toNat_valid (c : Char) : c.toNat < 0xd800 ∨ 0xdfff < c.toNat ∧ c.toNat < 0x110000 :=
  c.valid

theorem readEscape_letter {l : Char} (h : escapedChar? l = some c) (rest : Text) :
    readEscape (l :: rest) = .ok (c, rest) := by
  have notUnit : l ≠ 'u' := by
    rintro rfl
    have none : escapedChar? 'u' = none := rfl
    exact absurd (h.symm.trans none) (Option.some_ne_none c)
  rw [readEscape, if_neg notUnit, h]

theorem readEscape_unit (h : UnitText c.toNat u) (rest : Text) :
    readEscape ('u' :: (u ++ rest)) = .ok (c, rest) := by
  have notLeading : isLeading c.toNat = false := by
    simp only [isLeading, Bool.and_eq_false_iff, decide_eq_false_iff_not]
    have := toNat_valid c
    omega
  have notTrailing : isTrailing c.toNat = false := by
    simp only [isTrailing, Bool.and_eq_false_iff, decide_eq_false_iff_not]
    have := toNat_valid c
    omega
  rw [readEscape, if_pos rfl, readCodeUnits, readUnit_unitText h]
  simp [notLeading, notTrailing, Char.ofNat_toNat]

theorem readEscape_pair {leading trailing : Text} (hc : 0x10000 ≤ c.toNat)
    (hleading : UnitText (0xd800 + (c.toNat - 0x10000) / 0x400) leading)
    (htrailing : UnitText (0xdc00 + (c.toNat - 0x10000) % 0x400) trailing) (rest : Text) :
    readEscape ('u' :: (leading ++ '\\' :: 'u' :: (trailing ++ rest))) = .ok (c, rest) := by
  have isFirst : isLeading (0xd800 + (c.toNat - 0x10000) / 0x400) = true := by
    simp only [isLeading, Bool.and_eq_true, decide_eq_true_eq]
    have := toNat_valid c
    omega
  have isSecond : isTrailing (0xdc00 + (c.toNat - 0x10000) % 0x400) = true := by
    simp only [isTrailing, Bool.and_eq_true, decide_eq_true_eq]
    omega
  have whole : 0x10000 + (0xd800 + (c.toNat - 0x10000) / 0x400 - 0xd800) * 0x400
      + (0xdc00 + (c.toNat - 0x10000) % 0x400 - 0xdc00) = c.toNat := by
    omega
  rw [readEscape, if_pos rfl, readCodeUnits, readUnit_unitText hleading]
  simp only [isFirst, if_true, readWord, readUnit_unitText htrailing, isSecond]
  rw [pairChar, whole, Char.ofNat_toNat]

theorem readStringAfter_escape (h : readEscape t = .ok (c, rest)) (done : Text) :
    readStringAfter done ('\\' :: t) = readStringAfter (c :: done) rest := by
  rw [readStringAfter, if_neg (by decide), if_pos rfl]
  split
  · next hfault => rw [h] at hfault; cases hfault
  · next hread => rw [h] at hread; cases hread; rfl

/-- A character is read from whatever may stand for it. -/
theorem readStringAfter_charText (h : CharText c u) (done rest : Text) :
    readStringAfter done (u ++ rest) = readStringAfter (c :: done) rest := by
  cases h with
  | plain notQuote notBackslash notControl =>
      rw [List.singleton_append, readStringAfter, if_neg notQuote, if_neg notBackslash,
        if_neg (Nat.not_lt.mpr notControl)]
  | letter hl => exact readStringAfter_escape (readEscape_letter hl rest) done
  | unit hu => exact readStringAfter_escape (readEscape_unit hu rest) done
  | pair hc hleading htrailing =>
      simp only [List.cons_append, List.append_assoc]
      exact readStringAfter_escape (readEscape_pair hc hleading htrailing rest) done

/-- What the writer puts for a character may stand for it. -/
theorem charText_escapeChar (c : Char) : CharText c (escapeChar c) := by
  rw [escapeChar]
  split
  · next h =>
      refine .letter ?_
      rcases h with rfl | rfl <;> rfl
  next notQuoted =>
  split
  · next h => subst h; exact .letter rfl
  split
  · next h => subst h; exact .letter rfl
  split
  · next h => subst h; exact .letter rfl
  split
  · next h => subst h; exact .letter rfl
  split
  · next h => subst h; exact .letter rfl
  split
  · next h => exact .unit (unitText_control h)
  · next h =>
      obtain ⟨notQuote, notBackslash⟩ := not_or.mp notQuoted
      exact .plain notQuote notBackslash (Nat.not_lt.mp h)

/-! ## Texts -/

/-- What may stand for the characters of a text, one after the other. -/
inductive CharsText : Text → Text → Prop
  | nil : CharsText [] []
  | cons {c : Char} {t u body : Text} : CharText c u → CharsText t body →
      CharsText (c :: t) (u ++ body)

/-- The text `literal` writes `t` as a string. -/
def StringText (t literal : Text) : Prop :=
  ∃ body, CharsText t body ∧ literal = '"' :: (body ++ ['"'])

theorem charsText_flatMap_escapeChar (t : Text) : CharsText t (t.flatMap escapeChar) := by
  induction t with
  | nil => exact .nil
  | cons c t ih => exact .cons (charText_escapeChar c) ih

theorem stringText_quote (t : Text) : StringText t (quote t) :=
  ⟨_, charsText_flatMap_escapeChar t, rfl⟩

theorem readStringAfter_charsText {body : Text} (h : CharsText t body) (done rest : Text) :
    readStringAfter done (body ++ '"' :: rest) = .ok (done.reverse ++ t, rest) := by
  induction h generalizing done with
  | nil => rw [List.nil_append, readStringAfter, if_pos rfl, List.append_nil]
  | @cons c t u body hc _ ih =>
      rw [List.append_assoc, readStringAfter_charText hc, ih, List.reverse_cons,
        List.append_assoc, List.singleton_append]

/-- A string is its opening quote and what is read as its text. -/
theorem StringText.exists_append {literal : Text} (h : StringText t literal) (rest : Text) :
    ∃ u, literal ++ rest = '"' :: u ∧ readString u = .ok (t, rest) := by
  obtain ⟨body, hbody, rfl⟩ := h
  refine ⟨body ++ '"' :: rest, by simp, ?_⟩
  exact readStringAfter_charsText hbody [] rest

theorem StringText.readText {literal : Text} (h : StringText t literal) :
    readText.ReadsBack literal t where
  starts := by
    obtain ⟨body, -, rfl⟩ := h
    exact ⟨'"', _, rfl, rfl, by decide⟩
  reads := by
    intro gap rest hgap _
    obtain ⟨u, heq, hread⟩ := h.exists_append rest
    rw [List.append_assoc, heq, Json.readText, skipSpace_append hgap rfl]
    exact hread

theorem readText_quote (t : Text) : readText.ReadsBack (quote t) t := (stringText_quote t).readText

/-- A string of one character is that character. -/
theorem StringText.readChar {literal : Text} (h : StringText [c] literal) :
    readChar.ReadsBack literal c := h.readText.accept rfl

/-! ## Strings that are passed over -/

/-- A part of a string that is one character or one code unit. -/
inductive StringPart : Text → Prop
  | plain {c : Char} : c ≠ '"' → c ≠ '\\' → 0x20 ≤ c.toNat → StringPart [c]
  | letter {l : Char} : (escapedChar? l).isSome = true → StringPart ['\\', l]
  | unit {n : Nat} {u : Text} : UnitText n u → StringPart ('\\' :: 'u' :: u)

/-- The text is a string, which need not be one of Unicode characters. -/
def IsString (t : Text) : Prop :=
  ∃ parts : List Text, (∀ part ∈ parts, StringPart part) ∧ t = '"' :: (parts.flatten ++ ['"'])

theorem skipString_escape (h : skipEscape t = .ok ((), rest)) :
    skipString ('\\' :: t) = skipString rest := by
  rw [skipString, if_neg (by decide), if_pos rfl]
  split
  · next hfault => rw [h] at hfault; cases hfault
  · next hskip => rw [h] at hskip; cases hskip; rfl

theorem skipString_part (h : StringPart u) (rest : Text) :
    skipString (u ++ rest) = skipString rest := by
  cases h with
  | plain notQuote notBackslash notControl =>
      rw [List.singleton_append, skipString, if_neg notQuote, if_neg notBackslash,
        if_neg (Nat.not_lt.mpr notControl)]
  | @letter l hl =>
      refine skipString_escape ?_
      have notUnit : l ≠ 'u' := by
        rintro rfl
        exact absurd hl (by decide)
      show skipEscape (l :: rest) = .ok ((), rest)
      rw [skipEscape, if_neg notUnit, if_pos hl]
  | @unit n u hu =>
      refine skipString_escape ?_
      show skipEscape ('u' :: (u ++ rest)) = .ok ((), rest)
      rw [skipEscape, if_pos rfl, Decoder.map, readUnit_unitText hu]

theorem IsString.skipString {literal : Text} (h : IsString literal) (rest : Text) :
    ∃ u, literal ++ rest = '"' :: u ∧ skipString u = .ok ((), rest) := by
  obtain ⟨parts, hparts, rfl⟩ := h
  refine ⟨parts.flatten ++ '"' :: rest, by simp, ?_⟩
  induction parts with
  | nil => rw [List.flatten_nil, List.nil_append, Json.skipString, if_pos rfl]
  | cons part parts ih =>
      obtain ⟨hpart, hmore⟩ := List.forall_mem_cons.mp hparts
      rw [List.flatten_cons, List.append_assoc, skipString_part hpart]
      exact ih hmore

end Json

end NumeralLint
