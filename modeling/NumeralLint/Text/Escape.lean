/-
The backslash as escape: a text as a sequence of atoms.

A backslash takes the character after it along, so `\\%` is a line break
before a comment and `\%` is a percent sign.  The row terminator, the start
of a comment, display math and the end of a group are all read on atoms,
and so agree on which characters are escaped.  `spell_atoms` says that
nothing of the text is lost.
-/
import NumeralLint.Text.Basic

namespace NumeralLint

/-- What the backslash leaves undivided: a character by itself, or a backslash with the character
that it escapes.  A backslash at the end of the text stands by itself. -/
inductive Atom where
  | plain (c : Char)
  | escaped (c : Char)
deriving DecidableEq

namespace Atom

def text : Atom → Text
  | plain c => [c]
  | escaped c => ['\\', c]

/-- The row terminator of a table. -/
def rowTerminator : Atom := escaped '\\'

/-- The start of a comment. -/
def commentSign : Atom := plain '%'

/-- The end of a group. -/
def groupEnd : Atom := plain '}'

end Atom

namespace Text

/-- The atoms of a text, in order. -/
def atoms : Text → List Atom
  | [] => []
  | [c] => [.plain c]
  | c :: d :: t => if c = '\\' then .escaped d :: atoms t else .plain c :: atoms (d :: t)

/-- The text that a list of atoms spells. -/
def spell (as : List Atom) : Text := as.flatMap Atom.text

/-- The atoms of a text spell the text. -/
theorem spell_atoms (t : Text) : spell (atoms t) = t := by
  fun_induction atoms t with
  | case1 => rfl
  | case2 c => rfl
  | case3 d t ih => simp_all [spell, Atom.text]
  | case4 c d t h ih => simp_all [spell, Atom.text]

/-- The text before the first atom `a`; all of it if there is none. -/
def beforeAtom (a : Atom) : Text → Text
  | [] => []
  | [c] => if .plain c = a then [] else [c]
  | c :: d :: t =>
      if c = '\\' then if .escaped d = a then [] else c :: d :: beforeAtom a t
      else if .plain c = a then [] else c :: beforeAtom a (d :: t)

/-- The text from the first atom `a` on; nothing if there is none. -/
def fromAtom (a : Atom) : Text → Text
  | [] => []
  | [c] => if .plain c = a then [c] else []
  | c :: d :: t =>
      if c = '\\' then if .escaped d = a then c :: d :: t else fromAtom a t
      else if .plain c = a then c :: d :: t else fromAtom a (d :: t)

/-- The text before the first atom `a` is spelled by the atoms before it. -/
theorem beforeAtom_eq_spell (a : Atom) (t : Text) :
    beforeAtom a t = spell ((atoms t).takeWhile (· != a)) := by
  fun_induction beforeAtom a t with
  | case1 => rfl
  | case2 c h => simp [atoms, spell, h]
  | case3 c h => simp [atoms, spell, Atom.text, h]
  | case4 d t h => simp [atoms, spell, h]
  | case5 d t h ih => simp [atoms, spell, Atom.text, h, ih]
  | case6 c d t hc h => simp [atoms, spell, hc, h]
  | case7 c d t hc h ih => simp [atoms, spell, Atom.text, hc, h, ih]

/-- The text from the first atom `a` on is spelled by the atoms from it on. -/
theorem fromAtom_eq_spell (a : Atom) (t : Text) :
    fromAtom a t = spell ((atoms t).dropWhile (· != a)) := by
  fun_induction fromAtom a t with
  | case1 => rfl
  | case2 c h => subst h; simp [atoms, spell, Atom.text]
  | case3 c h => simp [atoms, spell, h]
  | case4 d t h =>
      subst h
      have := spell_atoms t
      simp_all [atoms, spell, Atom.text]
  | case5 d t h ih => simp [atoms, h, ih]
  | case6 c d t hc h =>
      subst h
      have := spell_atoms (d :: t)
      simp_all [atoms, spell, Atom.text]
  | case7 c d t hc h ih => simp [atoms, hc, h, ih]

/-- Whether the atom `a` occurs in the text. -/
def hasAtom (a : Atom) (t : Text) : Bool := (atoms t).contains a

/-- The text before an atom and the text from it on make up the text. -/
theorem beforeAtom_append_fromAtom (a : Atom) (t : Text) :
    beforeAtom a t ++ fromAtom a t = t := by
  conv => rhs; rw [← spell_atoms t]
  simp only [beforeAtom_eq_spell, fromAtom_eq_spell, spell]
  rw [← List.flatMap_append, List.takeWhile_append_dropWhile]

/-- The places of the atoms `a` in a list of atoms of which the first stands at `place`. -/
def atomPlaces (a : Atom) : Nat → List Atom → List Nat
  | _, [] => []
  | place, b :: bs =>
      let rest := atomPlaces a (place + width b.text) bs
      if b = a then place :: rest else rest

end Text

end NumeralLint
