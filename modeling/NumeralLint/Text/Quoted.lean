/-
Quoted texts, as log records show them.

A text is written between quotes with the quote, the backslash and the usual
controls behind a backslash, and with characters that do not show as their
code points in hexadecimal digits.  A list of characters is written between
brackets, each between single quotes.
-/
import NumeralLint.Text.Basic
import NumeralLint.Text.Printable

namespace NumeralLint

namespace Text

/-- The digits of `n` in base 16, in small letters and without leading zeros. -/
def hexDigits (n : Nat) : Text := Nat.toDigits 16 n

/-- A character inside a text between the quotes `quote`. -/
def quoteChar (quote c : Char) : Text :=
  if c = quote ∨ c = '\\' then ['\\', c]
  else if c = '\t' then ['\\', 't']
  else if c = '\n' then ['\\', 'n']
  else if c = '\r' then ['\\', 'r']
  else if c = '\x00' then ['\\', '0']
  else if isPrintable c then [c]
  else "\\u\x7b".toList ++ hexDigits c.toNat ++ ['}']

def quoted (t : Text) : Text := '"' :: t.flatMap (quoteChar '"') ++ ['"']

def quotedChar (c : Char) : Text := '\'' :: quoteChar '\'' c ++ ['\'']

/-- The characters between brackets, each between single quotes. -/
def quotedChars (cs : List Char) : Text :=
  '[' :: List.intercalate [',', ' '] (cs.map quotedChar) ++ [']']

end Text

end NumeralLint
