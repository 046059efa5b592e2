/-
JSON values and how they are written.

There are two forms: compact, without any blanks, and pretty, with every item
on a line of its own.  A number is kept as the text that writes it, so the
choice of digits is made where the number comes from.
-/
import NumeralLint.Text.Digits

namespace NumeralLint

inductive JsonValue where
  | null
  | bool (b : Bool)
  /-- A number, as the text that writes it. -/
  | number (literal : Text)
  | string (t : Text)
  | array (items : List JsonValue)
  /-- An object, with its fields in the order in which they are written. -/
  | object (fields : List (Text × JsonValue))

namespace Json

/-- A hexadecimal digit, in small letters. -/
def hexDigit (n : Nat) : Char := Nat.digitChar n

/-- A character inside a JSON string: the quote, the backslash and controls are escaped. -/
def escapeChar (c : Char) : Text :=
  if c = '"' ∨ c = '\\' then ['\\', c]
  else if c = '\x08' then ['\\', 'b']
  else if c = '\t' then ['\\', 't']
  else if c = '\n' then ['\\', 'n']
  else if c = '\x0c' then ['\\', 'f']
  else if c = '\r' then ['\\', 'r']
  else if c.toNat < 0x20 then
    ['\\', 'u', '0', '0', hexDigit (c.toNat / 16), hexDigit (c.toNat % 16)]
  else [c]

def quote (t : Text) : Text := '"' :: t.flatMap escapeChar ++ ['"']

/-- A line break and the blanks before an item at a depth of nesting. -/
def lineBreak (depth : Nat) : Text := '\n' :: List.replicate (2 * depth) ' '

end Json

namespace JsonValue

open Json

def ofNat (n : Nat) : JsonValue := number (Text.ofNat n)

/-! ## The compact form -/

mutual

/-- A value without blanks. -/
def compact : JsonValue → Text
  | null => "null".toList
  | bool b => (if b then "true" else "false").toList
  | number literal => literal
  | string t => quote t
  | array items => '[' :: compactItems items ++ [']']
  | object fields => '{' :: compactFields fields ++ ['}']

/-- The items of an array, with commas between them. -/
def compactItems : List JsonValue → Text
  | [] => []
  | [v] => compact v
  | v :: rest => compact v ++ ',' :: compactItems rest

/-- The fields of an object, with commas between them. -/
def compactFields : List (Text × JsonValue) → Text
  | [] => []
  | [(k, v)] => quote k ++ ':' :: compact v
  | (k, v) :: rest => quote k ++ ':' :: compact v ++ ',' :: compactFields rest

end

/-! ## The pretty form -/

mutual

/-- A value with each item of it on its own line, two blanks further in than the line on which the
value starts, which is `depth` levels in. -/
def pretty (depth : Nat) : JsonValue → Text
  | null => "null".toList
  | bool b => (if b then "true" else "false").toList
  | number literal => literal
  | string t => quote t
  | array [] => ['[', ']']
  | array (v :: rest) => '[' :: prettyItems (depth + 1) (v :: rest) ++ lineBreak depth ++ [']']
  | object [] => ['{', '}']
  | object (f :: rest) => '{' :: prettyFields (depth + 1) (f :: rest) ++ lineBreak depth ++ ['}']

/-- The items of an array, each on a line, with commas between them. -/
def prettyItems (depth : Nat) : List JsonValue → Text
  | [] => []
  | [v] => lineBreak depth ++ pretty depth v
  | v :: rest => lineBreak depth ++ pretty depth v ++ ',' :: prettyItems depth rest

/-- The fields of an object, each on a line, with commas between them. -/
def prettyFields (depth : Nat) : List (Text × JsonValue) → Text
  | [] => []
  | [(k, v)] => lineBreak depth ++ quote k ++ ':' :: ' ' :: pretty depth v
  | (k, v) :: rest =>
      lineBreak depth ++ quote k ++ ':' :: ' ' :: pretty depth v ++ ',' :: prettyFields depth rest

end

end JsonValue

end NumeralLint
