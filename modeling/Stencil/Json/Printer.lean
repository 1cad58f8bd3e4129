import Stencil.Json.Basic
import Stencil.Decimal.Layout

/-!
# Printing JSON

The compact text of a value: no space between tokens, members in order, and in strings only the
quote, the backslash and the controls escaped. `Indent` gives the other layout, one member a line.
-/

namespace Stencil.Json

open Stencil.Decimal

/-- Numbers are positional from five places after the point to sixteen before it, and an exponent
carries its sign. -/
def floatLayout : Layout := ⟨-5, 15, true⟩

/-- The text of a number; what is not finite has none in JSON and becomes `null`. -/
def numberText : Number → List Char
  | .int n => ofInt n
  | .float x => (floatLayout.float? x).getD ['n', 'u', 'l', 'l']

/-- A digit of a hexadecimal escape. -/
def hexDigit (n : Nat) : Char := Nat.digitChar n

/-- A character as it is written between the quotes of a string. -/
def stringChar (c : Char) : List Char :=
  if c = '"' then ['\\', '"']
  else if c = '\\' then ['\\', '\\']
  else if c.toNat < 0x20 then
    if c.toNat = 0x08 then ['\\', 'b']
    else if c.toNat = 0x0C then ['\\', 'f']
    else if c = '\n' then ['\\', 'n']
    else if c = '\r' then ['\\', 'r']
    else if c = '\t' then ['\\', 't']
    else ['\\', 'u', '0', '0', hexDigit (c.toNat / 16), hexDigit (c.toNat % 16)]
  else [c]

/-- A string with its quotes. -/
def stringText (s : String) : List Char := '"' :: s.toList.flatMap stringChar ++ ['"']

mutual

/-- The compact text of a value. -/
def compact : Json → List Char
  | .null => ['n', 'u', 'l', 'l']
  | .bool true => ['t', 'r', 'u', 'e']
  | .bool false => ['f', 'a', 'l', 's', 'e']
  | .number n => numberText n
  | .string s => stringText s
  | .array items => '[' :: compactItems items ++ [']']
  | .object members => '\x7b' :: compactMembers members ++ ['\x7d']

/-- The items of an array, separated by commas. -/
def compactItems : List Json → List Char
  | [] => []
  | [v] => compact v
  | v :: vs => compact v ++ ',' :: compactItems vs

/-- The members of an object, separated by commas. -/
def compactMembers : List (String × Json) → List Char
  | [] => []
  | [(k, v)] => stringText k ++ ':' :: compact v
  | (k, v) :: ms => stringText k ++ ':' :: (compact v ++ ',' :: compactMembers ms)

end

/-- The compact text of a value as a string. -/
def text (v : Json) : String := String.ofList v.compact

/-- A new line at a depth of nesting. -/
def newline (indent : List Char) (depth : Nat) : List Char :=
  '\n' :: (List.replicate depth indent).flatten

mutual

/-- The text of a value with one item or member a line. -/
def indented (indent : List Char) (depth : Nat) : Json → List Char
  | .null => ['n', 'u', 'l', 'l']
  | .bool true => ['t', 'r', 'u', 'e']
  | .bool false => ['f', 'a', 'l', 's', 'e']
  | .number n => numberText n
  | .string s => stringText s
  | .array [] => ['[', ']']
  | .array (v :: vs) =>
      '[' :: indentedItems indent (depth + 1) (v :: vs) ++ newline indent depth ++ [']']
  | .object [] => ['\x7b', '\x7d']
  | .object (m :: ms) =>
      '\x7b' :: indentedMembers indent (depth + 1) (m :: ms) ++ newline indent depth ++ ['\x7d']

/-- The items of an array, each on its line. -/
def indentedItems (indent : List Char) (depth : Nat) : List Json → List Char
  | [] => []
  | [v] => newline indent depth ++ indented indent depth v
  | v :: vs =>
      newline indent depth ++ indented indent depth v ++ ',' :: indentedItems indent depth vs

/-- The members of an object, each on its line. -/
def indentedMembers (indent : List Char) (depth : Nat) : List (String × Json) → List Char
  | [] => []
  | [(k, v)] => newline indent depth ++ stringText k ++ ':' :: ' ' :: indented indent depth v
  | (k, v) :: ms =>
      newline indent depth ++ stringText k ++ ':' :: ' ' :: indented indent depth v
        ++ ',' :: indentedMembers indent depth ms

end

end Stencil.Json
