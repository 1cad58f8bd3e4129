import Stencil.Json.Basic
import Stencil.Decimal.Numeral

/-!
# Reading JSON

A value is read from the front of a text together with the rest of it. Arrays and objects may nest
to a fixed depth, and the recursion is on the depth that is left; the loops over items and members
take the reader of an item as a parameter and are bounded by the length of the text.

Reading is strict: no comments, no trailing comma, nothing but white space after the value. Of two
members with one name the later value stands in the place of the first.
-/

namespace Stencil.Json

open Stencil.Decimal

/-! ## Blanks and literals -/

/-- White space between tokens. -/
def isSpace (c : Char) : Bool := c == ' ' || c == '\t' || c == '\n' || c == '\r'

/-- Drops the white space a text starts with. -/
def skipSpace (cs : List Char) : List Char := cs.dropWhile isSpace

/-- The text after a word that it starts with. -/
def afterWord? : List Char → List Char → Option (List Char)
  | [], cs => some cs
  | w :: ws, c :: cs => if w = c then afterWord? ws cs else none
  | _ :: _, [] => none

/-! ## Strings -/

/-- The character that a one-letter escape stands for. -/
def escapeLetter? (c : Char) : Option Char :=
  if c = '"' then some '"'
  else if c = '\\' then some '\\'
  else if c = '/' then some '/'
  else if c = 'b' then some '\x08'
  else if c = 'f' then some '\x0c'
  else if c = 'n' then some '\n'
  else if c = 'r' then some '\r'
  else if c = 't' then some '\t'
  else none

/-- The number that four hexadecimal digits spell. -/
def hex4? (a b c d : Char) : Option Nat := ofDigitsIn? 16 [a, b, c, d]

/-- The characters of a string up to its closing quote, and the text after it. A code point above
the basic plane is escaped as a pair of surrogates; a surrogate without its partner is refused, and
so is a control that is not escaped. -/
def stringBody : List Char → Option (List Char × List Char)
  | [] => none
  | '"' :: cs => some ([], cs)
  | '\\' :: 'u' :: a :: b :: c :: d :: cs =>
      match hex4? a b c d with
      | none => none
      | some n =>
          if 0xD800 ≤ n ∧ n < 0xDC00 then
            match cs with
            | '\\' :: 'u' :: e :: f :: g :: h :: rest =>
                match hex4? e f g h with
                | none => none
                | some m =>
                    if 0xDC00 ≤ m ∧ m < 0xE000 then
                      (stringBody rest).map fun (s, r) =>
                        (Char.ofNat (0x10000 + (n - 0xD800) * 0x400 + (m - 0xDC00)) :: s, r)
                    else none
            | _ => none
          else if 0xDC00 ≤ n ∧ n < 0xE000 then none
          else (stringBody cs).map fun (s, r) => (Char.ofNat n :: s, r)
  | '\\' :: c :: cs =>
      match escapeLetter? c with
      | none => none
      | some x => (stringBody cs).map fun (s, r) => (x :: s, r)
  | c :: cs =>
      if c.toNat < 0x20 ∨ c = '\\' then none else (stringBody cs).map fun (s, r) => (c :: s, r)

/-! ## Numbers -/

/-- The largest integer of 64 bits. -/
def maxWord : Nat := twoTo 64 - 1

/-- Takes digits into a coefficient as long as it fits 64 bits. The answer is the coefficient and how
many digits were taken. -/
def takeDigits (coefficient : Nat) : List Char → Nat × Nat
  | [] => (coefficient, 0)
  | d :: ds =>
      let next := 10 * coefficient + (d.toNat - '0'.toNat)
      if next > maxWord then (coefficient, 0)
      else
        let (n, taken) := takeDigits next ds
        (n, taken + 1)

/-- Divides by `10 ^ 308` while the exponent is below what one division can do. -/
def lowerExponent : Nat → Float → Int → Option (Float × Int)
  | 0, f, e => some (f, e)
  | n + 1, f, e =>
      if e.natAbs ≤ 308 ∨ f == 0 then some (f, e)
      else if e ≥ 0 then none
      else lowerExponent n (f / nearest (tenTo 308) 1) (e + 308)

/-- `coefficient · 10 ^ exponent` by one multiplication or division of floating-point numbers, which
may be off by a last bit; none when the result is too large. -/
def scaled? (coefficient : Nat) (exponent : Int) : Option Float := do
  let (f, e) ← lowerExponent 4 (nearest coefficient 1) exponent
  if e.natAbs > 308 then some 0
  else if e ≥ 0 then
    let f := f * nearest (tenTo e.toNat) 1
    if f.isInf then none else some f
  else some (f / nearest (tenTo (-e).toNat) 1)

/-- An exponent as it is written: its sign and its digits. -/
structure Exponent where
  negative : Bool
  digits : List Char

/-- The parts of a number as it is written. -/
structure Numerals where
  negative : Bool
  whole : List Char
  fraction : Option (List Char)
  exponent : Option Exponent

/-- Reads an exponent, which has at least one digit. -/
def exponentPart? (cs : List Char) : Option (Exponent × List Char) :=
  let (negative, cs) := match cs with
    | '-' :: more => (true, more)
    | '+' :: more => (false, more)
    | _ => (false, cs)
  let (ds, rest) := spanDigits cs
  if ds.isEmpty then none else some (⟨negative, ds⟩, rest)

/-- Splits a minus sign off the front of a number. -/
def spanSign : List Char → Bool × List Char
  | '-' :: cs => (true, cs)
  | cs => (false, cs)

/-- Reads the point of a number and the digits behind it, if there is one. -/
def fraction? : List Char → Option (Option (List Char) × List Char)
  | '.' :: cs =>
      let (ds, rest) := spanDigits cs
      if ds.isEmpty then none else some (some ds, rest)
  | cs => some (none, cs)

/-- Reads the mark of an exponent and the exponent behind it, if there is one. -/
def exponent? : List Char → Option (Option Exponent × List Char)
  | [] => some (none, [])
  | e :: cs =>
      if e = 'e' ∨ e = 'E' then (exponentPart? cs).map fun (x, rest) => (some x, rest)
      else some (none, e :: cs)

/-- Reads the parts of a number: no superfluous zero in front, and digits on both sides of a
point. -/
def numerals? (cs : List Char) : Option (Numerals × List Char) := do
  let (negative, cs) := spanSign cs
  let (whole, rest) := spanDigits cs
  if whole.isEmpty || (whole.head? == some '0' && whole.length > 1) then none
  else
    let (fraction, rest) ← fraction? rest
    let (exponent, rest) ← exponent? rest
    some (⟨negative, whole, fraction, exponent⟩, rest)

/-- The value of a number that is not an integer of 64 bits: of its digits those that fit 64 bits
count, the others only move the point. -/
def Numerals.float? (n : Numerals) : Option Float := do
  let (c, taken) := takeDigits 0 n.whole
  let dropped := n.whole.length - taken
  let (c, shift) := match n.fraction with
    | none => (c, Int.ofNat dropped)
    | some ds =>
        let (c, taken) := takeDigits c ds
        (c, Int.ofNat dropped - Int.ofNat taken)
  let x ← match n.exponent with
    | none => scaled? c shift
    | some e =>
        let size := ofDigits e.digits
        if size > 2147483647 then if c ≠ 0 ∧ !e.negative then none else some 0
        else scaled? c (if e.negative then shift - Int.ofNat size else shift + Int.ofNat size)
  some (if n.negative then -x else x)

/-- The value of a number: an integer when it is written as one and fits 64 bits, a floating-point
number otherwise. The integer zero has no sign, so a negative zero is a floating-point number. -/
def Numerals.number? (n : Numerals) : Option Number :=
  let magnitude := ofDigits n.whole
  if n.fraction.isNone && n.exponent.isNone then
    if !n.negative && magnitude ≤ maxWord then some (.int (Int.ofNat magnitude))
    else if n.negative && 0 < magnitude && magnitude ≤ twoTo 63 then some (.int (Int.neg (Int.ofNat magnitude)))
    else n.float?.map .float
  else n.float?.map .float

/-! ## Values -/

/-- Reads the items of an array after its bracket, each with `item`. -/
def items (item : List Char → Option (Json × List Char)) :
    Nat → List Char → Option (List Json × List Char)
  | 0, _ => none
  | n + 1, cs => do
      let (v, rest) ← item cs
      match skipSpace rest with
      | ',' :: rest => do
          let (vs, rest) ← items item n rest
          some (v :: vs, rest)
      | ']' :: rest => some ([v], rest)
      | _ => none

/-- Reads the members of an object after its brace, each value with `item`. -/
def members (item : List Char → Option (Json × List Char)) :
    Nat → List Char → Option (List (String × Json) × List Char)
  | 0, _ => none
  | n + 1, cs =>
      match skipSpace cs with
      | '"' :: cs => do
          let (k, rest) ← stringBody cs
          match skipSpace rest with
          | ':' :: rest => do
              let (v, rest) ← item rest
              match skipSpace rest with
              | ',' :: rest => do
                  let (ms, rest) ← members item n rest
                  some ((String.ofList k, v) :: ms, rest)
              | '\x7d' :: rest => some ([(String.ofList k, v)], rest)
              | _ => none
          | _ => none
      | _ => none

/-- Reads a value from the front of a text, nested at most `depth` levels deep. -/
def value (depth : Nat) (cs : List Char) : Option (Json × List Char) :=
  match skipSpace cs with
  | [] => none
  | '"' :: cs => (stringBody cs).map fun (s, r) => (.string (String.ofList s), r)
  | '[' :: cs =>
      match depth with
      | 0 => none
      | d + 1 =>
          match skipSpace cs with
          | ']' :: rest => some (.array [], rest)
          | _ => (items (value d) cs.length cs).map fun (vs, r) => (.array vs, r)
  | '\x7b' :: cs =>
      match depth with
      | 0 => none
      | d + 1 =>
          match skipSpace cs with
          | '\x7d' :: rest => some (.object [], rest)
          | _ => (members (value d) cs.length cs).map fun (ms, r) =>
              (.object (Members.ofEntries ms), r)
  | c :: cs =>
      if c = 'n' then (afterWord? ['u', 'l', 'l'] cs).map fun r => (.null, r)
      else if c = 't' then (afterWord? ['r', 'u', 'e'] cs).map fun r => (.bool true, r)
      else if c = 'f' then (afterWord? ['a', 'l', 's', 'e'] cs).map fun r => (.bool false, r)
      else (numerals? (c :: cs)).bind fun (n, r) => n.number?.map fun x => (.number x, r)

/-- How many arrays and objects may be open at one place. -/
def maxDepth : Nat := 127

/-- Reads a text that holds one value. -/
def parse? (s : String) : Option Json :=
  match value maxDepth s.toList with
  | some (v, rest) => if skipSpace rest = [] then some v else none
  | none => none

end Stencil.Json
