import Stencil.Decimal.Numeral

/-!
# Literals of templates

Strings with their escapes and numbers, as they are written between the marks of a template.
-/

namespace Stencil.Template

open Stencil.Decimal

/-! ## Strings -/

/-- The characters between two quotes, and the text after the closing one. A backslash keeps the
character after it from closing the string. -/
def quotedBody (quote : Char) : List Char → Option (List Char × List Char)
  | [] => none
  | c :: cs =>
      if c = quote then some ([], cs)
      else if c = '\\' then
        match cs with
        | [] => none
        | d :: cs => (quotedBody quote cs).map fun (s, r) => (c :: d :: s, r)
      else (quotedBody quote cs).map fun (s, r) => (c :: s, r)

def simpleEscape? (c : Char) : Option Char :=
  if c = '"' ∨ c = '\\' ∨ c = '/' ∨ c = '\'' then some c
  else if c = 'b' then some '\x08'
  else if c = 'f' then some '\x0c'
  else if c = 'n' then some '\n'
  else if c = 'r' then some '\r'
  else if c = 't' then some '\t'
  else none

def isOctal (c : Char) : Bool := '0' ≤ c && c ≤ '7'

/-- The number of one to three octal digits at the front of a text, which has to fit a byte, and how
many digits were taken. -/
def octalByte? : List Char → Option (Nat × Nat)
  | a :: b :: c :: _ =>
      if isOctal b then
        if isOctal c then
          match ofDigitsIn? 8 [a, b, c] with
          | some n => if n < 256 then some (n, 3) else none
          | none => none
        else (ofDigitsIn? 8 [a, b]).map (·, 2)
      else (ofDigitsIn? 8 [a]).map (·, 1)
  | [a, b] =>
      if isOctal b then (ofDigitsIn? 8 [a, b]).map (·, 2) else (ofDigitsIn? 8 [a]).map (·, 1)
  | [a] => (ofDigitsIn? 8 [a]).map (·, 1)
  | [] => none

/-- Whether a number is the first half of a surrogate pair. -/
def isHighSurrogate (n : Nat) : Bool := 0xD800 ≤ n && n < 0xDC00

/-- Whether a number is the second half of a surrogate pair. -/
def isLowSurrogate (n : Nat) : Bool := 0xDC00 ≤ n && n < 0xE000

/-- The code point that some hexadecimal digits spell; a plus sign may stand in the place of the
first. -/
def codePoint? (cs : List Char) : Option Nat :=
  match cs with
  | '+' :: ds => ofDigitsIn? 16 ds
  | ds => ofDigitsIn? 16 ds

/-- Resolves the escapes of a string; none if one is not well formed. A backslash in front of a
character that it means nothing for stands for itself. `skip` counts the characters
that belong to an escape already read, and `half` is the first half of a surrogate pair that waits
for its second. -/
def unescape? (skip : Nat) (half : Option Nat) : List Char → Option (List Char)
  | [] => if half.isNone then some [] else none
  | c :: cs =>
      match skip with
      | n + 1 => unescape? n half cs
      | 0 =>
          if c ≠ '\\' then
            if half.isSome then none else (unescape? 0 none cs).map (c :: ·)
          else
            match cs with
            | [] => none
            | d :: more =>
                if d = 'u' then
                  match more with
                  | e :: f :: g :: h :: _ =>
                      match codePoint? [e, f, g, h], half with
                      | none, _ => none
                      | some n, none =>
                          if isHighSurrogate n || isLowSurrogate n then unescape? 5 (some n) cs
                          else (unescape? 5 none cs).map (Char.ofNat n :: ·)
                      | some n, some m =>
                          if isHighSurrogate m && isLowSurrogate n then
                            (unescape? 5 none cs).map
                              (Char.ofNat (0x10000 + (m - 0xD800) * 0x400 + (n - 0xDC00)) :: ·)
                          else none
                  | _ => none
                else if half.isSome then none
                else if d = 'x' then
                  match more with
                  | e :: f :: _ =>
                      match codePoint? [e, f] with
                      | none => none
                      | some n => (unescape? 3 none cs).map (Char.ofNat n :: ·)
                  | _ => none
                else if isOctal d then
                  match octalByte? cs with
                  | none => none
                  | some (n, taken) => (unescape? taken none cs).map (Char.ofNat n :: ·)
                else
                  match simpleEscape? d with
                  | none => (unescape? 1 none cs).map fun rest => c :: d :: rest
                  | some x => (unescape? 1 none cs).map (x :: ·)

/-! ## Numbers -/

/-- Which part of a number is being read. -/
inductive NumberPart where
  | whole
  | radix (hexadecimal : Bool)
  | fraction
  | exponentMark
  | exponent
  deriving DecidableEq, Repr

/-- The part of a number that a character leads to; none if the number ends in front of it. -/
def NumberPart.next? (p : NumberPart) (c : Char) : Option NumberPart :=
  match p with
  | .whole =>
      if c = '.' then some .fraction
      else if c = 'e' ∨ c = 'E' then some .exponentMark
      else if c.isDigit ∨ c = '_' then some .whole
      else none
  | .fraction =>
      if c = 'e' ∨ c = 'E' then some .exponentMark
      else if c.isDigit ∨ c = '_' then some .fraction
      else none
  | .exponentMark =>
      if c = '+' ∨ c = '-' ∨ c.isDigit then some .exponent
      else if c = '_' then some .exponentMark
      else none
  | .exponent => if c.isDigit ∨ c = '_' then some .exponent else none
  | .radix hexadecimal =>
      if c.isDigit ∨ c = '_' ∨ (hexadecimal ∧ (hexDigit? c).isSome) then some (.radix hexadecimal)
      else none

/-- The characters of a number, the part it ends in, and the text after it. -/
def numberChars (p : NumberPart) : List Char → List Char × NumberPart × List Char
  | [] => ([], p, [])
  | c :: cs =>
      match p.next? c with
      | none => ([], p, c :: cs)
      | some q =>
          let (taken, last, rest) := numberChars q cs
          (c :: taken, last, rest)

/-- A number literal. -/
inductive NumberLiteral where
  | int (n : Nat)
  | float (x : Float)

/-- The radix that a number starts with, and the text after its mark. -/
def radixOf (cs : List Char) : Nat × List Char :=
  match cs with
  | '0' :: c :: rest =>
      if c = 'x' ∨ c = 'X' then (16, rest)
      else if c = 'o' ∨ c = 'O' then (8, rest)
      else if c = 'b' ∨ c = 'B' then (2, rest)
      else (10, cs)
  | _ => (10, cs)

/-- Whether a number ends in a fraction or an exponent. -/
def NumberPart.isFloat : NumberPart → Bool
  | .whole | .radix _ => false
  | _ => true

/-- Whether a word may start with a character. -/
def startsName (c : Char) : Bool := c.isAlpha || c == '_'

/-- The characters of a number without a point at its end that a name follows; that point belongs to
the name. -/
def withoutNamePoint : List Char × NumberPart × List Char → List Char × NumberPart × List Char
  | (taken, last, rest) =>
      if taken.getLast? = some '.' ∧ rest.head?.any startsName then
        (taken.dropLast, .whole, '.' :: rest)
      else (taken, last, rest)

/-- Reads a number, which starts with a digit, and the text after it. Underscores may stand between
digits; an integer has 128 bits. -/
def numberLiteral? (cs : List Char) : Option (NumberLiteral × List Char) :=
  let (radix, body) := radixOf cs
  let (taken, last, rest) :=
    withoutNamePoint (numberChars (if radix = 10 then .whole else .radix (radix = 16)) body)
  if taken.getLast? = some '_' then none
  else
    let digits := taken.filter (· ≠ '_')
    if last.isFloat then (float? digits).map fun x => (.float x, rest)
    else
      match ofDigitsIn? radix digits with
      | none => none
      | some n => if n < twoTo 128 then some (.int n, rest) else none

end Stencil.Template
