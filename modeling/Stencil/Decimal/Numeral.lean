import Stencil.Decimal.Binary

/-!
# Reading a decimal numeral

A numeral is digits with at most one point among them and, after an `e`, an exponent. Its value is
the floating-point number nearest to what it spells. `Numeral.scan` is the grammar; `Numeral.toFloat`
the value.
-/

namespace Stencil.Decimal

/-- What a numeral spells: `coefficient · 10 ^ exponent`. -/
structure Numeral where
  coefficient : Nat
  exponent : Int
deriving Repr, DecidableEq

/-- The number that a list of decimal digits spells. -/
def ofDigits (ds : List Char) : Nat :=
  ds.foldl (fun n d => 10 * n + (d.toNat - '0'.toNat)) 0

/-- The digit that a character is in hexadecimal. -/
def hexDigit? (c : Char) : Option Nat :=
  if c.isDigit then some (c.toNat - '0'.toNat)
  else if 'a' ≤ c ∧ c ≤ 'f' then some (c.toNat - 'a'.toNat + 10)
  else if 'A' ≤ c ∧ c ≤ 'F' then some (c.toNat - 'A'.toNat + 10)
  else none

/-- The number that digits spell in a radix of at most sixteen; none for no digits, and none when
one is not a digit of the radix. -/
def ofDigitsIn? (radix : Nat) (ds : List Char) : Option Nat :=
  if ds.isEmpty then none
  else ds.foldlM (fun n c => do
    let d ← hexDigit? c
    if d < radix then some (radix * n + d) else none) 0

/-- The floating-point number nearest to `coefficient · 10 ^ exponent`. Far outside the range of the
format the answer is known without the arithmetic. -/
def Numeral.toFloat (n : Numeral) : Float :=
  let size := Int.ofNat (Nat.toDigits 10 n.coefficient).length + n.exponent
  if n.coefficient = 0 ∨ size < -330 then 0
  else if size > 320 then Float.ofBits 0x7FF0000000000000
  else if n.exponent ≥ 0 then nearest (n.coefficient * tenTo n.exponent.toNat) 1
  else nearest n.coefficient (tenTo (-n.exponent).toNat)

/-- Splits the digits off the front of a text. -/
def spanDigits (cs : List Char) : List Char × List Char :=
  (cs.takeWhile Char.isDigit, cs.dropWhile Char.isDigit)

/-- Reads an exponent, which has at least one digit, up to the end of the text. -/
def exponent? : List Char → Option Int
  | '-' :: cs => if cs.isEmpty ∨ !cs.all Char.isDigit then none else some (-Int.ofNat (ofDigits cs))
  | '+' :: cs => if cs.isEmpty ∨ !cs.all Char.isDigit then none else some (Int.ofNat (ofDigits cs))
  | cs => if cs.isEmpty ∨ !cs.all Char.isDigit then none else some (Int.ofNat (ofDigits cs))

/-- Reads an unsigned numeral that takes up the whole text. Digits may be missing on one side of the
point, but not on both. -/
def Numeral.ofText? (cs : List Char) : Option Numeral := do
  let (whole, rest) := spanDigits cs
  let (fraction, rest) := match rest with
    | '.' :: more => spanDigits more
    | _ => ([], rest)
  if whole.isEmpty && fraction.isEmpty then none
  else
    let coefficient := ofDigits (whole ++ fraction)
    let shift := -Int.ofNat fraction.length
    match rest with
    | [] => some ⟨coefficient, shift⟩
    | e :: more =>
        if e = 'e' ∨ e = 'E' then (exponent? more).map fun x => ⟨coefficient, shift + x⟩ else none

/-- Whether a text spells one of the words for a number that is not finite, in any letter case. -/
def isInfinityWord (cs : List Char) : Bool :=
  let w := cs.map Char.toLower
  w == ['i', 'n', 'f'] || w == ['i', 'n', 'f', 'i', 'n', 'i', 't', 'y']

/-- Reads an optionally signed number, the words for infinity and for what is not a number
included. -/
def float? (cs : List Char) : Option Float :=
  let unsigned (body : List Char) : Option Float :=
    if isInfinityWord body then some (Float.ofBits 0x7FF0000000000000)
    else if body.map Char.toLower = ['n', 'a', 'n'] then some (Float.ofBits 0x7FF8000000000000)
    else (Numeral.ofText? body).map Numeral.toFloat
  match cs with
  | '-' :: body => (unsigned body).map Neg.neg
  | '+' :: body => unsigned body
  | body => unsigned body

end Stencil.Decimal
