import Stencil.Decimal.Layout

/-!
# Rounded decimals

A number written with a given number of places, or with a given number of digits. The digits are those
of the exact value rounded to nearest, a half to the even neighbour. A magnitude becomes a `Rounded`,
which holds the digits on either side of the point and the exponent, and `Rounded.write` spells it.
-/

namespace Stencil.Decimal

/-- A quotient rounded to the nearest natural number, a half to the even one. -/
def roundedQuotient (num den : Nat) : Nat :=
  let q := num / den
  let twice := 2 * (num % den)
  if twice > den || (twice == den && q % 2 == 1) then q + 1 else q

/-- A magnitude as a quotient of natural numbers. -/
def Binary.quotient (b : Binary) : Nat × Nat :=
  if b.exponent ≥ 0 then (b.mantissa * twoTo b.exponent.toNat, 1)
  else (b.mantissa, twoTo (-b.exponent).toNat)

/-- The multiple of `10 ^ (-places)` that is nearest to a magnitude, in that unit. -/
def Binary.inUnits (b : Binary) (places : Int) : Nat :=
  let (num, den) := b.quotient
  if places ≥ 0 then roundedQuotient (num * tenTo places.toNat) den
  else roundedQuotient num (den * tenTo (-places).toNat)

/-- A magnitude rounded to so many significant digits, and the place of the first of them. A zero has
its digits from the place of the units on. -/
def Binary.significant (b : Binary) (count : Nat) : List Char × Int :=
  let (num, den) := b.quotient
  if num = 0 then (List.replicate count '0', 0)
  else
    let first := leadingExponent num den
    let ds := digits (b.inUnits (Int.ofNat count - 1 - first))
    if ds.length > count then (ds.take count, first + 1) else (ds, first)

/-- A magnitude that is rounded: the digits before and after the point, and the power of ten it is
multiplied by, where that is written. -/
structure Rounded where
  whole : List Char
  fraction : List Char
  exponent : Option Int

/-- No magnitude has more than so many digits after the point, or significant ones, that differ from
zero. -/
def maxDigits : Nat := 1100

/-- A magnitude with so many digits after the point. -/
def Rounded.positional (b : Binary) (places : Nat) : Rounded :=
  let exact := min places maxDigits
  let ds := digits (b.inUnits (Int.ofNat exact))
  let ds := List.replicate (exact + 1 - ds.length) '0' ++ ds
  ⟨ds.take (ds.length - exact),
    ds.drop (ds.length - exact) ++ List.replicate (places - exact) '0', none⟩

/-- A magnitude with one digit before the point, so many after it, and an exponent. -/
def Rounded.scientific (b : Binary) (places : Nat) : Rounded :=
  let exact := min places maxDigits
  let (ds, first) := b.significant (exact + 1)
  ⟨ds.take 1, ds.drop 1 ++ List.replicate (places - exact) '0', some first⟩

/-- Without the zeros that the digits after the point end with. -/
def Rounded.trimmed (r : Rounded) : Rounded :=
  { r with fraction := (r.fraction.reverse.dropWhile (· == '0')).reverse }

/-- A magnitude with so many significant digits, at least one: with an exponent where the first digit
stands after the fourth place behind the point, or where there are too few digits to reach the point. -/
def Rounded.compact (b : Binary) (count : Nat) : Rounded :=
  let count := max 1 count
  let (_, first) := b.significant (min count (maxDigits + 1))
  if -4 ≤ first ∧ first < Int.ofNat count then
    .positional b (Int.ofNat count - 1 - first).toNat
  else .scientific b (count - 1)

/-- An exponent, with its sign and at least two digits. -/
def exponentText (e : Int) : List Char :=
  let ds := digits e.natAbs
  (if e < 0 then '-' else '+') :: (List.replicate (2 - ds.length) '0' ++ ds)

/-- The text of a rounded magnitude, in which an `e` marks the exponent. A point that no digit follows
is left out unless told otherwise. -/
def Rounded.write (r : Rounded) (keepsPoint : Bool) : List Char :=
  r.whole ++ (if r.fraction.isEmpty && !keepsPoint then [] else '.' :: r.fraction)
    ++ match r.exponent with
      | some e => 'e' :: exponentText e
      | none => []

end Stencil.Decimal
