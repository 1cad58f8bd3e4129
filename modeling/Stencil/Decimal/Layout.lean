import Stencil.Decimal.Shortest

/-!
# Writing a decimal

A decimal is written in positional notation while its leading digit stands in a given window of
places, and in scientific notation otherwise. Each format that prints numbers has one `Layout`.
-/

namespace Stencil.Decimal

/-- The decisions of a number format. -/
structure Layout where
  /-- The least place of a leading digit that is still written positionally. -/
  lowest : Int
  /-- The greatest place of a leading digit that is still written positionally. -/
  highest : Int
  /-- Whether a positive exponent carries its sign. -/
  signedExponent : Bool

/-- The digits of a natural number in decimal. -/
def digits (n : Nat) : List Char := Nat.toDigits 10 n

/-- Positional notation: always with a point and at least one digit on either side of it. -/
def positional (ds : List Char) (exponent : Int) : List Char :=
  if exponent ≥ 0 then ds ++ List.replicate exponent.toNat '0' ++ ['.', '0']
  else
    let places := (-exponent).toNat
    if places < ds.length then ds.take (ds.length - places) ++ '.' :: ds.drop (ds.length - places)
    else '0' :: '.' :: List.replicate (places - ds.length) '0' ++ ds

/-- Scientific notation: one digit before the point, and no point after a single digit. -/
def scientific (signed : Bool) (ds : List Char) (place : Int) : List Char :=
  let mantissa := match ds with
    | [] => ['0']
    | [d] => [d]
    | d :: more => d :: '.' :: more
  let exponent := if place < 0 then '-' :: digits (-place).toNat
    else (if signed then ['+'] else []) ++ digits place.toNat
  mantissa ++ 'e' :: exponent

def Layout.write (layout : Layout) (d : Scientific) : List Char :=
  let ds := digits d.coefficient
  let place := Int.ofNat ds.length - 1 + d.exponent
  if d.coefficient = 0 then ['0', '.', '0']
  else if layout.lowest ≤ place ∧ place ≤ layout.highest then positional ds d.exponent
  else scientific layout.signedExponent ds place

/-- The shortest text of a finite number in a layout; infinities and what is not a number have
none. -/
def Layout.float? (layout : Layout) (x : Float) : Option (List Char) :=
  (Binary.ofFloat? x).map fun b =>
    (if b.negative then ['-'] else []) ++ layout.write (shortest b)

/-- The decimal text of an integer. -/
def ofInt (n : Int) : List Char :=
  if n < 0 then '-' :: digits n.natAbs else digits n.natAbs

end Stencil.Decimal
