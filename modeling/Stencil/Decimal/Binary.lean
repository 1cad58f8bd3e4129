/-!
# Binary fractions

A finite floating-point number is a natural number times a power of two, below the bits as well as
above them. `Binary.ofFloat?` takes the number apart and `nearest` puts one together: it rounds a
quotient of natural numbers to the nearest number of the format, ties to the even mantissa.
-/

namespace Stencil.Decimal

abbrev twoTo (n : Nat) : Nat := Nat.pow 2 n

abbrev tenTo (n : Nat) : Nat := Nat.pow 10 n

/-- The magnitude `mantissa · 2 ^ exponent` with its sign. -/
structure Binary where
  negative : Bool
  mantissa : Nat
  exponent : Int
deriving Repr, DecidableEq

/-- The parts of a finite number; infinities and what is not a number have none. -/
def Binary.ofFloat? (x : Float) : Option Binary :=
  let bits := x.toBits.toNat
  let biased := bits / twoTo 52 % twoTo 11
  let fraction := bits % twoTo 52
  let negative := bits / twoTo 63 == 1
  if biased = 2047 then none
  else if biased = 0 then some ⟨negative, fraction, -1074⟩
  else some ⟨negative, fraction + twoTo 52, Int.ofNat biased - 1075⟩

/-- Whether a number carries the minus sign, which also a zero may. -/
def isNegative (x : Float) : Bool := x.toBits.toNat / twoTo 63 == 1

/-- `num / den` multiplied by `2 ^ (-q)`, as a quotient of natural numbers. -/
def scaleDown (num den : Nat) (q : Int) : Nat × Nat :=
  if q ≥ 0 then (num, den * twoTo q.toNat) else (num * twoTo (-q).toNat, den)

/-- The number with mantissa `m` and exponent `q`, where `m` has at most 53 bits and exactly 53
unless `q` is the least exponent. -/
def assemble (m : Nat) (q : Int) : Float :=
  if m < twoTo 52 then Float.ofBits (UInt64.ofNat m)
  else if q > 971 then Float.ofBits 0x7FF0000000000000
  else Float.ofBits (UInt64.ofNat ((q + 1075).toNat * twoTo 52 + (m - twoTo 52)))

/-- Rounds `num / den` to the nearest number whose exponent is `q`, ties to even. -/
def roundAt (num den : Nat) (q : Int) : Float :=
  let (n, d) := scaleDown num den q
  let m := n / d
  let twice := 2 * (n % d)
  let up := twice > d || (twice == d && m % 2 == 1)
  let m := if up then m + 1 else m
  if m = twoTo 53 then assemble (twoTo 52) (q + 1) else assemble m q

/-- The floating-point number nearest to `num / den`, with a positive denominator. -/
def nearest (num den : Nat) : Float :=
  if num = 0 then 0
  else
    let q := max (Int.ofNat num.log2 - Int.ofNat den.log2 - 53) (-1074)
    let (n, d) := scaleDown num den q
    -- the estimate is at most one binary place too low
    let q := if n / d ≥ twoTo 53 then q + 1 else q
    roundAt num den q

end Stencil.Decimal
