import Stencil.Decimal.Binary

/-!
# The shortest decimal

The fewest digits that name a floating-point number: of the decimals that round to it, the one with
the shortest coefficient, and of two such the nearer. The search tests, for 1, 2, … 17 digits, the
two neighbours of the number on the decimal grid of that many digits; the first grid with a hit wins.
-/

namespace Stencil.Decimal

/-- The decimal `coefficient · 10 ^ exponent`. -/
structure Scientific where
  coefficient : Nat
  exponent : Int
deriving Repr, DecidableEq

/-- The numbers that round to a given one: all fractions from `low / unit` to `high / unit`, the
ends included when `closed`. -/
structure Rounding where
  low : Nat
  value : Nat
  high : Nat
  unit : Nat
  closed : Bool

/-- The interval that rounds to a magnitude. Below a power of two the neighbour is nearer, so the
lower end is half as far away. -/
def Rounding.ofBinary (b : Binary) : Rounding :=
  let low := if b.mantissa = twoTo 52 ∧ b.exponent > -1074 then 4 * b.mantissa - 1 else 4 * b.mantissa - 2
  let scale := if b.exponent ≥ 0 then twoTo b.exponent.toNat else 1
  { low := low * scale
    value := 4 * b.mantissa * scale
    high := (4 * b.mantissa + 2) * scale
    unit := 4 * (if b.exponent ≥ 0 then 1 else twoTo (-b.exponent).toNat)
    closed := b.mantissa % 2 == 0 }

/-- The point `n · 10 ^ p` of a decimal grid in units of the interval, and the factor by which the
interval grows to stay whole. -/
def gridPoint (r : Rounding) (n : Nat) (p : Int) : Nat × Nat :=
  if p ≥ 0 then (n * tenTo p.toNat * r.unit, 1) else (n * r.unit, tenTo (-p).toNat)

/-- Whether a grid point rounds to the number. -/
def Rounding.contains (r : Rounding) (n : Nat) (p : Int) : Bool :=
  let (x, s) := gridPoint r n p
  if r.closed then r.low * s ≤ x && x ≤ r.high * s else r.low * s < x && x < r.high * s

/-- How far a grid point is from the number, in units of the interval. -/
def Rounding.distance (r : Rounding) (n : Nat) (p : Int) : Nat :=
  let (x, s) := gridPoint r n p
  if x ≥ r.value * s then x - r.value * s else r.value * s - x

/-- The decimal exponent of the leading digit of `num / den`. -/
def leadingExponent (num den : Nat) : Int :=
  if num ≥ den then Int.ofNat (Nat.toDigits 10 (num / den)).length - 1
  else
    let j := ((List.range 330).find? fun j => num * tenTo j ≥ den).getD 330
    Int.neg (Int.ofNat j)

/-- The neighbour of the number on the grid of step `10 ^ p` that rounds to it, if there is one. -/
def hitAt (r : Rounding) (p : Int) : Option Scientific :=
  let below := if p ≥ 0 then r.value / (r.unit * tenTo p.toNat) else r.value * tenTo (-p).toNat / r.unit
  let above := below + 1
  match r.contains below p, r.contains above p with
  | true, true =>
      let down := r.distance below p
      let up := r.distance above p
      if down < up || (down == up && below % 2 == 0) then some ⟨below, p⟩ else some ⟨above, p⟩
  | true, false => some ⟨below, p⟩
  | false, true => some ⟨above, p⟩
  | false, false => none

/-- A decimal without the zeros that its coefficient ends with. -/
def Scientific.reduced : Nat → Scientific → Scientific
  | 0, d => d
  | n + 1, d =>
      if d.coefficient % 10 = 0 ∧ d.coefficient ≠ 0
      then Scientific.reduced n ⟨d.coefficient / 10, d.exponent + 1⟩ else d

/-- The shortest decimal of a magnitude. -/
def shortest (b : Binary) : Scientific :=
  if b.mantissa = 0 then ⟨0, 0⟩
  else
    let r := Rounding.ofBinary b
    let e := leadingExponent r.value r.unit
    let hit := (List.range 17).findSome? fun n => hitAt r (e - Int.ofNat n)
    (hit.getD ⟨r.value / r.unit, 0⟩).reduced 18

end Stencil.Decimal
