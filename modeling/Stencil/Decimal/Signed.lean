import Stencil.Decimal.Numeral

/-!
# Signs of numbers

A floating-point number has a sign even where it is not a number. That sign is kept apart here, since
the bits of `Float` tell one such value only. It decides the order: with a minus sign what is not a
number comes before all numbers, and without one it comes after them (`SignedFloat.compare`).
-/

namespace Stencil.Decimal

/-- A floating-point number with the sign that it has where it is not a number. -/
structure SignedFloat where
  value : Float
  /-- Whether it is not a number and has a minus sign. -/
  negativeNaN : Bool

instance : Coe Float SignedFloat := ⟨fun x => ⟨x, false⟩⟩

namespace SignedFloat

/-- Reads an optionally signed number, the words for infinity and for what is not a number
included. -/
def ofText? (cs : List Char) : Option SignedFloat :=
  (float? cs).map fun x => ⟨x, x.isNaN && cs.head? == some '-'⟩

/-- Whether a number is not one. -/
def isNaN (x : SignedFloat) : Bool := x.value.isNaN

/-- Whether a number has the minus sign. -/
def isNegative (x : SignedFloat) : Bool :=
  if x.isNaN then x.negativeNaN else Decimal.isNegative x.value

/-- The number with the other sign. -/
def neg (x : SignedFloat) : SignedFloat := ⟨-x.value, x.isNaN && !x.negativeNaN⟩

/-- The number without a minus sign. -/
def abs (x : SignedFloat) : SignedFloat := ⟨x.value.abs, false⟩

/-- The result of an operation. What is not a number is the first such operand again; where both
operands are numbers it has a minus sign. -/
def combine (op : Float → Float → Float) (x y : SignedFloat) : SignedFloat :=
  let result := op x.value y.value
  let negative := if x.isNaN then x.negativeNaN else if y.isNaN then y.negativeNaN else true
  ⟨result, result.isNaN && negative⟩

/-- An integer that is the greater the later a number comes, zeros with either sign apart. -/
def rank (x : SignedFloat) : Int :=
  let bits := x.value.toBits.toNat
  let magnitude := Int.ofNat (bits % twoTo 63)
  if x.isNegative then -magnitude - 1 else magnitude

/-- The order of two numbers. Zeros are equal whatever their signs. -/
def compare (x y : SignedFloat) : Ordering :=
  if x.value == y.value then .eq else Ord.compare x.rank y.rank

end SignedFloat

end Stencil.Decimal
