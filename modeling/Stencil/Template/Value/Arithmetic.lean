import Stencil.Template.Fault
import Stencil.Template.Value.Order

/-!
# Arithmetic

The operators between values. Integers are computed exactly and have to fit 128 bits; beside a
floating-point number they become one. A quotient is always a floating-point number, and the quotient
and remainder of integers leave a remainder that is not negative. Sums also join texts and sequences,
and products repeat them.
-/

namespace Stencil.Template

open Stencil.Decimal

/-- What an operator answers when its operands are not made for it. -/
def impossible {α : Type} : Except Cause α := .error .invalidOperation

/-- An integer that an operator gives, if it fits. -/
def wordResult (n : Int) : Except Cause Value := if fitsWord n then .ok (.int n) else impossible

/-- Two operands as numbers of one sort. -/
def operands? (a b : Value) : Option NumberPair :=
  numberPair? (fun n => some (floatOfInt n.value)) a b

/-- A number as a floating-point number. -/
def Value.float? : Value → Option SignedFloat
  | .float x => some x
  | v => v.wholeNumber?.map fun n => (floatOfInt n : SignedFloat)

/-! ## Whole numbers for counting -/

/-- The integer of 128 bits that a value denotes. -/
def Value.int? : Value → Option Int
  | .float x => heldInt? x.value
  | v => v.wholeNumber?.bind fun n => if fitsWord n then some n else Option.none

/-- The integer of so many bits, one of which is for its sign, that a value denotes. -/
def Value.signed? (bits : Nat) (v : Value) : Option Int :=
  v.int?.bind fun n => if fitsBits bits n then some n else Option.none

/-- The integer of 64 bits that a value denotes. -/
def Value.index? (v : Value) : Option Int := v.signed? 64

/-- The natural number of 64 bits that a value denotes. -/
def Value.count? (v : Value) : Option Nat :=
  v.int?.bind fun n => if 0 ≤ n && n < Int.ofNat (twoTo 64) then some n.toNat else Option.none

/-! ## Sums and products -/

/-- What is known of a value as the items of another. -/
def Value.extent : Value → Extent
  | .iterator _ extent _ => extent
  | _ => .counted 0

/-- How deep sums may be made of sums before their items are put together in a list. -/
def maxJoints : Nat := 32

/-- What is known of the items of two values one after the other, of which so many are kept. -/
def Extent.append (kept kept' : Nat) : Extent → Extent → Extent
  | .failing, _ | _, .failing => .failing
  | .uncounted, _ | _, .uncounted => .uncounted
  | .counted m, .counted n => .counted (max m n + 1)
  | .claimed m, .claimed n => .claimed (m + n)
  | .claimed m, .counted _ => .claimed (m + kept')
  | .counted _, .claimed n => .claimed (kept + n)

/-- A sequence made of two others. -/
def joinedItems (a b : Value) (xs ys : List Value) : Value :=
  match a.extent.append xs.length ys.length b.extent with
  | .counted joints =>
      if joints > maxJoints then .ofItems (xs ++ ys) else .iterator (xs ++ ys) (.counted joints) none
  | extent => .iterator (xs ++ ys) extent none

/-- The sum of two values: of numbers, of texts, or of sequences. -/
def add (a b : Value) : Except Cause Value :=
  match a.items?, b.items? with
  | some xs, some ys => .ok (joinedItems a b xs ys)
  | _, _ =>
      match a, b with
      | .string s _, .string t _ => .ok (.text (s ++ t))
      | _, _ =>
          match operands? a b with
          | some (.ints m n) => wordResult (m + n)
          | some (.floats x y) => .ok (.float (x.combine (· + ·) y))
          | none => impossible

/-- The difference of two numbers. -/
def subtract (a b : Value) : Except Cause Value :=
  match operands? a b with
  | some (.ints m n) => wordResult (m - n)
  | some (.floats x y) => .ok (.float (x.combine (· - ·) y))
  | none => impossible

/-- How many bytes a text may have that is repeated. -/
def maxText : Nat := 100000000

/-- A text some times over; none if that is too long. -/
def repeatText (s : String) (times : Value) : Except Cause Value :=
  match times.count? with
  | none => impossible
  | some n =>
      if s.isEmpty then .ok (.text "")
      else if s.utf8ByteSize * n > maxText then impossible
      else .ok (.chars (List.replicate n s.toList).flatten)

/-- How many items of a sequence that is repeated are kept at least, unless there are fewer. -/
def maxKept : Nat := 1000000

/-- A sequence of known length so many times over. Only the first repetitions are kept where there are
very many, and their number is told in 64 bits. -/
def repeatedItems (items : List Value) (length n : Nat) : Value :=
  if items.isEmpty then .lazily []
  else if length * n ≤ maxKept then .lazily (List.replicate n items).flatten
  else
    .iterator (List.replicate (maxKept / items.length + 1) items).flatten
      (.claimed (length * n % twoTo 64)) none

/-- A sequence of known length some times over. -/
def repeatItems (sequence : Value) (items : List Value) (times : Value) : Except Cause Value :=
  match times.count?, sequence.length? with
  | some n, some length => .ok (repeatedItems items length n)
  | _, _ => impossible

/-- The product of two numbers, or a text or a sequence some times over. -/
def multiply (a b : Value) : Except Cause Value :=
  match a.text?, b.text?, a.items?, b.items? with
  | some s, _, _, _ => repeatText s b
  | none, some t, _, _ => repeatText t a
  | none, none, some xs, _ => repeatItems a xs b
  | none, none, none, some ys => repeatItems b ys a
  | none, none, none, none =>
      match operands? a b with
      | some (.ints m n) => wordResult (m * n)
      | some (.floats x y) => .ok (.float (x.combine (· * ·) y))
      | none => impossible

/-! ## Quotients and remainders -/

/-- The quotient of two numbers, which is a floating-point number. -/
def divide (a b : Value) : Except Cause Value :=
  match a.float?, b.float? with
  | some x, some y => .ok (.float (x.combine (· / ·) y))
  | _, _ => impossible

/-- A floating-point number without its fraction. -/
def truncated (x : Float) : Float := if x < 0 then x.ceil else x.floor

/-- The magnitude `m · 2 ^ e` as a floating-point number. -/
def scaled (m : Nat) (e : Int) : Float :=
  if e ≥ 0 then nearest (m * twoTo e.toNat) 1 else nearest m (twoTo (-e).toNat)

/-- The remainder of the quotient that is cut off at the point; it has the sign of the dividend. -/
def floatRemainder (x y : Float) : Float :=
  match Binary.ofFloat? x, Binary.ofFloat? y with
  | some a, some b =>
      if b.mantissa = 0 then 0 / 0
      else
        let e := min a.exponent b.exponent
        let m := a.mantissa * twoTo (a.exponent - e).toNat
        let n := b.mantissa * twoTo (b.exponent - e).toNat
        let r := scaled (m % n) e
        if a.negative then -r else r
  | some _, none => if y.isNaN then y else x
  | none, _ => 0 / 0

/-- The quotient that leaves a remainder that is not negative. -/
def floatFloorDivide (x y : Float) : Float :=
  let q := truncated (x / y)
  if floatRemainder x y < 0 then (if y > 0 then q - 1 else q + 1) else q

/-- The whole quotient of two numbers. -/
def floorDivide (a b : Value) : Except Cause Value :=
  match operands? a b with
  | some (.ints m n) => if n = 0 then impossible else wordResult (m / n)
  | some (.floats x y) => .ok (.float (x.combine floatFloorDivide y))
  | none => impossible

/-- The remainder of two numbers. -/
def remainder (a b : Value) : Except Cause Value :=
  match operands? a b with
  | some (.ints m n) => if n = 0 then impossible else wordResult (m % n)
  | some (.floats x y) => .ok (.float (x.combine floatRemainder y))
  | none => impossible

/-- A power of two integers; an exponent that takes any base but 0, 1 and -1 out of range is not
computed. -/
def intPower (m n : Int) : Except Cause Value :=
  if n < 0 ∨ n ≥ Int.ofNat (twoTo 32) then impossible
  else if m = 0 ∨ m = 1 ∨ m = -1 then wordResult (Int.pow m (if n = 0 then 0 else if n % 2 = 0 then 2 else 1))
  else if n > 127 then impossible
  else wordResult (Int.pow m n.toNat)

/-- The power of two numbers. -/
def power (a b : Value) : Except Cause Value :=
  match operands? a b with
  | some (.ints m n) => intPower m n
  | some (.floats x y) => .ok (.float (x.combine Float.pow y))
  | none => impossible

/-- The negative of a number. The least integer of 128 bits is written with the sign in front of a
number that does not fit, and that number is left as it is. -/
def negate : Value → Except Cause Value
  | .int n => if n.value = Int.ofNat (twoTo 127) then .ok (.int n) else wordResult (-n.value)
  | .float x => .ok (.float x.neg)
  | _ => impossible

/-- The text of one value after the other. -/
def concat (a b : Value) : Value := .chars (a.plainText ++ b.plainText)

end Stencil.Template
