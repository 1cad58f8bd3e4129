import Stencil.Template.Arguments

/-!
# Filters on numbers

Rounding, magnitudes and conversions to numbers.
-/

namespace Stencil.Template.Filter

open Take Decimal

/-- `r` times a power of `x` by repeated squaring, each product being rounded. -/
def timesPower (r x : Float) (n : Nat) : Float :=
  if h : n = 0 then r else timesPower (if n % 2 = 1 then r * x else r) (x * x) (n / 2)
termination_by n
decreasing_by omega

/-- Ten to a power, as a floating-point number. -/
def powerOfTen (n : Int) : Float :=
  let power := timesPower 1 10 n.natAbs
  if n ≥ 0 then power else 1 / power

/-- A number rounded to so many places after the point, halves away from zero. -/
def rounded (x : SignedFloat) (places : Int) : SignedFloat :=
  let unit := powerOfTen places
  x.combine (fun x unit => (unit * x).round / unit) unit

/-- A number rounded; an integer stays as it is. -/
def round : Take Value := do
  let v ← value
  let places ← one (.optional (Value.signed? 32))
  done
  match v with
  | .int n => pure (.int n)
  | .float x => pure (.float (rounded x (places.getD 0)))
  | _ => invalid

def magnitude : Take Value := do
  let v ← value
  done
  match v with
  | .int n =>
      if n.unsigned || fitsWord n.value.natAbs then pure (.int ⟨n.value.natAbs, n.unsigned⟩)
      else invalid
  | .float x => pure (.float x.abs)
  | _ => invalid

/-- A floating-point number without its fraction, held within 128 bits. -/
def wholePart (x : Float) : Int :=
  if x.isNaN then 0
  else
    match intOfFloat? (truncated x) with
    | some n => max (-Int.ofNat (twoTo 127)) (min (Int.ofNat (twoTo 127) - 1) n)
    | none => if isNegative x then -Int.ofNat (twoTo 127) else Int.ofNat (twoTo 127) - 1

/-- The integer that a text spells, with an optional sign. -/
def intOfText? (cs : List Char) : Option Int :=
  let digits? (ds : List Char) : Option Int :=
    if ds.isEmpty || !ds.all Char.isDigit then none else some (ofDigits ds)
  let n? := match cs with
    | '-' :: ds => (digits? ds).map Neg.neg
    | '+' :: ds => digits? ds
    | ds => digits? ds
  n?.bind fun n => if fitsWord n then some n else none

/-- A value as an integer; a fraction is cut off. -/
def int : Take Value := do
  let v ← value
  done
  match v with
  | .undefined | .none => pure (.int (0 : Int))
  | .bool b => pure (.int (bitOf b))
  | .int n => pure (.int n)
  | .float x => pure (.int (wholePart x.value))
  | .string s _ =>
      match intOfText? s.toList with
      | some n => pure (.int n)
      | Option.none =>
          match float? s.toList with
          | some x => pure (.int (wholePart x))
          | Option.none => invalid
  | _ => invalid

/-- A value as a floating-point number. -/
def float : Take Value := do
  let v ← value
  done
  match v with
  | .undefined | .none => pure (.float (0 : Float))
  | .bool b => pure (.float (floatOfInt (bitOf b)))
  | .int n => pure (.float (floatOfInt n.value))
  | .float x => pure (.float x)
  | .string s _ =>
      match SignedFloat.ofText? s.toList with
      | some x => pure (.float x)
      | Option.none => invalid
  | _ => invalid

/-- Whether a value counts as true. -/
def bool : Take Value := do
  let v ← value
  done
  pure (.bool v.isTrue)

end Stencil.Template.Filter
