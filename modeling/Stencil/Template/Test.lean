import Stencil.Template.Arguments
import Stencil.Text.Case

/-!
# Tests

What can be asked about a value after the word `is`. Which tests there are is also asked by a test,
so the table comes in two layers.
-/

namespace Stencil.Template.Test

open Take

/-- A test of a value alone. -/
def unary (p : Value → Bool) : Take Bool := do
  let v ← value
  done
  pure (p v)

/-- A test of a value against another. -/
def binary (p : Value → Value → Bool) : Take Bool := do
  let v ← value
  let w ← value
  done
  pure (p v w)

/-- A test of a text against another. -/
def ofTexts (p : List Char → List Char → Bool) : Take Bool := do
  let s ← anyText
  let t ← anyText
  done
  pure (p s.toList t.toList)

def ofText (p : Char → Bool) : Take Bool := do
  let s ← text
  done
  pure (s.toList.all p)

/-- Whether a number divides another; nothing is divisible by zero. -/
def divides (v w : Value) : Bool :=
  match numberPair? Whole.exactFloat? v w with
  | some (.ints m n) => n != 0 && m % n == 0
  | some (.floats x y) => floatRemainder x.value y.value == 0
  | none => false

/-- Whether a value is a whole number of a parity. -/
def hasParity (odd : Bool) (v : Value) : Bool :=
  match v.int? with
  | some n => (n % 2 != 0) == odd
  | none => false

/-- Whether two values are the same one: from one place if they have parts or can be called, and
otherwise equal and of one sort. -/
def same (v w : Value) : Bool :=
  match v.identity, w.identity with
  | some i, some j => i.agrees j
  | none, none =>
      let isInt : Value → Bool := fun
        | .int _ => true
        | _ => false
      v.kind == w.kind && isInt v == isInt w && v.equals w
  | _, _ => false

/-- Whether a value is in a container; nothing is in what holds nothing. -/
def isIn (v container : Value) : Bool :=
  match holds container v with
  | .ok b => b
  | .error _ => false

/-- Whether a value is a truth value, a given one if one is given. -/
def isBool (which : Option Bool) : Value → Bool
  | .bool b => which.all (· == b)
  | _ => false

def isInt : Value → Bool
  | .int _ => true
  | _ => false

/-- Whether a value is a floating-point number. -/
def isFloat : Value → Bool
  | .float _ => true
  | _ => false

/-- The tests that need no table. -/
def simple? (name : String) : Option (Take Bool) :=
  match name with
  | "undefined" => some (unary fun v => v.kind == .undefined)
  | "defined" => some (unary fun v => v.kind != .undefined)
  | "none" => some (unary fun v => v.kind == .none)
  | "safe" | "escaped" => some (unary Value.isSafe)
  | "boolean" => some (unary (isBool none))
  | "true" => some (unary (isBool (some true)))
  | "false" => some (unary (isBool (some false)))
  | "odd" => some (unary (hasParity true))
  | "even" => some (unary (hasParity false))
  | "divisibleby" => some (binary divides)
  | "number" => some (unary fun v => v.kind == .number)
  | "integer" | "int" => some (unary isInt)
  | "float" => some (unary isFloat)
  | "string" => some (unary fun v => v.kind == .string)
  | "sequence" => some (unary fun v => v.kind == .sequence)
  | "iterable" => some (unary fun v => v.iterate?.isSome || v.kind == .iterator)
  | "mapping" => some (unary fun v => v.kind == .map)
  | "startingwith" => some (ofTexts fun s t => t.isPrefixOf s)
  | "endingwith" => some (ofTexts fun s t => t.isSuffixOf s)
  | "lower" => some (ofText Text.isLowercase)
  | "upper" => some (ofText Text.isUppercase)
  | "sameas" => some (binary same)
  | "eq" | "equalto" | "==" => some (binary Value.equals)
  | "ne" | "!=" => some (binary fun v w => !v.equals w)
  | "lt" | "lessthan" | "<" => some (binary fun v w => v.compare w == .lt)
  | "le" | "<=" => some (binary fun v w => v.compare w != .gt)
  | "gt" | "greaterthan" | ">" => some (binary fun v w => v.compare w == .gt)
  | "ge" | ">=" => some (binary fun v w => v.compare w != .lt)
  | "in" => some (binary isIn)
  | _ => none

/-- Whether the name of something is one of those there are. -/
def isKnown (known : String → Bool) : Take Bool := do
  let s ← text
  done
  pure (known s)

def exists_ (name : String) : Bool :=
  (simple? name).isSome || name == "filter" || name == "test"

/-- The test of a name, given which filters there are. -/
def ofName? (isFilter : String → Bool) (name : String) : Option (Take Bool) :=
  match simple? name with
  | some t => some t
  | none =>
      if name = "filter" then some (isKnown isFilter)
      else if name = "test" then some (isKnown exists_)
      else none

end Stencil.Template.Test
