import Stencil.Template.Arguments

/-!
# Functions

The functions that every template may call. A namespace is made by the evaluation, since its members
can be assigned; here are the members it starts with.
-/

namespace Stencil.Template

open Take

/-- How many items a range may have. -/
def maxRange : Nat := 100000

/-- An integer held within 64 bits, one of which is for its sign. -/
def held (n : Int) : Int := n.bmod (Decimal.twoTo 64)

/-- How many numbers there are from `lower` up to but not including `upper`, in steps. Downwards they
are counted within 64 bits, and there are none where those are too few. -/
def rangeLength (lower upper step : Int) : Nat :=
  if step > 0 then ((upper - lower + step - 1) / step).toNat
  else
    let back := held (-step)
    ((held (lower - upper + back - 1)).tdiv back).toNat

/-- The numbers from one to another, which is left out. -/
def range : Take Value := do
  let lower ← int
  let upper? ← int?
  let step ← int?
  done
  let step := step.getD 1
  let (lower, upper) := match upper? with
    | some upper => (lower, upper)
    | none => (0, lower)
  if step = 0 then invalid
  else
    let n := rangeLength lower upper step
    if n > maxRange then invalid
    else pure (.lazily ((List.range n).map fun i => .int (lower + Int.ofNat i * step : Int)))

/-- A mapping of the entries of another and the arguments given by name. -/
def dict : Take Value := do
  let given ← keywords
  let v ← value?
  done
  match v.map Value.entries? with
  | none => pure (.ofEntries given)
  | some none => invalid
  | some (some entries) =>
      pure (.ofEntries (given.foldl (fun es e => insertEntry es e.1 e.2) entries))

/-- The name of an entry whose key is a text. -/
def nameOf? (e : Value × Value) : Option (String × Value) := e.1.text?.map (·, e.2)

/-- The members that a namespace starts with: the entries whose keys are texts. -/
def initialMembers : Take (List (String × Value)) := do
  let v ← value?
  done
  match v with
  | none => pure []
  | some v =>
      match v.entries? with
      | some entries => pure (entries.filterMap nameOf?)
      | none => invalid

/-- The text of some values over several lines. -/
def described : Take Value := do
  let vs ← rest
  match vs with
  | [v] => pure (.chars (v.layeredText 0))
  | vs => pure (.chars (Value.layeredText 0 (.ofItems vs)))

end Stencil.Template
