import Stencil.Template.Value.Access
import Stencil.Text.Lines
import Stencil.Decimal.Numeral

/-!
# Arguments

How filters, tests and functions take their arguments. The value that a filter or test stands behind
is the first argument; the arguments given by name come last, as one value. Arguments are converted
from left to right, an argument that is left over is a fault, and only then does the work begin.
-/

namespace Stencil.Template

/-! ## Conversions -/

/-- What an argument has to be, given whether it is there. -/
abbrev Conversion (α : Type) := Option Value → Except Cause α

namespace Conversion

/-- An argument that has to be there. -/
def required {α : Type} (convert : Value → Option α) : Conversion α
  | none => .error .missingArgument
  | some v =>
      match convert v with
      | some x => .ok x
      | none => .error .invalidOperation

/-- An argument that may be left out; what has no value counts as left out. -/
def optional {α : Type} (convert : Value → Option α) : Conversion (Option α)
  | none => .ok none
  | some v => if v.isUnset then .ok none else (required convert (some v)).map some

end Conversion

/-- Any value has a text but the arguments given by name. -/
def Value.anyText? : Value → Option String
  | .keywords _ => Option.none
  | v => some v.plain

def Value.bool? : Value → Option Bool
  | .bool b => some b
  | _ => Option.none

/-- The items that a value is gone through by, or the fault that it has no items. -/
def Value.iterateOr (v : Value) : Except Cause (List Value) :=
  match v.iterate? with
  | some items => .ok items
  | Option.none => .error .invalidOperation

/-- The argument that was given by a name. -/
def keywordNamed? (entries : List (Value × Value)) (name : String) : Option Value :=
  valueWhere (fun k => k.text? == some name) entries

/-- The key of an argument by name has to be one of some names. -/
def onlyKnown (names : List String) (key : Value) : Except Cause Unit :=
  match key.text? with
  | none => .error .invalidOperation
  | some name => if names.contains name then .ok () else .error .tooManyArguments

/-! ## Taking arguments -/

/-- A reader of arguments. -/
abbrev Take (α : Type) := StateT (List Value) (Except Cause) α

namespace Take

/-- Takes the next argument through a conversion. -/
def one {α : Type} (convert : Conversion α) : Take α := fun args =>
  match args with
  | [] => (convert none).map (·, [])
  | v :: vs => (convert (some v)).map (·, vs)

def value : Take Value := one (.required some)

/-- Takes any value, which may be left out. -/
def value? : Take (Option Value) := one (.optional some)

def anyText : Take String := one (.required Value.anyText?)

/-- Takes a value as its text, which may be left out. -/
def anyText? : Take (Option String) := one (.optional Value.anyText?)

def text : Take String := one (.required Value.text?)

/-- Takes a text, which may be left out. -/
def text? : Take (Option String) := one (.optional Value.text?)

/-- Takes an integer. -/
def int : Take Int := one (.required Value.index?)

/-- Takes an integer, which may be left out. -/
def int? : Take (Option Int) := one (.optional Value.index?)

/-- Takes a natural number. -/
def count : Take Nat := one (.required Value.count?)

/-- Takes a natural number, which may be left out. -/
def count? : Take (Option Nat) := one (.optional Value.count?)

/-- Takes a truth value, which may be left out. -/
def bool? : Take (Option Bool) := one (.optional Value.bool?)

/-- Takes all arguments that are left. -/
def rest : Take (List Value) := fun args => .ok (args, [])

/-- Takes the arguments given by name off the end. -/
def keywords : Take (List (Value × Value)) := fun args =>
  match args.getLast? with
  | some (.keywords entries) => .ok (entries, args.dropLast)
  | _ => .ok ([], args)

/-- Nothing may be left. -/
def done : Take Unit := fun args =>
  if args.isEmpty then .ok ((), []) else .error .tooManyArguments

/-- The work after the arguments are taken. -/
def finish {α : Type} (result : Except Cause α) : Take α := fun args => result.map (·, args)

/-- The fault of an operation on values it is not made for. -/
def invalid {α : Type} : Take α := finish (.error .invalidOperation)

/-- Converts an argument given by name. -/
def keyword {α : Type} (entries : List (Value × Value)) (name : String) (convert : Conversion α) :
    Take α :=
  finish (convert (keywordNamed? entries name))

/-- Converts an argument given by name, unless it was given by position already; which names may be
used is told with it. -/
def unlessGiven {α : Type} (given : Option α) (entries : List (Value × Value)) (name : String)
    (convert : Conversion (Option α)) : Take (Option α × List String) := do
  match given with
  | some x => pure (some x, [])
  | none => pure (← keyword entries name convert, [name])

/-- Every argument given by name has to be one of the known ones. -/
def onlyKeywords (entries : List (Value × Value)) (names : List String) : Take Unit :=
  finish (entries.forM fun e => onlyKnown names e.1)

def items (v : Value) : Take (List Value) := finish v.iterateOr

def run {α : Type} (reader : Take α) (args : List Value) : Except Cause α :=
  match reader args with
  | .ok (x, _) => .ok x
  | .error c => .error c

end Take

/-! ## Paths -/

/-- The names between the dots of a path. -/
def pathParts (path : String) : List (List Char) := Text.split '.' path.toList

/-- The natural number that a text of digits spells, with an optional plus sign. -/
def pathPlace? (cs : List Char) : Option Nat :=
  let ds := match cs with
    | '+' :: ds => ds
    | ds => ds
  if ds.isEmpty || !ds.all Char.isDigit then none
  else
    let n := Decimal.ofDigits ds
    if n < Decimal.twoTo 64 then some n else none

/-- Goes along a path from a value: a number is a place, anything else an attribute. There is no
going on from what is undefined. -/
def followParts (v : Value) : List (List Char) → Except Cause Value
  | [] => .ok v
  | part :: parts =>
      match v with
      | .undefined => .error .undefinedValue
      | v =>
          let next := match pathPlace? part with
            | some n => v.item? (.ofCount n)
            | none => v.attribute? (String.ofList part)
          followParts (next.getD .undefined) parts

def Value.follow (v : Value) (path : String) : Except Cause Value := followParts v (pathParts path)

/-- The value at the end of a path, or another value if there is none. -/
def Value.followOr (v : Value) (path : String) (otherwise : Value) : Value :=
  match v.follow path with
  | .ok .undefined | .error _ => otherwise
  | .ok found => found

end Stencil.Template
