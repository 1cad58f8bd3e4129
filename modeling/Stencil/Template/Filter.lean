import Stencil.Template.Escape
import Stencil.Template.Test
import Stencil.Template.Filter.Text
import Stencil.Template.Filter.Sequence
import Stencil.Template.Filter.Pattern

/-!
# Filters

The filters by their names. Some filters apply a test or another filter to every item; a filter that
is named by another is one argument nearer to having none left, which bounds the nesting.
-/

namespace Stencil.Template.Filter

open Take

/-! ## Documents -/

/-- A character of a document that is to stand in HTML as well. -/
def guardedChar (c : Char) : List Char :=
  if c = '<' then "\\u003c".toList
  else if c = '>' then "\\u003e".toList
  else if c = '&' then "\\u0026".toList
  else if c = '\'' then "\\u0027".toList
  else [c]

/-- The indentation that an argument asks for: a number of blanks, or two for the value true. -/
def indentation : Option Value → Except Cause (Option Nat)
  | none => .ok none
  | some (.bool b) => .ok (if b then some 2 else none)
  | some v =>
      match v.count? with
      | some n => .ok (some n)
      | none => .error .invalidOperation

/-- The JSON document of a value. -/
def tojson : Take Value := do
  let fields ← keywords
  let v ← value
  let given ← value?
  done
  let given ← match given with
    | some g => pure (some g)
    | none => keyword fields "indent" (.optional some)
  let indent ← finish (indentation given)
  onlyKeywords fields ["indent"]
  match v.toJson? with
  | none => invalid
  | some d =>
      let cs := match indent with
        | none => d.compact
        | some n => d.indented (List.replicate n ' ') 0
      pure (.string (String.ofList (cs.flatMap guardedChar)) true)

def escape (mode : EscapeMode) : Take Value := do
  let v ← value
  done
  finish (escapedStrictly mode v)

/-! ## The table -/

/-- The filters that name no other. -/
def simple? (mode : EscapeMode) (name : String) : Option (Take Value) :=
  match name with
  | "safe" => some safe
  | "escape" | "e" => some (escape mode)
  | "lower" => some (changing Text.lowerText)
  | "upper" => some (changing Text.upperText)
  | "title" => some title
  | "capitalize" => some (changing Text.capitalized)
  | "trim" => some trim
  | "replace" => some (replace mode)
  | "length" | "count" => some length
  | "dictsort" => some dictsort
  | "items" => some items
  | "reverse" => some reverse
  | "join" => some (join mode)
  | "split" => some split
  | "lines" => some lines
  | "default" | "d" => some default
  | "nl" => some newline
  | "round" => some round
  | "abs" => some magnitude
  | "int" => some int
  | "float" => some float
  | "attr" => some attr
  | "first" => some first
  | "last" => some last
  | "min" => some (picking leastOf)
  | "max" => some (picking greatestOf)
  | "sort" => some sort
  | "list" => some list
  | "string" => some string
  | "bool" => some bool
  | "batch" => some batch
  | "slice" => some slice
  | "sum" => some sum
  | "indent" => some indent
  | "groupby" => some groupby
  | "unique" => some unique
  | "chain" => some chain
  | "zip" => some zip
  | "pprint" => some layered
  | "tojson" => some tojson
  | "format" => some (format mode)
  | _ => none

/-- The filters that apply a test or another filter. -/
def higherNames : List String := ["map", "select", "reject", "selectattr", "rejectattr"]

def exists_ (name : String) : Bool := (simple? .html name).isSome || higherNames.contains name

/-! ## Picking by a test -/

/-- The test that an item has to pass. -/
def passes (test : Option (Take Bool)) (args : List Value) (v : Value) : Except Cause Bool :=
  match test with
  | some t => t.run (v :: args)
  | none => .ok v.isTrue

def testNamed : Option String → Take (Option (Take Bool))
  | none => pure none
  | some name =>
      match Test.ofName? exists_ name with
      | some t => pure (some t)
      | none => finish (.error (.unknownTest none))

/-- The items that pass a test, or those that do not. -/
def keepWhere (part : Value → Except Cause Value) (test : Value → Except Cause Bool) (keep : Bool) :
    List Value → Except Cause (List Value)
  | [] => .ok []
  | v :: vs => do
      let passed ← test (← part v)
      let rest ← keepWhere part test keep vs
      pure (if passed == keep then v :: rest else rest)

/-- Picks items by a test of themselves, or of what a path leads to. -/
def selecting (byAttribute keep : Bool) : Take Value := do
  let v ← value
  let path ← if byAttribute then some <$> anyText else pure none
  let name ← anyText?
  let args ← rest
  let test ← testNamed name
  let part := fun (item : Value) =>
    match path with
    | some p => item.follow p
    | none => .ok item
  .ofItems <$> finish (keepWhere part (passes test args) keep (← Take.items v))

/-! ## Applying another filter -/

/-- The parts of items that an attribute names, or a default where there are none. -/
def partsNamed (key otherwise : Value) : List Value → Except Cause (List Value)
  | [] => .ok []
  | v :: vs => do
      let found := match key, v with
        | .string path _, v => v.follow path
        | _, .undefined => .error .undefinedValue
        | key, v => .ok ((v.item? key).getD .undefined)
      let part ← match found, otherwise with
        | .ok .undefined, otherwise => .ok otherwise
        | .ok part, _ => .ok part
        | .error c, .undefined => .error c
        | .error _, otherwise => .ok otherwise
      pure (part :: (← partsNamed key otherwise vs))

/-- Every item by a part of it, or by what another filter makes of it. -/
def mapping (apply : String → List Value → Option (Except Cause Value)) : Take Value := do
  let v ← value
  let fields ← keywords
  let args ← rest
  match ← keyword fields "attribute" (.optional some) with
  | some key =>
      if !args.isEmpty then finish (.error .tooManyArguments)
      else
        let otherwise := (keywordNamed? fields "default").getD .undefined
        let parts ← finish (partsNamed key otherwise (← Take.items v))
        onlyKeywords fields ["attribute", "default"]
        pure (.ofItems parts)
  | none =>
      match args with
      | .string name _ :: args =>
          if !exists_ name then finish (.error (.unknownFilter none))
          else
            let applied := fun item => (apply name (item :: args)).getD (.error .invalidOperation)
            .ofItems <$> finish ((← Take.items v).mapM applied)
      | _ => invalid

/-- Applies a filter, where at most `n` filters name another. -/
def applyWithin (mode : EscapeMode) : Nat → String → List Value → Option (Except Cause Value)
  | 0, _, _ => none
  | n + 1, name, args =>
      match name with
      | "map" => some (run (mapping (applyWithin mode n)) args)
      | "select" => some (run (selecting false true) args)
      | "reject" => some (run (selecting false false) args)
      | "selectattr" => some (run (selecting true true) args)
      | "rejectattr" => some (run (selecting true false) args)
      | _ => (simple? mode name).map (run · args)

/-- Applies a filter to its arguments; none if there is no filter of that name. -/
def apply (mode : EscapeMode) (name : String) (args : List Value) : Option (Except Cause Value) :=
  applyWithin mode (args.length + 1) name args

end Stencil.Template.Filter
