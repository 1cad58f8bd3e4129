import Stencil.Json.Basic
import Stencil.Decimal.Layout
import Stencil.Yaml.Value

/-!
# From YAML to JSON

A YAML value becomes a JSON value when all keys of its mappings are scalars: keys become their text,
tags are dropped, and numbers that are not finite become null. The first key in document order that
is a collection is a fault, which is told with the keys on the way to it.
-/

namespace Stencil.Yaml

open Stencil.Decimal

/-- A key that is not a scalar; the path holds the keys of the mappings around its own, from the
outside in. -/
structure KeyFault where
  path : List String
  deriving DecidableEq, Repr

def KeyFault.message (f : KeyFault) : String :=
  f.path.foldr (fun key text => "value of '" ++ key ++ "': " ++ text) "mapping keys must be scalars"

/-- A fault seen from one mapping further out. -/
def KeyFault.under (key : String) (f : KeyFault) : KeyFault := ⟨key :: f.path⟩

/-- Numbers in keys are positional from five places after the point to sixteen before it. -/
def keyLayout : Layout := ⟨-5, 15, false⟩

def numberKey : Number → String
  | .int n => String.ofList (ofInt n)
  | .float x =>
      match keyLayout.float? x with
      | some text => String.ofList text
      | none => if x.isNaN then ".nan" else if x < 0 then "-.inf" else ".inf"

/-- The text of a key; collections have none. -/
def keyText? : Value → Option String
  | .string s => some s
  | .number n => some (numberKey n)
  | .bool b => some (if b then "true" else "false")
  | .null => some "null"
  | .tagged _ v => keyText? v
  | .sequence _ | .mapping _ => none

/-- The number in JSON, or null where it has none. -/
def jsonNumber : Number → Json
  | .int n => .number (.int n)
  | .float x => if x.isFinite then .number (.float x) else .null

mutual

/-- The JSON value of a YAML value. -/
def Value.toJson : Value → Except KeyFault Json
  | .null => .ok .null
  | .bool b => .ok (.bool b)
  | .number n => .ok (jsonNumber n)
  | .string s => .ok (.string s)
  | .sequence items => (jsonItems items).map .array
  | .mapping entries => (jsonMembers entries).map fun ms => .object (Members.ofEntries ms)
  | .tagged _ v => v.toJson

def jsonItems : List Value → Except KeyFault (List Json)
  | [] => .ok []
  | v :: vs =>
      match v.toJson with
      | .error f => .error f
      | .ok j => (jsonItems vs).map (j :: ·)

/-- The members that entries become, in document order. -/
def jsonMembers : List (Value × Value) → Except KeyFault (List (String × Json))
  | [] => .ok []
  | (k, v) :: es =>
      match keyText? k with
      | none => .error ⟨[]⟩
      | some key =>
          match v.toJson with
          | .error f => .error (f.under key)
          | .ok j => (jsonMembers es).map ((key, j) :: ·)

end

/-- The mapping that a value is, without its tags. -/
def Value.mapping? : Value → Option (List (Value × Value))
  | .mapping entries => some entries
  | .tagged _ v => v.mapping?
  | _ => none

mutual

/-- The keys with an equals sign that are met on the way through a value, up to the first fault. The
second part tells whether the value was gone through to its end. -/
def Value.assignmentKeys : Value → List String × Bool
  | .sequence items => assignmentKeysOfItems items
  | .mapping entries => assignmentKeysOfEntries entries
  | .tagged _ v => v.assignmentKeys
  | _ => ([], true)

/-- The keys with an equals sign in items. -/
def assignmentKeysOfItems : List Value → List String × Bool
  | [] => ([], true)
  | v :: vs =>
      match v.assignmentKeys with
      | (keys, false) => (keys, false)
      | (keys, true) => let (more, done) := assignmentKeysOfItems vs; (keys ++ more, done)

/-- The keys with an equals sign in entries. -/
def assignmentKeysOfEntries : List (Value × Value) → List String × Bool
  | [] => ([], true)
  | (k, v) :: es =>
      match keyText? k with
      | none => ([], false)
      | some key =>
          let own := if key.toList.contains '=' then [key] else []
          match v.assignmentKeys with
          | (keys, false) => (own ++ keys, false)
          | (keys, true) =>
              let (more, done) := assignmentKeysOfEntries es
              (own ++ keys ++ more, done)

end

end Stencil.Yaml
