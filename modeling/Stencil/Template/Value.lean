import Stencil.Decimal.Signed
import Stencil.Json.Basic

/-!
# Values of templates

What the expressions of a template stand for. Beside the values that JSON has there are values that
only a template makes: what is undefined, sequences that are gone through once they are asked for,
arguments given by name, groups, and the things a template can call or assign to.

Loops and namespaces change while a template is filled, so their values are references, which the
store of the evaluation resolves.
-/

namespace Stencil.Template

open Stencil.Decimal

/-- The functions that every template may call. -/
inductive Function where
  | range
  | dict
  | debug
  | space
  deriving DecidableEq, Repr

/-- A function by the name a template calls it. -/
def Function.ofName? (name : String) : Option Function :=
  if name = "range" then some .range
  else if name = "dict" then some .dict
  else if name = "debug" then some .debug
  else if name = "namespace" then some .space
  else none

/-- The name a template calls a function by. -/
def Function.name : Function → String
  | .range => "range"
  | .dict => "dict"
  | .debug => "debug"
  | .space => "namespace"

def Function.text (f : Function) : String := "minijinja::functions::builtins::" ++ f.name

/-- What a value tells of a macro; `serial` is its number in the template, and `closure` the
surroundings it was defined in. -/
structure Routine where
  serial : Nat
  name : String
  params : List String
  /-- Whether the macro calls the body it is handed. -/
  takesBody : Bool
  closure : Option Nat

/-- What a value was made in: a variable, a constant of the template after which so many tokens are left,
or a step of filling the template. -/
inductive Root where
  | given (name : String)
  | written (left : Nat)
  | made (serial : Nat)
  deriving DecidableEq, Repr

/-- Where a value is from: what it was made in, and the places on the way to it, the last first. Two
values that are from the same place are the same one, while equal values may be from two places. -/
structure Origin where
  root : Root
  path : List Nat
  deriving DecidableEq, Repr

/-- What is known of the items of an iterator before they are gone through. -/
inductive Extent where
  /-- Their number is known. Sums of sequences are made of other sequences, `joints` levels deep. -/
  | counted (joints : Nat)
  /-- There are said to be so many; only the first of them are kept, which then repeat. -/
  | claimed (length : Nat)
  /-- Nothing is known. -/
  | uncounted
  /-- Going through them fails in the end. -/
  | failing
  deriving DecidableEq, Repr

/-- An integer as it is held. What is written out or counted is held without room for a sign, what is
computed with it. -/
structure Whole where
  value : Int
  unsigned : Bool
  deriving DecidableEq, Repr

instance : Coe Int Whole := ⟨fun n => ⟨n, false⟩⟩

/-- A value. Containers carry where they are from once they have been given to a name. -/
inductive Value where
  | undefined
  | none
  | bool (b : Bool)
  | int (n : Whole)
  | float (x : SignedFloat)
  /-- A text; it is safe when it may be printed without escaping. -/
  | string (s : String) (safe : Bool)
  | list (items : List Value) (origin : Option Origin)
  /-- A sequence that is made when it is gone through. -/
  | iterator (items : List Value) (extent : Extent) (origin : Option Origin)
  | map (entries : List (Value × Value)) (origin : Option Origin)
  /-- Several mappings seen as one: a key is looked for in the layers, the last first. -/
  | overlay (entries : List (Value × Value)) (layers : List (List (Value × Value)))
      (origin : Option Origin)
  /-- The arguments of a call that were given by name. -/
  | keywords (entries : List (Value × Value))
  /-- A list of two, whose parts also have the names `grouper` and `list`. -/
  | group (key : Value) (items : List Value) (origin : Option Origin)
  /-- A mapping that is printed as a text of its own. -/
  | record (text : String) (fields : List (String × Value)) (origin : Option Origin)
  | routine (r : Routine)
  | function (f : Function)
  /-- The state of a running loop. -/
  | loop (id : Nat)
  /-- A mapping whose members can be assigned. -/
  | space (id : Nat)

instance : Inhabited Value := ⟨.undefined⟩

/-! ## Making values -/

/-- A text that is escaped when it is printed. -/
def Value.text (s : String) : Value := .string s false

/-- A text of characters that is escaped when it is printed. -/
def Value.chars (cs : List Char) : Value := .string (String.ofList cs) false

/-- A list that is made here. -/
def Value.ofItems (items : List Value) : Value := .list items Option.none

/-- A sequence of known length that is made when it is gone through. -/
def Value.lazily (items : List Value) : Value := .iterator items (.counted 0) Option.none

/-- A mapping that is made here. -/
def Value.ofEntries (entries : List (Value × Value)) : Value := .map entries Option.none

def Value.ofCount (n : Nat) : Value := .int ⟨n, true⟩

def Value.ofNumber : Number → Value
  | .int n => .int ⟨n, 0 ≤ n⟩
  | .float x => .float x

mutual

/-- A JSON value as a value of a template. -/
def Value.ofJson : Json → Value
  | .null => .none
  | .bool b => .bool b
  | .number n => .ofNumber n
  | .string s => .string s false
  | .array items => .list (ofJsonItems items) Option.none
  | .object members => .map (ofJsonMembers members) Option.none

/-- The items of an array as values of a template. -/
def ofJsonItems : List Json → List Value
  | [] => []
  | v :: vs => .ofJson v :: ofJsonItems vs

/-- The members of an object as values of a template. -/
def ofJsonMembers : List (String × Json) → List (Value × Value)
  | [] => []
  | (k, v) :: ms => (.string k false, .ofJson v) :: ofJsonMembers ms

end

@[simp] theorem ofJsonItems_eq_map (vs : List Json) : ofJsonItems vs = vs.map Value.ofJson := by
  induction vs with
  | nil => rfl
  | cons v vs ih => simp [ofJsonItems, ih]

@[simp] theorem ofJsonMembers_eq_map (ms : List (String × Json)) :
    ofJsonMembers ms = ms.map fun m => (Value.text m.1, Value.ofJson m.2) := by
  induction ms with
  | nil => rfl
  | cons m ms ih => simp [ofJsonMembers, ih, Value.text]

/-! ## Origins -/

mutual

/-- A value whose containers are all from somewhere: those that are from nowhere yet are from a given
place. -/
def Value.rooted (root : Root) (path : List Nat) : Value → Value
  | .list items Option.none => .list (rootedItems root path 0 items) (some ⟨root, path⟩)
  | .iterator items extent Option.none =>
      .iterator (rootedItems root path 0 items) extent (some ⟨root, path⟩)
  | .map entries Option.none => .map (rootedEntries root path 0 entries) (some ⟨root, path⟩)
  | .overlay entries layers Option.none => .overlay entries layers (some ⟨root, path⟩)
  | .group key items Option.none =>
      .group (key.rooted root (0 :: path)) (rootedItems root path 1 items) (some ⟨root, path⟩)
  | .record text fields Option.none => .record text fields (some ⟨root, path⟩)
  | v => v

/-- Items that are all from somewhere; `n` is the place of the first. -/
def rootedItems (root : Root) (path : List Nat) (n : Nat) : List Value → List Value
  | [] => []
  | v :: vs => v.rooted root (n :: path) :: rootedItems root path (n + 1) vs

/-- Entries that are all from somewhere; `n` is the place of the first key. -/
def rootedEntries (root : Root) (path : List Nat) (n : Nat) :
    List (Value × Value) → List (Value × Value)
  | [] => []
  | (k, v) :: es =>
      (k.rooted root (n :: path), v.rooted root ((n + 1) :: path))
        :: rootedEntries root path (n + 2) es

end

/-- Whether a value is a container that is from nowhere yet. -/
def Value.isRootless : Value → Bool
  | .list _ origin | .iterator _ _ origin | .map _ origin | .overlay _ _ origin
  | .group _ _ origin | .record _ _ origin => origin.isNone
  | _ => false

/-- What tells a value that has parts or can be called from others. -/
inductive Identity where
  | unknown
  | from (origin : Origin)
  | routine (serial : Nat) (closure : Option Nat)
  | function (f : Function)
  deriving DecidableEq, Repr

/-- Whether two values with identities are the same one. -/
def Identity.agrees : Identity → Identity → Bool
  | .unknown, _ => false
  | i, j => i == j

/-- What is known of the identity of a container. -/
def Identity.ofOrigin : Option Origin → Identity
  | some origin => .from origin
  | Option.none => .unknown

/-- The identity of a value; simple values have none. -/
def Value.identity : Value → Option Identity
  | .list _ origin | .iterator _ _ origin | .map _ origin | .overlay _ _ origin
  | .group _ _ origin | .record _ _ origin => some (.ofOrigin origin)
  | .keywords _ => some .unknown
  | .routine r => some (.routine r.serial r.closure)
  | .function f => some (.function f)
  | .loop id | .space id => some (.from ⟨.made id, []⟩)
  | _ => Option.none

def Value.ofVariable (name : String) (v : Json) : Value := (Value.ofJson v).rooted (.given name) []

/-! ## Kinds -/

/-- What sort of thing a value is. The order of the constructors is the order that values of
different kinds have among themselves. -/
inductive ValueKind where
  | undefined
  | none
  | bool
  | number
  | string
  | sequence
  | map
  | iterator
  | plain
  deriving DecidableEq, Repr

/-- The place of a kind in the order of kinds. -/
def ValueKind.rank : ValueKind → Nat
  | .undefined => 0
  | .none => 1
  | .bool => 2
  | .number => 3
  | .string => 4
  | .sequence => 5
  | .map => 6
  | .iterator => 7
  | .plain => 8

def ValueKind.name : ValueKind → String
  | .undefined => "undefined"
  | .none => "none"
  | .bool => "bool"
  | .number => "number"
  | .string => "string"
  | .sequence => "sequence"
  | .map => "map"
  | .iterator => "iterator"
  | .plain => "plain object"

def Value.kind : Value → ValueKind
  | .undefined => .undefined
  | .none => .none
  | .bool _ => .bool
  | .int _ | .float _ => .number
  | .string .. => .string
  | .list .. | .group .. => .sequence
  | .iterator .. => .iterator
  | .map .. | .overlay .. | .keywords _ | .record .. | .routine _ | .loop _ | .space _ => .map
  | .function _ => .plain

/-! ## Parts -/

/-- The parts that a macro shows of itself. -/
def Routine.fields (r : Routine) : List (String × Value) :=
  [("name", .text r.name), ("arguments", .ofItems (r.params.map .text)), ("caller", .bool r.takesBody)]

/-- Members by name as the entries of a mapping. -/
def entriesOfFields (fields : List (String × Value)) : List (Value × Value) :=
  fields.map fun f => (.text f.1, f.2)

def Value.entries? : Value → Option (List (Value × Value))
  | .map entries _ | .overlay entries _ _ | .keywords entries => some entries
  | .record _ fields _ => some (entriesOfFields fields)
  | .routine r => some (entriesOfFields r.fields)
  | .loop _ | .space _ => some []
  | _ => Option.none

/-- The items of a group as a value of their own. -/
def groupItems (items : List Value) : Value := .lazily items

/-- The items of a list or an iterator. -/
def Value.items? : Value → Option (List Value)
  | .list items _ | .iterator items _ _ => some items
  | .group key items _ => some [key, groupItems items]
  | _ => Option.none

/-- The items that a value is gone through by: those of a sequence, the characters of a text and the
keys of a mapping. What has no value has no items. -/
def Value.iterate? : Value → Option (List Value)
  | .undefined | .none => some []
  | .string s _ => some (s.toList.map fun c => .chars [c])
  | .iterator _ .failing _ => Option.none
  | v =>
      match v.items? with
      | some items => some items
      | Option.none => v.entries?.map fun entries => entries.map Prod.fst

/-- How many items a value is known to have. -/
def Value.length? : Value → Option Nat
  | .string s _ => some s.length
  | .iterator _ .uncounted _ | .iterator _ .failing _ => Option.none
  | .iterator _ (.claimed n) _ => some n
  | v =>
      match v.items? with
      | some items => some items.length
      | Option.none => v.entries?.map List.length

/-- Whether a value counts as true. -/
def Value.isTrue : Value → Bool
  | .undefined | .none => false
  | .bool b => b
  | .int n => n.value != 0
  | .float x => x.value != 0
  | .string s _ => !s.isEmpty
  | .routine _ | .function _ | .loop _ => true
  | v => v.length? != some 0

/-- Whether a text is marked as safe. -/
def Value.isSafe : Value → Bool
  | .string _ safe => safe
  | _ => false

/-- Whether there is no value: nothing was given, or nothing was said to be there. -/
def Value.isUnset : Value → Bool
  | .undefined | .none => true
  | _ => false

def Value.text? : Value → Option String
  | .string s _ => some s
  | _ => Option.none

end Stencil.Template
