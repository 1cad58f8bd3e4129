import Stencil.Text.Occurrence
import Stencil.Template.Value.Arithmetic

/-!
# Parts of values

Attributes, items and slices of values, and whether a value holds another. Places count from zero,
and from the end when they are negative.
-/

namespace Stencil.Template

/-! ## Attributes and items -/

/-- The attribute of a value; texts and plain sequences have none. -/
def Value.attribute? (v : Value) (name : String) : Option Value :=
  match v with
  | .group key items _ =>
      if name = "grouper" then some key
      else if name = "list" then some (groupItems items)
      else Option.none
  | v => v.lookup? (.text name)

/-- The place among `length` items that a number names, if it is not before the first. -/
def placeOf? (length : Nat) (i : Int) : Option Nat :=
  if 0 ≤ i then some i.toNat else if 0 ≤ length + i then some (length + i).toNat else none

/-- The item of a list that a number names. -/
def itemAt? {α : Type} (items : List α) (i : Int) : Option α :=
  (placeOf? items.length i).bind fun n => items[n]?

/-- The item of an iterator that a number names; where the length is not known, none is named from
the end. -/
def Extent.item? (extent : Extent) (items : List Value) (i : Int) : Option Value :=
  match extent with
  | .counted _ => itemAt? items i
  | .claimed n => (placeOf? n i).bind fun k => items[k % items.length]?
  | _ => if i < 0 then none else itemAt? items i

/-- The item of a value under a key. -/
def Value.item? (v key : Value) : Option Value :=
  match v with
  | .string s _ =>
      key.index?.bind fun i => (itemAt? s.toList i).map fun c => .chars [c]
  | .group grouper items origin =>
      match key with
      | .string name _ => (Value.group grouper items origin).attribute? name
      | _ => key.index?.bind fun i => itemAt? [grouper, groupItems items] i
  | .list items _ => key.index?.bind (itemAt? items)
  | .iterator items extent _ => key.index?.bind (extent.item? items)
  | v => v.lookup? key

/-! ## Slices -/

/-- The items at the places 0, `step`, 2 · `step`, … -/
def everyNth {α : Type} (step : Nat) : Nat → List α → List α
  | _, [] => []
  | 0, x :: xs => x :: everyNth step (step - 1) xs
  | n + 1, _ :: xs => everyNth step n xs

/-- The place among `length` items that a bound of a slice names; what lies before the first counts as
the first. -/
def boundPlace (length : Nat) (i : Int) : Nat :=
  if 0 ≤ i then i.toNat else (length + i).toNat

/-- Where a slice from the front to the back starts, and where it stops, among items that count as so
many. -/
def forwardBounds (length : Nat) (start stop : Option Int) : Nat × Nat :=
  ((start.map (boundPlace length)).getD 0, (stop.map (boundPlace length)).getD length)

/-- A slice from the front to the back between two places. -/
def forwardSlice {α : Type} (bounds : Nat × Nat) (step : Nat) (items : List α) : List α :=
  everyNth step 0 ((items.drop bounds.1).take (bounds.2 - bounds.1))

/-- A slice from the back to the front, which ends before the place `stop`; one that stops at the first
place takes it too. -/
def backwardSlice {α : Type} (start stop : Option Int) (step : Nat) (items : List α) : List α :=
  let final := items.length - 1
  let first := min final ((start.map (boundPlace items.length)).getD final)
  let last := (stop.map (boundPlace items.length)).getD 0
  let count := if last = 0 then (first + step) / step else (first - last + step - 1) / step
  (everyNth step 0 ((items.take (first + 1)).drop last).reverse).take count

/-- A slice of a list. -/
def sliceOf {α : Type} (start stop : Option Int) (step : Int) (items : List α) : List α :=
  if step > 0 then forwardSlice (forwardBounds items.length start stop) step.toNat items
  else backwardSlice start stop (-step).toNat items

/-- What is known of a slice from the front to the back of some items. One that is empty because of its
bounds is counted, and one that ends in time does not fail. -/
def Extent.sliced (extent : Extent) (bounds : Nat × Nat) (length : Nat) : Extent :=
  match extent with
  | .counted _ | .claimed _ => .counted 0
  | .uncounted => if bounds.2 ≤ bounds.1 then .counted 0 else .uncounted
  | .failing =>
      if bounds.2 ≤ bounds.1 then .counted 0
      else if bounds.2 ≤ length then .uncounted
      else .failing

/-- A slice of items that repeat from the front to the back between two places. -/
def repeatingSlice (bounds : Nat × Nat) (step : Nat) (items : List Value) : Value :=
  let count := (bounds.2 - bounds.1 + step - 1) / step
  let kept := (List.range (min count maxKept)).filterMap fun k =>
    items[(bounds.1 + k * step) % items.length]?
  .iterator kept (if count ≤ maxKept then .counted 0 else .claimed count) none

/-- A slice of items as an iterator. Items that are not counted have no places from the end. -/
def sliceItems (extent : Extent) (items : List Value) (start stop : Option Int) (step : Int) : Value :=
  if step > 0 then
    match extent with
    | .claimed n => repeatingSlice (forwardBounds n start stop) step.toNat items
    | extent =>
        let bounds := forwardBounds (if extent matches .counted _ then items.length else 0) start stop
        .iterator (forwardSlice bounds step.toNat items) (extent.sliced bounds items.length) none
  else
    .iterator (backwardSlice start stop (-step).toNat items)
      (if extent = .failing then .failing else .counted 0) none

/-- A bound of a slice, which may be left out. -/
def sliceBound : Value → Except Cause (Option Int)
  | .none => .ok Option.none
  | v =>
      match v.index? with
      | some i => .ok (some i)
      | Option.none => .error .invalidOperation

def Value.slice (v start stop step : Value) : Except Cause Value := do
  let start ← sliceBound start
  let stop ← sliceBound stop
  let step := (← sliceBound step).getD 1
  if step = 0 then impossible
  else
    match v with
    | .string s _ => .ok (.chars (sliceOf start stop step s.toList))
    | .undefined | .none => .ok (.ofItems [])
    | v =>
        match v.items? with
        | some items => .ok (sliceItems v.extent items start stop step)
        | Option.none => impossible

/-! ## Membership -/

/-- Whether a container holds a value: a text a part, a mapping a key, a sequence an item. -/
def holds (container value : Value) : Except Cause Bool :=
  match container with
  | .undefined => .ok false
  | .string s _ => .ok (Text.occursIn value.plainText s.toList)
  | .function _ => .ok false
  | v =>
      match v.items? with
      | some items => .ok (items.any (·.equals value))
      | none =>
          match v.entries? with
          | some _ => .ok (v.lookup? value).isSome
          | none => impossible

end Stencil.Template
