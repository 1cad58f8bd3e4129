import Stencil.Template.Arguments
import Stencil.Text.Blank
import Stencil.Text.Case

/-!
# Filters on sequences and mappings

Counting, picking, ordering and grouping. Ordering is stable; unless asked otherwise it takes two
texts without regard to the letter case of ASCII.
-/

namespace Stencil.Template.Filter

open Take

/-! ## Counting and picking -/

def length : Take Value := do
  let v ← value
  done
  match v.length? with
  | some n => pure (.ofCount n)
  | none => invalid

def first : Take Value := do
  let v ← value
  done
  match v with
  | .undefined | .none => invalid
  | .iterator (item :: _) _ _ => pure item
  | v =>
      match v.iterate? with
      | some items => pure (items.head?.getD .undefined)
      | Option.none => invalid

/-- The last item of a text or a sequence; of a safe text it is safe. -/
def last : Take Value := do
  let v ← value
  done
  match v with
  | .string s mark =>
      pure ((s.toList.getLast?.map fun c => .string (String.singleton c) mark).getD .undefined)
  | .iterator _ .failing _ => invalid
  | v =>
      match v.items? with
      | some items => pure (items.getLast?.getD .undefined)
      | none => invalid

/-- The least of some values, and of equal ones the first. -/
def leastOf : List Value → Value
  | [] => .undefined
  | v :: vs => vs.foldl (fun best w => if w.compare best == .lt then w else best) v

/-- The greatest of some values, and of equal ones the last. -/
def greatestOf : List Value → Value
  | [] => .undefined
  | v :: vs => vs.foldl (fun best w => if w.compare best == .lt then best else w) v

/-- A filter that picks one item. -/
def picking (pick : List Value → Value) : Take Value := do
  let v ← value
  done
  pure (pick (← items v))

/-- The part of a value under a key. -/
def attr : Take Value := do
  let v ← value
  let key ← value
  done
  match v with
  | .undefined => finish (.error .undefinedValue)
  | v => pure ((v.item? key).getD .undefined)

/-- Adds up numbers, leaving out what is undefined. -/
def sumOf : Value → List Value → Except Cause Value
  | total, [] => .ok total
  | total, .undefined :: vs => sumOf total vs
  | total, v :: vs =>
      if v.kind = .number then
        match add total v with
        | .ok total => sumOf total vs
        | .error c => .error c
      else impossible

def sum : Take Value := do
  let v ← value
  done
  finish (sumOf (.ofCount 0) (← items v))

/-! ## Order -/

/-- The order of two values; two texts may be taken without regard to letter case. -/
def compareBy (exactCase : Bool) (a b : Value) : Ordering :=
  match exactCase, a, b with
  | false, .string s _, .string t _ => compareText (Text.asciiLower s) (Text.asciiLower t)
  | _, a, b => a.compare b

/-- Sorts by an order, leaving equal items as they were. -/
def sortedBy {α : Type} (cmp : α → α → Ordering) (xs : List α) : List α :=
  xs.mergeSort fun a b => cmp a b != .gt

/-- An order, turned around when asked to. Equal items stay as they were in either. -/
def turnedIf {α : Type} (reverse : Option Bool) (cmp : α → α → Ordering) : α → α → Ordering :=
  if reverse = some true then fun a b => cmp b a else cmp

/-- The paths in a list of paths with commas between them. -/
def pathsOf (paths : String) : List String :=
  ((Text.split ',' paths.toList).map Text.trim).filterMap fun path =>
    if path.isEmpty then none else some (String.ofList path)

/-- The order of two values by what a path leads to; values without it are equal to all. -/
def compareAt (exactCase : Bool) (path : String) (a b : Value) : Ordering :=
  match a.follow path, b.follow path with
  | .ok a, .ok b => compareBy exactCase a b
  | _, _ => .eq

/-- The order of two values by what several paths lead to, one after the other, with regard to letter
case. -/
def compareAlong (paths : List String) (a b : Value) : Ordering :=
  let parts := fun (v : Value) => Value.ofItems (paths.map fun path => v.followOr path .undefined)
  (parts a).compare (parts b)

/-- The order of two values by an attribute, or by several with commas between them. Blanks around it
do not count. -/
def compareByAttribute (exactCase : Bool) (written : String) : Value → Value → Ordering :=
  let paths := pathsOf written
  if written.contains ',' && !paths.isEmpty then compareAlong paths
  else compareAt exactCase (String.ofList (Text.trim written.toList))

/-- The items of a value in order. -/
def sort : Take Value := do
  let fields ← keywords
  let v ← value
  done
  let vs ← items v
  let exactCase := (← keyword fields "case_sensitive" (.optional Value.bool?)).getD false
  let cmp := match ← keyword fields "attribute" (.optional Value.text?) with
    | some written => compareByAttribute exactCase written
    | none => compareBy exactCase
  let reverse ← keyword fields "reverse" (.optional Value.bool?)
  onlyKeywords fields ["case_sensitive", "attribute", "reverse"]
  pure (.ofItems (sortedBy (turnedIf reverse cmp) vs))

/-- An entry of a mapping as a list of two. -/
def pairOf (e : Value × Value) : Value := .ofItems [e.1, e.2]

/-- The entries of a mapping in order, by key unless told otherwise. -/
def dictsort : Take Value := do
  let fields ← keywords
  let v ← value
  done
  match v.entries? with
  | none => invalid
  | some entries =>
      let byValue := (← keyword fields "by" (.optional Value.text?)) == some "value"
      let exactCase := (← keyword fields "case_sensitive" (.optional Value.bool?)).getD false
      let side := fun (e : Value × Value) => if byValue then e.2 else e.1
      let reverse ← keyword fields "reverse" (.optional Value.bool?)
      onlyKeywords fields ["by", "case_sensitive", "reverse"]
      let cmp := turnedIf reverse fun a b => compareBy exactCase (side a) (side b)
      pure (.ofItems ((sortedBy cmp entries).map pairOf))

/-- The entries of a mapping as lists of two. -/
def items : Take Value := do
  let v ← value
  done
  match v.entries? with
  | some entries => pure (.lazily (entries.map pairOf))
  | none => invalid

/-- A text, a sequence or the keys of a mapping, from the end to the front. A safe text stays safe. -/
def reverse : Take Value := do
  let v ← value
  done
  match v with
  | .undefined => pure .undefined
  | .none => pure .none
  | .string s mark => pure (.string (String.ofList s.toList.reverse) mark)
  | v =>
      match v.iterate? with
      | some items => pure (.lazily items.reverse)
      | Option.none => invalid

def list : Take Value := do
  let v ← value
  done
  pure (.ofItems (← Take.items v))

/-! ## Dividing -/

/-- Items in runs of so many, the last of which may be shorter; `n` bounds the number of runs. -/
def runsOf (size : Nat) : Nat → List Value → List (List Value)
  | 0, _ => []
  | _, [] => []
  | n + 1, x :: xs => (x :: xs).take size :: runsOf size n ((x :: xs).drop size)

/-- A run filled up to a size. -/
def filledTo (size : Nat) (filler : Option Value) (run : List Value) : List Value :=
  match filler with
  | some v => run ++ List.replicate (size - run.length) v
  | none => run

/-- The items of a value in runs of so many; the last may be filled up. -/
def batch : Take Value := do
  let v ← value
  let size ← count
  let filler ← value?
  done
  if size = 0 then invalid
  else
    let vs ← Take.items v
    pure (.ofItems ((runsOf size vs.length vs).map fun run => .ofItems (filledTo size filler run)))

/-- Items in so many parts of nearly equal size, the first `larger` of which have one item more. -/
def partsOf (size larger : Nat) (filler : Option Value) : Nat → List Value → List (List Value)
  | 0, _ => []
  | n + 1, vs =>
      let taken := if larger = 0 then size else size + 1
      let part := vs.take taken
      (if larger = 0 then part ++ filler.toList else part)
        :: partsOf size (larger - 1) filler n (vs.drop taken)

/-- The items of a value in so many parts; the shorter ones may be filled up by one item. -/
def slice : Take Value := do
  let v ← value
  let n ← count
  let filler ← value?
  done
  if n = 0 then invalid
  else
    let vs ← Take.items v
    pure (.ofItems ((partsOf (vs.length / n) (vs.length % n) filler n vs).map .ofItems))

/-- Groups neighbours with equal keys; the last key of a group stands for it. -/
def groupsOf (same : Value → Value → Bool) : List (Value × Value) → List (Value × List Value)
  | [] => []
  | (k, v) :: rest =>
      match groupsOf same rest with
      | (l, vs) :: groups =>
          if (rest.head?.map fun next => same k next.1) = some true then (l, v :: vs) :: groups
          else (k, [v]) :: (l, vs) :: groups
      | [] => [(k, [v])]

/-- The items of a value in groups of the same attribute. -/
def groupby : Take Value := do
  let fields ← keywords
  let v ← value
  let path? ← text?
  done
  let otherwise := (← keyword fields "default" (.optional some)).getD .undefined
  let exactCase := (← keyword fields "case_sensitive" (.optional Value.bool?)).getD false
  let path ← match path? with
    | some path => pure path
    | none => keyword fields "attribute" (.required Value.text?)
  let keyed := (← Take.items v).map fun item => (item.followOr path otherwise, item)
  let sorted := sortedBy (fun a b => compareBy exactCase a.1 b.1) keyed
  onlyKeywords fields ("default" :: "case_sensitive" :: (if path?.isNone then ["attribute"] else []))
  let same := fun a b => compareBy exactCase a b == .eq
  pure (.ofItems ((groupsOf same sorted).map fun g => .group g.1 g.2 none))

/-- Of neighbours with equal keys the first. -/
def firstOfRuns : List (Value × Nat × Value) → List (Nat × Value)
  | [] => []
  | (k, v) :: rest =>
      v :: match rest with
        | [] => []
        | (l, w) :: rest =>
            if k.compare l == .eq then (firstOfRuns ((l, w) :: rest)).drop 1
            else firstOfRuns ((l, w) :: rest)

/-- The items whose key is none of those before. Items with equal keys are brought together, the
first of each is kept, and what is kept is put in order again. -/
def firstsOf (keyed : List (Value × Value)) : List Value :=
  let placed := keyed.zipIdx.map fun ((k, v), n) => (k, n, v)
  let firsts := firstOfRuns (sortedBy (fun a b => a.1.compare b.1) placed)
  (sortedBy (fun a b => compare a.1 b.1) firsts).map Prod.snd

/-- The items of a value without those that are equal to an earlier one. -/
def unique : Take Value := do
  let fields ← keywords
  let v ← value
  done
  let path? ← keyword fields "attribute" (.optional Value.text?)
  let exactCase := (← keyword fields "case_sensitive" (.optional Value.bool?)).getD false
  onlyKeywords fields ["attribute", "case_sensitive"]
  let keyOf := fun (item : Value) =>
    let part := match path? with
      | some path => item.followOr path .undefined
      | none => item
    match exactCase, part with
    | false, .string s _ => .chars (Text.lowerText s.toList)
    | _, part => part
  pure (.ofItems (firstsOf ((← Take.items v).map fun item => (keyOf item, item))))

/-! ## Joining -/

/-- The layers that a mapping is seen through. -/
def layersOf : Value → Option (List (List (Value × Value)))
  | .overlay _ layers _ => some layers
  | v => v.entries?.map fun entries => [entries]

/-- Values without those that are equal to the next. -/
def withoutRepeats : List Value → List Value
  | v :: w :: vs => if v.equals w then withoutRepeats (w :: vs) else v :: withoutRepeats (w :: vs)
  | vs => vs

/-- The keys of several mappings in order, each once. -/
def keysInOrder (all : List (List (Value × Value))) : List Value :=
  withoutRepeats (sortedBy Value.compare (all.flatten.map Prod.fst))

/-- Several mappings as one. -/
def overlaid (all : List (List (Value × Value))) (layers : List (List (Value × Value))) : Value :=
  let valueOf := fun (key : Value) => (layerWhere key.equals key.isAlike layers).getD .undefined
  .overlay ((keysInOrder all).map fun key => (key, valueOf key)) layers none

/-- The items of some values one after the other, up to one that has no items. -/
def chained : List Value → List Value × Extent
  | [] => ([], .uncounted)
  | v :: vs =>
      match v.iterate? with
      | some items => let (more, extent) := chained vs; (items ++ more, extent)
      | none => ((v.items?).getD [], .failing)

/-- Several mappings as one, or the items of several values one after the other: those of sequences
are a sequence again. -/
def chain : Take Value := do
  let v ← value
  let others ← rest
  let all := v :: others
  match all.mapM Value.entries?, all.mapM layersOf with
  | some entries, some layers => pure (overlaid entries layers.flatten)
  | _, _ =>
      let (items, extent) := chained all
      if all.all fun v => v.kind == .sequence then pure (.ofItems items)
      else pure (.iterator items extent none)

/-- The first items of some lists, and what is left of each; none if one is empty. -/
def headsOf : List (List Value) → Option (List Value × List (List Value))
  | [] => some ([], [])
  | [] :: _ => none
  | (x :: xs) :: rest => (headsOf rest).map fun (hs, ts) => (x :: hs, xs :: ts)

/-- Lists of the items at the same place of some lists, up to the end of the shortest; `n` bounds
its length. -/
def zipped : Nat → List (List Value) → List Value
  | 0, _ => []
  | n + 1, all =>
      match headsOf all with
      | some (hs, ts) => .ofItems hs :: zipped n ts
      | none => []

/-- The items of several values side by side. They are counted where those of all values are. -/
def zip : Take Value := do
  let v ← value
  let others ← rest
  let all := v :: others
  let extent := if all.all fun v => v.length?.isSome then Extent.counted 0 else .uncounted
  match all.mapM Value.iterate? with
  | some rows => pure (.iterator (zipped ((rows.head?.getD []).length) rows) extent none)
  | none => invalid

end Stencil.Template.Filter
