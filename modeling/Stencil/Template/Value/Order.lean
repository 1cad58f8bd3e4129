import Stencil.Template.Value.Text

/-!
# Comparing values

Numbers are equal when they denote the same number, truth values counting as zero and one; sequences
item by item, mappings whatever the order of their entries, and what is the same in any case. The order
of values puts kind before kind, and inside a kind numbers by size, texts by their characters,
sequences and mappings from the front. An integer becomes a floating-point number beside one if that
denotes it still; otherwise the two are compared exactly.
-/

namespace Stencil.Template

open Stencil.Decimal

/-! ## Numbers -/

/-- The floating-point number nearest to an integer. -/
def floatOfInt (n : Int) : Float :=
  let magnitude := nearest n.natAbs 1
  if n < 0 then -magnitude else magnitude

/-- The integer that a finite number denotes, if it denotes one. -/
def intOfFloat? (x : Float) : Option Int :=
  (Binary.ofFloat? x).bind fun b =>
    let whole := if b.exponent ≥ 0 then some (b.mantissa * twoTo b.exponent.toNat)
      else
        let unit := twoTo (-b.exponent).toNat
        if b.mantissa % unit = 0 then some (b.mantissa / unit) else none
    whole.map fun m => if b.negative then -Int.ofNat m else Int.ofNat m

/-- The integer that a floating-point number denotes once it is held within 64 bits, if that does not
change the number. -/
def heldInt? (x : Float) : Option Int :=
  (intOfFloat? x).bind fun n =>
    let held := max (-Int.ofNat (twoTo 63)) (min (Int.ofNat (twoTo 63) - 1) n)
    if floatOfInt held == x then some held else none

/-- Whether an integer fits so many bits, one of which is for its sign. -/
def fitsBits (bits : Nat) (n : Int) : Bool :=
  -Int.ofNat (twoTo (bits - 1)) ≤ n && n < Int.ofNat (twoTo (bits - 1))

/-- Whether an integer fits the 128 bits that numbers are computed in. -/
def fitsWord (n : Int) : Bool := fitsBits 128 n

namespace Whole

/-- Whether an integer takes up all of 128 bits without room for a sign. -/
def isWide (n : Whole) : Bool := n.unsigned && n.value ≥ Int.ofNat (twoTo 64)

/-- The greatest integer that is held in as many bits. -/
def greatest (n : Whole) : Int :=
  if n.unsigned then Int.ofNat (twoTo (if n.isWide then 128 else 64)) - 1
  else Int.ofNat (twoTo (if fitsBits 64 n.value then 63 else 127)) - 1

/-- The integer that the bits spell when the first is for a sign. -/
def wrapped (n : Whole) : Int :=
  if n.value < Int.ofNat (twoTo 127) then n.value else n.value - Int.ofNat (twoTo 128)

/-- The nearest floating-point number, if it denotes the integer again once it is held in as many bits
as that. -/
def exactFloat? (n : Whole) : Option Float :=
  let x := floatOfInt n.value
  (intOfFloat? x).bind fun m => if min m n.greatest = n.value then some x else none

end Whole

/-- The integer a truth value counts as. -/
def bitOf (b : Bool) : Int := if b then 1 else 0

/-- Two values as numbers of one sort. -/
inductive NumberPair where
  | ints (a b : Int)
  | floats (a b : SignedFloat)

/-- The integer of a truth value or an integer, as it is held. -/
def Value.whole? : Value → Option Whole
  | .bool b => some (bitOf b)
  | .int n => some n
  | _ => Option.none

/-- The integer of a truth value or an integer. -/
def Value.wholeNumber? (v : Value) : Option Int := v.whole?.map Whole.value

/-- Two values as numbers of one sort; an integer becomes a floating-point number beside one, by
the given conversion. Two integers that leave no room for a sign are taken by their bits. -/
def numberPair? (toFloat? : Whole → Option Float) (a b : Value) : Option NumberPair :=
  match a, b with
  | .float x, .float y => some (.floats x y)
  | .float x, v => do
      let n ← v.whole?
      let y ← toFloat? n
      some (.floats x y)
  | v, .float y => do
      let n ← v.whole?
      let x ← toFloat? n
      some (.floats x y)
  | v, w => do
      let m ← v.whole?
      let n ← w.whole?
      if m.isWide && n.isWide then some (.ints m.wrapped n.wrapped)
      else if fitsWord m.value && fitsWord n.value then some (.ints m.value n.value)
      else none

/-- Whether two values are numbers that denote the same. -/
def equalNumbers (a b : Value) : Bool :=
  match numberPair? Whole.exactFloat? a b with
  | some (.ints m n) => m == n
  | some (.floats x y) => x.value == y.value
  | none => false

/-- The order of an integer and a floating-point number. -/
def compareIntFloat (n : Int) (x : SignedFloat) : Ordering :=
  match Binary.ofFloat? x.value with
  | none => if x.isNegative then .gt else .lt
  | some b =>
      let m : Int := if b.negative then -Int.ofNat b.mantissa else Int.ofNat b.mantissa
      if b.exponent ≥ 0 then compare n (m * Int.ofNat (twoTo b.exponent.toNat))
      else compare (n * Int.ofNat (twoTo (-b.exponent).toNat)) m

/-- The order of two values that are numbers: of one sort where they have one, or else exactly. -/
def compareNumbers? (a b : Value) : Option Ordering :=
  match numberPair? Whole.exactFloat? a b with
  | some (.ints m n) => some (compare m n)
  | some (.floats x y) => some (x.compare y)
  | none =>
      match a, b with
      | .float x, v => v.wholeNumber?.map fun n => (compareIntFloat n x).swap
      | v, .float y => v.wholeNumber?.map fun n => compareIntFloat n y
      | v, w => do
          let m ← v.wholeNumber?
          let n ← w.wholeNumber?
          some (compare m n)

/-! ## Keys -/

/-- Whether two numbers have the same mark: the integer of 64 bits that they denote, or else the bits
of the nearest floating-point number. -/
def alikeNumbers (a b : Value) : Bool :=
  let short? : Value → Option Int := fun
    | .float x => heldInt? x.value
    | v => v.wholeNumber?.bind fun n => if fitsBits 64 n then some n else none
  let long : Value → UInt64 := fun
    | .float x => x.value.toBits
    | v => (floatOfInt (v.wholeNumber?.getD 0)).toBits
  match short? a, short? b with
  | some m, some n => m == n
  | none, none => long a == long b
  | _, _ => false

/-- Whether two equal values have the same mark, by which mappings with several entries find keys: a
truth value has another mark than the number it counts as. -/
def alikeWithin : Nat → Value → Value → Bool
  | 0, _, _ => false
  | n + 1, a, b =>
      match a, b with
      | .bool _, .bool _ => true
      | .bool _, _ | _, .bool _ => false
      | .int _, _ | .float _, _ => alikeNumbers a b
      | _, _ =>
          match a.items?, b.items? with
          | some xs, some ys => (xs.zip ys).all fun p => alikeWithin n p.1 p.2
          | _, _ =>
              match a.entries?, b.entries? with
              | some xs, some ys =>
                  (xs.zip ys).all fun p =>
                    alikeWithin n p.1.1 p.2.1 && alikeWithin n p.1.2 p.2.2
              | _, _ => true

/-- The first value of entries whose key passes a test. -/
def valueWhere (p : Value → Bool) : List (Value × Value) → Option Value
  | [] => none
  | (k, v) :: es => if p k then some v else valueWhere p es

/-- The value of the entry whose key is equal to another. Among several entries the key has to have
the same mark too. -/
def entryWhere (equal alike : Value → Bool) (entries : List (Value × Value)) : Option Value :=
  match entries with
  | [(k, v)] => if equal k then some v else none
  | entries => valueWhere (fun k => equal k && alike k) entries

/-- The value that layers of entries have for a key: that of the last layer that has one which is not
undefined. -/
def layerWhere (equal alike : Value → Bool) (layers : List (List (Value × Value))) : Option Value :=
  layers.reverse.findSome? fun entries =>
    (entryWhere equal alike entries).filter fun v => v.kind != .undefined

/-- The value that a mapping has for a key that is told by a test. -/
def Value.memberWhere (equal alike : Value → Bool) : Value → Option Value
  | .overlay _ layers _ => layerWhere equal alike layers
  | v => v.entries?.bind (entryWhere equal alike)

/-! ## Equality -/

/-- Whether two values are known to be the same one. -/
def Value.isSame (a b : Value) : Bool :=
  match a.identity, b.identity with
  | some i, some j => i.agrees j
  | _, _ => false

/-- Whether two values are equal, with `n` levels of nesting to go through. What is the same is equal
whatever it holds. -/
def equalWithin : Nat → Value → Value → Bool
  | 0, _, _ => false
  | n + 1, a, b =>
      match a, b with
      | .none, .none | .undefined, .undefined => true
      | .string s _, .string t _ => s == t
      | .function f, .function g => f == g
      | _, _ =>
          if equalNumbers a b || a.isSame b then true
          else
            match a.items?, b.items? with
            | some xs, some ys =>
                xs.length == ys.length && (xs.zip ys).all fun p => equalWithin n p.1 p.2
            | _, _ =>
                match a.entries?, b.entries? with
                | some xs, some ys =>
                    xs.length == ys.length && xs.all fun e =>
                      match b.memberWhere (equalWithin n e.1) (alikeWithin n e.1) with
                      | some v => equalWithin n e.2 v
                      | Option.none => false
                | _, _ => false

mutual

def Value.depth : Value → Nat
  | .list items _ | .iterator items _ _ => depthItems items + 1
  | .group key items _ => max key.depth (depthItems items + 1) + 1
  | .map entries _ | .overlay entries _ _ | .keywords entries => depthEntries entries + 1
  | .record _ fields _ => depthFields fields + 1
  | .routine _ => 3
  | _ => 1

/-- How many levels the deepest of some items has. -/
def depthItems : List Value → Nat
  | [] => 0
  | v :: vs => max v.depth (depthItems vs)

/-- How many levels the deepest part of some entries has. -/
def depthEntries : List (Value × Value) → Nat
  | [] => 0
  | (k, v) :: es => max (max k.depth v.depth) (depthEntries es)

/-- How many levels the deepest of some members has. -/
def depthFields : List (String × Value) → Nat
  | [] => 0
  | (_, v) :: fs => max v.depth (depthFields fs)

end

def Value.equals (a b : Value) : Bool := equalWithin (a.depth + 1) a b

/-! ## Order -/

/-- The order of two lists, from the front, by the order of their items. -/
def compareFrom {α : Type} (cmp : α → α → Ordering) : List α → List α → Ordering
  | [], [] => .eq
  | [], _ :: _ => .lt
  | _ :: _, [] => .gt
  | a :: as, b :: bs => (cmp a b).then (compareFrom cmp as bs)

/-- The order of two texts by their characters. -/
def compareText (s t : String) : Ordering :=
  compareFrom (fun (a b : Char) => compare a.toNat b.toNat) s.toList t.toList

/-- The order of two values, with `n` levels of nesting to go through. -/
def compareWithin : Nat → Value → Value → Ordering
  | 0, _, _ => .eq
  | n + 1, a, b =>
      (compare a.kind.rank b.kind.rank).then <|
        match a, b with
        | .string s _, .string t _ => compareText s t
        | .function f, .function g => compareText f.name g.name
        | _, _ =>
            match compareNumbers? a b with
            | some order => order
            | none =>
                match a.items?, b.items? with
                | some xs, some ys => compareFrom (compareWithin n) xs ys
                | _, _ =>
                    match a.entries?, b.entries? with
                    | some xs, some ys =>
                        compareFrom (fun e f =>
                          (compareWithin n e.1 f.1).then (compareWithin n e.2 f.2)) xs ys
                    | _, _ => .eq

/-- The order of two values. -/
def Value.compare (a b : Value) : Ordering := compareWithin (a.depth + 1) a b

/-! ## Looking up entries -/

/-- Whether a value has the mark of another. -/
def Value.isAlike (a b : Value) : Bool := alikeWithin (a.depth + 1) a b

def Value.lookup? (v key : Value) : Option Value := v.memberWhere key.equals key.isAlike

/-- Whether a key names an entry beside others. -/
def keyMatches (key k : Value) : Bool := key.equals k && key.isAlike k

/-- Gives a key a value: in its place when an entry has the key, at the end otherwise. -/
def insertEntry (entries : List (Value × Value)) (key value : Value) : List (Value × Value) :=
  if entries.any fun e => keyMatches key e.1 then
    entries.map fun e => if keyMatches key e.1 then (e.1, value) else e
  else entries ++ [(key, value)]

end Stencil.Template
