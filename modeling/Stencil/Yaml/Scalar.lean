import Stencil.Yaml.Value
import Stencil.Yaml.Token.Property
import Stencil.Decimal.Numeral

/-!
# Reading scalars

What the text of a plain scalar means: nothing, a truth value, a number, or else itself. Quoted
scalars mean themselves. A tag of the core set demands a kind, any other global tag makes a string,
and a local tag stays with the value.

Integers have 64 bits. A text that spells an integer of more, up to 128 bits, is refused; one that is
larger still is read as a floating-point number.
-/

namespace Stencil.Yaml

open Stencil.Decimal

/-! ## Words -/

/-- Whether a text is one of the words for nothing. -/
def isNullWord (s : String) : Bool := s == "~" || s == "null" || s == "Null" || s == "NULL"

/-- The truth value that a word stands for. -/
def truth? (s : String) : Option Bool :=
  if s = "true" ∨ s = "True" ∨ s = "TRUE" then some true
  else if s = "false" ∨ s = "False" ∨ s = "FALSE" then some false
  else none

/-! ## Numbers -/

/-- Whether a text is digits behind a superfluous zero, which makes it a string. -/
def isPadded (cs : List Char) : Bool :=
  let body := match cs with
    | '-' :: body => body
    | '+' :: body => body
    | _ => cs
  match body with
  | '0' :: d :: ds => (d :: ds).all Char.isDigit
  | _ => false

/-- The integer that an unsigned text spells, in the radix that its first two characters name. -/
def magnitude? (cs : List Char) : Option Nat :=
  match cs with
  | '0' :: 'x' :: ds => ofDigitsIn? 16 ds
  | '0' :: 'o' :: ds => ofDigitsIn? 8 ds
  | '0' :: 'b' :: ds => ofDigitsIn? 2 ds
  | _ => if isPadded cs then none else ofDigitsIn? 10 cs

/-- The integer that a text spells, of any size. -/
def integer? (cs : List Char) : Option Int :=
  match cs with
  | '-' :: body => (magnitude? body).map fun n => -Int.ofNat n
  | '+' :: body => (magnitude? body).map Int.ofNat
  | body => (magnitude? body).map Int.ofNat

/-- Whether an integer fits 64 bits, with a sign or without. -/
def fitsWord (n : Int) : Bool := -Int.ofNat (twoTo 63) ≤ n && n < Int.ofNat (twoTo 64)

/-- Whether an integer fits 128 bits, with a sign or without. -/
def fitsDoubleWord (n : Int) : Bool := -Int.ofNat (twoTo 127) ≤ n && n < Int.ofNat (twoTo 128)

/-- The floating-point number that a text spells. The words for infinity and for what is not a number
start with a point; a number that is too large is none. -/
def floating? (cs : List Char) : Option Float :=
  let s := String.ofList cs
  if s = ".inf" ∨ s = ".Inf" ∨ s = ".INF" ∨ s = "+.inf" ∨ s = "+.Inf" ∨ s = "+.INF" then
    some (Float.ofBits 0x7FF0000000000000)
  else if s = "-.inf" ∨ s = "-.Inf" ∨ s = "-.INF" then some (Float.ofBits 0xFFF0000000000000)
  else if s = ".nan" ∨ s = ".NaN" ∨ s = ".NAN" then some (Float.ofBits 0x7FF8000000000000)
  else (float? cs).filter Float.isFinite

/-- What a text says as a number: that it is none, that it is one out of range, or which one. -/
inductive NumberReading where
  | none
  | outOfRange
  | some (n : Number)

def readInteger (cs : List Char) : NumberReading :=
  match integer? cs with
  | .none => .none
  | .some n =>
      if fitsWord n then .some (.int n)
      else if fitsDoubleWord n then .outOfRange
      else .none

def readNumber (cs : List Char) : NumberReading :=
  match readInteger cs with
  | .none =>
      if isPadded cs then .none
      else
        match floating? cs with
        | .none => .none
        | .some x => .some (.float x)
  | reading => reading

/-! ## Scalars -/

/-- The value of a plain scalar without a tag. -/
def plainScalar? (text : String) : Option Value :=
  if text = "" ∨ isNullWord text then some .null
  else
    match truth? text with
    | some b => some (.bool b)
    | none =>
        match readNumber text.toList with
        | .some n => some (.number n)
        | .outOfRange => none
        | .none => some (.string text)

/-- The value of a scalar without a tag. -/
def untagged? (plain : Bool) (text : String) : Option Value :=
  if plain then plainScalar? text else some (.string text)

/-- Whether a tag is a local one, which starts with an exclamation mark. -/
def isLocalTag (tag : String) : Bool := tag.toList.head? == some '!'

/-- The name of a local tag. The mark alone is a name too; a tag with bytes that spell no character
has none. -/
def localName? (tag : String) : Option String :=
  match tag.toList with
  | ['!'] => some tag
  | '!' :: name => if name.contains illSpelled then none else some (String.ofList name)
  | _ => none

/-- The value of a scalar under a global tag. -/
def globallyTagged? (tag text : String) : Option Value :=
  if tag = "tag:yaml.org,2002:bool" then (truth? text).map .bool
  else if tag = "tag:yaml.org,2002:int" then
    match readInteger text.toList with
    | .some n => some (.number n)
    | _ => none
  else if tag = "tag:yaml.org,2002:float" then
    (floating? text.toList).map fun x => .number (.float x)
  else if tag = "tag:yaml.org,2002:null" then if isNullWord text then some .null else none
  else some (.string text)

/-- The value of a scalar. A local tag without a name makes no difference. -/
def scalar? (tag : Option String) (plain : Bool) (text : String) : Option Value :=
  match tag with
  | none => untagged? plain text
  | some tag =>
      match localName? tag with
      | some name => (untagged? plain text).map (.tagged name)
      | none => if isLocalTag tag then untagged? plain text else globallyTagged? tag text

end Stencil.Yaml
