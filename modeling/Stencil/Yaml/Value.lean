import Stencil.Json.Basic
import Stencil.Decimal.Binary

/-!
# YAML values

What a YAML document says once its scalars have been read: the data of JSON, with any value as a key
and with tags. `same` is the equality of keys; it does not look at the order of entries.
-/

namespace Stencil.Yaml

/-- A YAML value. -/
inductive Value where
  | null
  | bool (b : Bool)
  | number (n : Number)
  | string (s : String)
  | sequence (items : List Value)
  | mapping (entries : List (Value × Value))
  | tagged (tag : String) (value : Value)

instance : Inhabited Value := ⟨.null⟩

/-- The name of a tag without the mark it may start with, unless it is the mark alone. -/
def unmarked (tag : String) : String :=
  match tag.toList with
  | '!' :: c :: name => String.ofList (c :: name)
  | _ => tag

/-- The kind of a value. A tag does not change it. -/
def Value.kind : Value → Kind
  | .null => .null
  | .bool _ => .boolean
  | .number _ => .number
  | .string _ => .string
  | .sequence _ => .sequence
  | .mapping _ => .mapping
  | .tagged _ v => v.kind

/-- Whether two numbers are the same. An integer differs from every floating-point number, and what
is not a number is the same as itself. -/
def sameNumber : Number → Number → Bool
  | .int m, .int n => m == n
  | .float x, .float y => x == y || (x.isNaN && y.isNaN)
  | _, _ => false

mutual

/-- Whether two values are the same. -/
def Value.same : Value → Value → Bool
  | .null, .null => true
  | .bool a, .bool b => a == b
  | .number m, .number n => sameNumber m n
  | .string s, .string t => s == t
  | .sequence vs, .sequence ws => sameItems vs ws
  | .mapping es, .mapping fs => es.length == fs.length && sameEntries es fs
  | .tagged s v, .tagged t w => unmarked s == unmarked t && v.same w
  | _, _ => false

/-- Whether two lists hold the same items in order. -/
def sameItems : List Value → List Value → Bool
  | [], [] => true
  | v :: vs, w :: ws => v.same w && sameItems vs ws
  | _, _ => false

/-- Whether each of some entries is among others. -/
def sameEntries : List (Value × Value) → List (Value × Value) → Bool
  | [], _ => true
  | (k, v) :: es, fs => fs.any (fun f => k.same f.1 && v.same f.2) && sameEntries es fs

end

/-- Whether some entries have no two keys that are the same. -/
def distinctKeys : List (Value × Value) → Bool
  | [] => true
  | (k, _) :: es => !es.any (fun e => k.same e.1) && distinctKeys es

end Stencil.Yaml
