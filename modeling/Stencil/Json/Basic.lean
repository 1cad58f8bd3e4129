import Stencil.Kind
import Stencil.Members

/-!
# JSON values

The tree that every format of variables is read into. Numbers keep whether they were written as
integers, and objects keep the order of their members.
-/

namespace Stencil

/-- A number, with its kind. -/
inductive Number where
  | int (n : Int)
  | float (x : Float)

/-- A JSON value. -/
inductive Json where
  | null
  | bool (b : Bool)
  | number (n : Number)
  | string (s : String)
  | array (items : List Json)
  | object (members : List (String × Json))

instance : Inhabited Json := ⟨.null⟩

def Json.kind : Json → Kind
  | .null => .null
  | .bool _ => .boolean
  | .number _ => .number
  | .string _ => .string
  | .array _ => .array
  | .object _ => .object

namespace Json

/-- The member of a name. Only an object has members. -/
def member? : Json → String → Option Json
  | .object members, name => Members.get? members name
  | _, _ => none

/-- What names lead to, each being a member of what the names before it lead to. -/
def walk? : Json → List String → Option Json
  | v, [] => some v
  | v, name :: names => (v.member? name).bind fun w => w.walk? names

@[simp] theorem walk?_nil (v : Json) : v.walk? [] = some v := rfl

/-- **A walk can be interrupted anywhere.** -/
theorem walk?_append (v : Json) (names further : List String) :
    v.walk? (names ++ further) = (v.walk? names).bind fun w => w.walk? further := by
  induction names generalizing v with
  | nil => simp
  | cons name names ih =>
      cases h : v.member? name with
      | none => simp [walk?, h]
      | some w => simp [walk?, h, ih]

end Json

end Stencil
