import Stencil.Json.Basic

/-!
# Variables

What a template is filled with: a mapping from names to JSON values that holds one name at least.
-/

namespace Stencil

/-- A mapping of names to values that is not empty. -/
structure Variables where
  members : Members Json
  nonempty : members ≠ []

namespace Variables

/-- The variables that some members make, if there are any. -/
def ofMembers? (m : Members Json) : Option Variables :=
  match m with
  | [] => none
  | e :: es => some ⟨e :: es, List.cons_ne_nil e es⟩

/-- The variables that a JSON value holds: an object with members. -/
def ofJson? : Json → Option Variables
  | .object m => ofMembers? m
  | _ => none

/-- The names in order. -/
def names (v : Variables) : List String := Members.keys v.members

def get? (v : Variables) (name : String) : Option Json := Members.get? v.members name

/-- What a name and the names of members after it lead to. -/
def walk? (v : Variables) (name : String) (names : List String) : Option Json :=
  (v.get? name).bind fun w => w.walk? names

/-- How many names there are. -/
def size (v : Variables) : Nat := v.members.length

/-- Whether there are no names, which never happens. -/
def isEmpty (v : Variables) : Bool := v.members.isEmpty

/-- The mapping as a JSON value. -/
def toJson (v : Variables) : Json := .object v.members

theorem walk?_eq_walk?_toJson (v : Variables) (name : String) (names : List String) :
    v.walk? name names = v.toJson.walk? (name :: names) := rfl

@[simp] theorem ofMembers?_nil : ofMembers? [] = none := rfl

theorem members_of_ofMembers? {m : Members Json} {v : Variables} (h : ofMembers? m = some v) :
    v.members = m := by
  cases m with
  | nil => simp at h
  | cons e es => simp [ofMembers?] at h; rw [← h]

theorem size_pos (v : Variables) : 0 < v.size := List.length_pos_iff.mpr v.nonempty

end Variables

end Stencil
