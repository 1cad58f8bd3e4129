import Stencil.Yaml.Scalar
import Stencil.Yaml.Tree

/-!
# YAML as JSON

A YAML text read as the JSON value it spells, by a reader that knows JSON alone: a key is the text of
its scalar whatever that looks like, of two members with one name the later value stands in the place
of the first, and there are no local tags.
-/

namespace Stencil.Yaml

def jsonScalar? (value : Value) : Option Json :=
  match value with
  | .null => some .null
  | .bool b => some (.bool b)
  | .number (.int n) => some (.number (.int n))
  | .number (.float x) => some (if x.isFinite then .number (.float x) else .null)
  | .string s => some (.string s)
  | _ => none

/-- Whether a collection has a tag that JSON has no notion of. -/
def isLocal (tag : Option String) : Bool := (tag.bind localName?).isSome

mutual

/-- The JSON value that a tree spells. -/
def jsonOfTree? : Tree → Option Json
  | .scalar tag plain text => (scalar? tag plain text).bind jsonScalar?
  | .sequence tag items =>
      if isLocal tag then none else (jsonOfItems? items).map .array
  | .mapping tag entries =>
      if isLocal tag then none
      else (jsonOfEntries? entries).map fun ms => .object (Members.ofEntries ms)

/-- The JSON values that items spell. -/
def jsonOfItems? : List Tree → Option (List Json)
  | [] => some []
  | t :: ts => do
      let v ← jsonOfTree? t
      let vs ← jsonOfItems? ts
      some (v :: vs)

/-- The members that entries spell. -/
def jsonOfEntries? : List (Tree × Tree) → Option (List (String × Json))
  | [] => some []
  | (.scalar _ _ key, v) :: es => do
      let v ← jsonOfTree? v
      let ms ← jsonOfEntries? es
      some ((key, v) :: ms)
  | _ :: _ => none

end

/-- The JSON value that a YAML text spells. -/
def parseJson? (text : String) : Option Json := (Tree.ofText? text.toList).bind jsonOfTree?

end Stencil.Yaml
