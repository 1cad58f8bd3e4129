import Stencil.Yaml.Scalar
import Stencil.Yaml.Tree

/-!
# Reading values

The value of a tree: scalars are read, and a mapping with two keys that are the same is refused.
-/

namespace Stencil.Yaml

/-- A collection under its tag; global tags make no difference to it. -/
def underTag (tag : Option String) (value : Value) : Value :=
  match tag.bind localName? with
  | some name => .tagged name value
  | none => value

mutual

def Value.ofTree? : Tree → Option Value
  | .scalar tag plain text => scalar? tag plain text
  | .sequence tag items => (valuesOfItems? items).map fun vs => underTag tag (.sequence vs)
  | .mapping tag entries =>
      (valuesOfEntries? entries).bind fun es =>
        if distinctKeys es then some (underTag tag (.mapping es)) else none

def valuesOfItems? : List Tree → Option (List Value)
  | [] => some []
  | t :: ts => do
      let v ← Value.ofTree? t
      let vs ← valuesOfItems? ts
      some (v :: vs)

def valuesOfEntries? : List (Tree × Tree) → Option (List (Value × Value))
  | [] => some []
  | (k, v) :: es => do
      let k ← Value.ofTree? k
      let v ← Value.ofTree? v
      let es ← valuesOfEntries? es
      some ((k, v) :: es)

end

/-- The value of a text that holds one YAML document. -/
def parse? (text : String) : Option Value := (Tree.ofText? text.toList).bind Value.ofTree?

end Stencil.Yaml
