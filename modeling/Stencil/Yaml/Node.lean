/-!
# YAML nodes

The tree of a document as it is written: scalars are still text, tags are resolved to what they stand
for, and an alias refers to an anchored node. The type of anchors is a parameter: they are names in
the text and numbers once it is known which node each name means.

`Tree` is a node without anchors, in which every alias has been replaced by the node it means.
-/

namespace Stencil.Yaml

/-- A node of a document. -/
inductive Node (α : Type) where
  | scalar (anchor : Option α) (tag : Option String) (plain : Bool) (text : String)
  | sequence (anchor : Option α) (tag : Option String) (items : List (Node α))
  | mapping (anchor : Option α) (tag : Option String) (entries : List (Node α × Node α))
  | alias (anchor : α)

/-- A node without anchors. -/
inductive Tree where
  | scalar (tag : Option String) (plain : Bool) (text : String)
  | sequence (tag : Option String) (items : List Tree)
  | mapping (tag : Option String) (entries : List (Tree × Tree))

/-- The node that an empty text stands for. -/
def Node.empty {α : Type} : Node α := .scalar none none true ""

def Tree.empty : Tree := .scalar none true ""

end Stencil.Yaml
