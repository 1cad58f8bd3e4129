import Stencil.Yaml.Node.Reader
import Stencil.Yaml.Node.Expansion
import Stencil.Yaml.Token.Lexer

/-!
# The tree of a YAML text

A text of one document, read up to its tree: cut into tokens, read as a node, aliases replaced.
-/

namespace Stencil.Yaml

/-- The tree of a text that holds one document; none if the text is not well formed. -/
def Tree.ofText? (text : List Char) : Option Tree := do
  let tokens ← tokens? text
  let node ← document? tokens
  node.tree? maxDepth

end Stencil.Yaml
